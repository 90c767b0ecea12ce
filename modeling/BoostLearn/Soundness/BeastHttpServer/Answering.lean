import BoostLearn.Core.Memory
import BoostLearn.Core.Replay
import BoostLearn.Model.BeastHttpServer.Server

/-! # Which requests beast_http_server survives

Every request is answered by one write, except a body for `/email` whose JSON root has no members
to look at, whether or not the whole body parses. The exception that this access throws ends the
program for all connections.
-/

namespace BoostLearn.Soundness.BeastHttpServer

open Memory Replay Model Model.Json Model.BeastHttpServer

/-- The program runs, and every request that has been read is answered once. -/
structure Answers (server : Server) : Prop where
  running : server.escaped = none
  once : ∀ connect ∈ server.connects, connect.written.length = connect.request.toList.length

/-- A value that `operator[]` does not throw on. -/
def NullOrObject : Value → Prop
  | .null => True
  | .object _ => True
  | _ => False

/-- What parsing leaves of the body of an email is null or an object. -/
def Harmless (json : JsonCpp) (_ : Server) : Server.Action → Prop
  | .read _ _ request => request.method = .post → request.target = ascii "/email" →
    NullOrObject (json.parse request.body).2
  | _ => True

variable {json : JsonCpp} {request : Request} {response : Response} {count : ℕ} {now : ℤ}

theorem members_of_nullOrObject {root : Value} (shape : NullOrObject root) :
    ∃ members, root.members = .ok members := by
  cases root with
  | null => exact ⟨[], rfl⟩
  | object members => exact ⟨members, rfl⟩
  | _ => exact absurd shape id

theorem nullOrObject_of_members {root : Value} {members : List (Text × Value)}
    (present : root.members = .ok members) : NullOrObject root := by
  cases root with
  | null => trivial
  | object members => trivial
  | _ => cases present

theorem assign_of_members {root : Value} {members : List (Text × Value)}
    (present : root.members = .ok members) (key : Text) (value : Value) :
    root.assign key value = .ok (.object (insert key value members)) := by
  rw [Value.assign, bind_of_ok present]
  rfl

/-- The root of the answer can be assigned to, whether or not the body has parsed. -/
private theorem parsed_root (json : JsonCpp) (parseSuccess : Bool) (response : Response) :
    ∃ root sent members, parsed json parseSuccess response = .ok (root, sent) ∧
      root.members = .ok members := by
  cases parseSuccess with
  | true => exact ⟨_, _, [], rfl, rfl⟩
  | false => exact ⟨_, _, insert (ascii "error") (.int 1001) [], rfl, rfl⟩

/-- An email is answered exactly when what parsing leaves has members. -/
theorem answerEmail_iff (json : JsonCpp) (parseSuccess : Bool) (srcRoot : Value) (response : Response) :
    (∃ answered, answerEmail json parseSuccess srcRoot response = .ok answered) ↔
      NullOrObject srcRoot := by
  obtain ⟨root, sent, members, made, present⟩ := parsed_root json parseSuccess response
  rw [answerEmail, bind_of_ok made]
  dsimp only
  rw [bind_of_ok (assign_of_members present ..)]
  constructor
  · rintro ⟨answered, returned⟩
    obtain ⟨value, subscript, -⟩ := ok_of_bind returned
    obtain ⟨srcMembers, held, -⟩ := ok_of_bind subscript
    exact nullOrObject_of_members held
  · intro shape
    obtain ⟨srcMembers, held⟩ := members_of_nullOrObject shape
    rw [Value.subscript, bind_of_ok held]
    exact ⟨_, rfl⟩

/-- A request is answered exactly when it is no email, or one that has members to look at. -/
theorem respond_iff :
    (∃ answered, HttpConnect.respond json count now request response = .ok answered) ↔
      (request.method = .post → request.target = ascii "/email" →
        NullOrObject (json.parse request.body).2) := by
  cases method : request.method with
  | get =>
    simp only [HttpConnect.respond, method]
    exact iff_of_true ⟨_, rfl⟩ fun post => by cases post
  | other name =>
    simp only [HttpConnect.respond, method]
    exact iff_of_true ⟨_, rfl⟩ fun post => by cases post
  | post =>
    simp only [HttpConnect.respond, method]
    by_cases email : request.target = ascii "/email"
    · rw [createPostResponse, if_pos email]
      constructor
      · rintro ⟨answered, returned⟩ - -
        obtain ⟨made, created, -⟩ := ok_of_bind returned
        exact (answerEmail_iff ..).mp ⟨made, created⟩
      · intro shape
        obtain ⟨made, created⟩ := (answerEmail_iff json (json.parse request.body).1 _ _).mpr
          (shape trivial email)
        rw [bind_of_ok created]
        exact ⟨_, rfl⟩
    · refine iff_of_true ?_ fun _ other => absurd other email
      rw [createPostResponse, if_neg email]
      exact ⟨_, rfl⟩

section Run

variable {server target : Server} {action : Server.Action} {connect : HttpConnect} {index : ℕ}

/-- A connection that reads has no request yet, and one with a request has written its answer. -/
structure Served (connect : HttpConnect) : Prop where
  once : connect.written.length = connect.request.toList.length
  waiting : connect.reading = true → connect.request = none

structure Serving (server : Server) : Prop where
  running : server.escaped = none
  served : ∀ connect ∈ server.connects, Served connect

theorem serving_listening : Serving .listening := ⟨rfl, fun connect member => by cases member⟩

theorem served_start : Served .start := ⟨rfl, fun _ => rfl⟩

theorem Serving.answers (serving : Serving server) : Answers server :=
  ⟨serving.running, fun connect member => (serving.served connect member).once⟩

/-- A served connection in the place of another. -/
theorem Serving.set (serving : Serving server) (served : Served connect) (index count : ℕ) :
    Serving { server with connects := server.connects.set index connect, count } := by
  refine ⟨serving.running, fun other member => ?_⟩
  rcases List.mem_or_eq_of_mem_set member with earlier | rfl
  · exact serving.served other earlier
  · exact served

/-- The connection behind the request it was waiting for. -/
theorem served_writeResponse (served : Served connect) (reading : connect.reading = true)
    (request : Request) (response : Response) :
    Served (HttpConnect.writeResponse { connect with reading := false, request := some request }
      response) := by
  have nothing : connect.written.length = 0 := by
    rw [served.once, served.waiting reading]
    rfl
  refine ⟨?_, fun other => by cases other⟩
  simp only [HttpConnect.writeResponse, List.length_append, nothing]
  rfl

/-- The handler of a read whose request can be answered. -/
theorem onRead_of_respond {sent : Response} {counted : ℕ}
    (answered : HttpConnect.respond json server.count now request connect.response = .ok (sent, counted)) :
    server.onRead json index connect now request =
      { server with
        connects := server.connects.set index
          (HttpConnect.writeResponse { connect with reading := false, request := some request } sent)
        count := counted } := by
  simp only [Server.onRead, HttpConnect.processRequest]
  rw [bind_of_ok answered]
  rfl

theorem onRead_of_error {error : LogicError}
    (failed : HttpConnect.respond json server.count now request connect.response = .error error) :
    server.onRead json index connect now request = { server with escaped := some error } := by
  simp only [Server.onRead, HttpConnect.processRequest]
  rw [bind_of_error failed]
  rfl

theorem Serving.step (serving : Serving server) (harmless : Harmless json server action)
    (taken : server.step json action = some target) : Serving target := by
  obtain ⟨-, rfl | rfl | ⟨index, now, request, connect, rfl, present, reading, rfl⟩ |
    ⟨index, connect, changed, present, request, written, waits, rfl⟩⟩ := Server.step_cases taken
  · refine ⟨serving.running, fun connect member => ?_⟩
    rcases List.mem_append.mp member with earlier | last
    · exact serving.served connect earlier
    · rw [List.mem_singleton.mp last]
      exact served_start
  · exact serving
  · have served := serving.served connect (List.mem_of_getElem? present)
    obtain ⟨⟨sent, counted⟩, answered⟩ := respond_iff.mpr harmless
    rw [onRead_of_respond answered]
    exact serving.set (served_writeResponse served reading request sent) index counted
  · have served := serving.served connect (List.mem_of_getElem? present)
    refine serving.set ⟨?_, fun reading => ?_⟩ index server.count
    · rw [written, request]
      exact served.once
    · rw [request]
      exact served.waiting (waits reading)

/-- An exception that leaves a handler is the end of the program. -/
theorem harmless_of_answers (taken : server.step json action = some target) (answers : Answers target) :
    Harmless json server action := by
  cases action with
  | read index now request =>
    obtain ⟨connect, present, reading, rfl⟩ := Server.step_read taken
    cases answered : HttpConnect.respond json server.count now request connect.response with
    | ok sent => exact respond_iff.mp ⟨sent, answered⟩
    | error error =>
      have running := answers.running
      rw [onRead_of_error answered] at running
      cases running
  | _ => trivial

/-- The program answers every request exactly in the runs without an email whose body leaves
something without members. -/
theorem answers_iff_harmless (json : JsonCpp) (tape : List Server.Action) :
    Always (Server.step json) Answers .listening tape ↔
      Guarded (Server.step json) (Harmless json) .listening tape := by
  apply always_iff_guarded _ Serving.step (fun _ => harmless_of_answers) serving_listening
  exact fun _ => Serving.answers

end Run

section Example

/-- JsonCpp on a number, on an array, and on the text of an array that breaks off. -/
def jsonCpp : JsonCpp where
  parse text :=
    if text = ascii "1" then (true, .int 1)
    else if text = ascii "[]" then (true, .array [])
    else if text = ascii "[" then (false, .array [.null])
    else (false, .null)
  valueToString _ := []
  toStyledString _ := []

/-- One client posts this body. -/
def email (body : Text) : List Server.Action :=
  [.accepted, .read 0 0 ⟨11, .post, ascii "/email", body⟩]

theorem not_answers_email :
    ¬ Always (Server.step jsonCpp) Answers .listening (email (ascii "1")) ∧
      ¬ Always (Server.step jsonCpp) Answers .listening (email (ascii "[]")) ∧
      ¬ Always (Server.step jsonCpp) Answers .listening (email (ascii "[")) := by
  have ended {body : Text}
      (final : (replay? (Server.step jsonCpp) .listening (email body)).map (·.escaped) =
        some (some .notAnObject)) :
      ¬ Always (Server.step jsonCpp) Answers .listening (email body) := by
    intro always
    obtain ⟨server, run, escaped⟩ := Option.map_eq_some_iff.mp final
    have running := (always.replay run).running
    rw [escaped] at running
    cases running
  refine ⟨ended ?_, ended ?_, ended ?_⟩
  · decide +kernel
  · decide +kernel
  · decide +kernel

end Example

end BoostLearn.Soundness.BeastHttpServer
