import BoostLearn.Soundness.BeastHttpServer.Answering
import Mathlib.Data.List.Perm.Basic

/-! # The numbers that beast_http_server counts

The count is one variable for all connections, and every request for it moves it on. So the pages that
have been answered with a number are those for the first numbers, each of them once, whichever
connections asked and in whatever order the handlers ran.
-/

namespace BoostLearn.Soundness.BeastHttpServer

open CInt Memory Replay Model Model.Json Model.BeastHttpServer

/-- A request for the count. -/
def Asks (request : Request) : Prop := request.method = .get ∧ request.target = ascii "/count"

instance (request : Request) : Decidable (Asks request) := inferInstanceAs (Decidable (_ ∧ _))

/-- A connection whose request was one for the count. -/
def asked (connect : HttpConnect) : Bool := connect.request.any fun request => decide (Asks request)

/-- The page that shows a number. -/
def countPage (count : ℕ) : Text :=
  ascii "<html>\n<head><title>Request count</title></head>\n<body>\n<h1>Request count</h1>\n" ++
    ascii "<p>There have been " ++ ascii (toString count) ++
    ascii " requests so far.</p>\n</body>\n</html>\n"

/-- What has been written on a connection. -/
def bodies (connect : HttpConnect) : List Text := connect.written.map (·.body)

/-- The connections that have asked for the count show its first values, each of them once. -/
structure Counts (server : Server) : Prop where
  count : server.count = toSizeT (server.connects.filter asked).length
  pages : ((server.connects.filter asked).map bodies).Perm
    ((List.range' 1 (server.connects.filter asked).length).map fun (number : ℕ) => [countPage (toSizeT number)])

variable {json : JsonCpp} {server target : Server} {action : Server.Action} {connect changed : HttpConnect}
  {index : ℕ} {now : ℤ} {request : Request}

/-- Nothing has been done on a connection that waits for its request. -/
def Blank (connect : HttpConnect) : Prop :=
  connect.reading = true → connect.request = none ∧ connect.written = [] ∧ connect.response = .empty

structure Counting (server : Server) : Prop where
  counts : Counts server
  blank : ∀ connect ∈ server.connects, Blank connect

section Set

variable {connects : List HttpConnect}

/-- The other connections beside one of them. -/
theorem perm_of_getElem? (present : connects[index]? = some connect) :
    connects.Perm (connect :: connects.eraseIdx index) ∧
      (connects.set index changed).Perm (changed :: connects.eraseIdx index) := by
  obtain ⟨bound, rfl⟩ := List.getElem?_eq_some_iff.mp present
  exact ⟨(List.getElem_cons_eraseIdx_perm bound).symm, List.set_perm_cons_eraseIdx bound changed⟩

theorem filter_set (present : connects[index]? = some connect) (same : asked changed = asked connect)
    (written : asked connect = true → bodies changed = bodies connect) :
    ((connects.set index changed).filter asked).length = (connects.filter asked).length ∧
      (((connects.set index changed).filter asked).map bodies).Perm ((connects.filter asked).map bodies) := by
  obtain ⟨before, after⟩ := @perm_of_getElem? _ changed _ _ present
  have first := before.filter asked
  have second := after.filter asked
  rw [List.filter_cons] at first second
  rw [same] at second
  cases member : asked connect with
  | false =>
    simp only [member, Bool.false_eq_true, if_false] at first second
    exact ⟨(second.trans first.symm).length_eq, (second.trans first.symm).map bodies⟩
  | true =>
    simp only [member, if_true] at first second
    have later := second.map bodies
    rw [List.map_cons, written member, ← List.map_cons] at later
    exact ⟨second.length_eq.trans first.length_eq.symm, later.trans (first.map bodies).symm⟩

theorem filter_asked (present : connects[index]? = some connect) (unasked : asked connect = false)
    (asks : asked changed = true) :
    ((connects.set index changed).filter asked).Perm (changed :: connects.filter asked) := by
  obtain ⟨before, after⟩ := @perm_of_getElem? _ changed _ _ present
  have first := before.filter asked
  have second := after.filter asked
  rw [List.filter_cons, unasked, if_neg Bool.false_ne_true] at first
  rw [List.filter_cons, asks, if_pos rfl] at second
  exact second.trans (first.symm.cons changed)

end Set

/-- A step that changes one connection neither in whether it has asked nor in what it was then answered. -/
theorem Counting.keeps (counting : Counting server) (present : server.connects[index]? = some connect)
    (same : asked changed = asked connect) (written : asked connect = true → bodies changed = bodies connect)
    (blank : Blank changed) :
    Counting { server with connects := server.connects.set index changed } := by
  obtain ⟨length, pages⟩ := filter_set present same written
  refine ⟨⟨counting.counts.count.trans (by rw [length]), ?_⟩, fun other member => ?_⟩
  · dsimp only
    rw [length]
    exact pages.trans counting.counts.pages
  · rcases List.mem_or_eq_of_mem_set member with earlier | rfl
    · exact counting.blank other earlier
    · exact blank

theorem createResponse_asks (target : request.target = ascii "/count") (count : ℕ) (response : Response) :
    createResponse count now request response =
      ({ response with contentType := some (ascii "text/html") }.append (countPage (requestCount count)),
        requestCount count) := if_pos target

theorem createResponse_other (target : request.target ≠ ascii "/count") (count : ℕ) (response : Response) :
    (createResponse count now request response).2 = count := by
  rw [createResponse, if_neg target]
  split_ifs <;> rfl

/-- What is answered to a request: a page with the next number when it asks for one. -/
theorem respond_cases {sent : Response} {counted count : ℕ}
    (answered : HttpConnect.respond json count now request .empty = .ok (sent, counted)) :
    (Asks request ∧ counted = requestCount count ∧ sent.body = countPage counted) ∨
      (¬ Asks request ∧ counted = count) := by
  cases method : request.method with
  | get =>
    simp only [HttpConnect.respond, method] at answered
    have same := Except.ok.inj answered
    by_cases target : request.target = ascii "/count"
    · rw [createResponse_asks target, Prod.mk.injEq] at same
      obtain ⟨rfl, rfl⟩ := same
      exact .inl ⟨⟨method, target⟩, rfl, List.nil_append _⟩
    · refine .inr ⟨fun asks => target asks.2, ?_⟩
      exact (congrArg Prod.snd same).symm.trans (createResponse_other target _ _)
  | post =>
    simp only [HttpConnect.respond, method] at answered
    obtain ⟨made, -, same⟩ := ok_of_bind answered
    cases same
    exact .inr ⟨fun asks => (by cases method.symm.trans asks.1), rfl⟩
  | other name =>
    simp only [HttpConnect.respond, method] at answered
    cases answered
    exact .inr ⟨fun asks => (by cases method.symm.trans asks.1), rfl⟩

/-- The handler of a read counts a request that asks for the count. -/
theorem Counting.onRead (counting : Counting server) (present : server.connects[index]? = some connect)
    (reading : connect.reading = true) (now : ℤ) (request : Request) :
    Counting (server.onRead json index connect now request) := by
  obtain ⟨unasked, unwritten, empty⟩ := counting.blank connect (List.mem_of_getElem? present) reading
  cases answered : HttpConnect.respond json server.count now request connect.response with
  | error error =>
    rw [onRead_of_error answered]
    exact ⟨⟨counting.counts.count, counting.counts.pages⟩, counting.blank⟩
  | ok result =>
    obtain ⟨sent, counted⟩ := result
    rw [onRead_of_respond answered]
    rw [empty] at answered
    let changed := HttpConnect.writeResponse { connect with reading := false, request := some request } sent
    have none : asked connect = false := by rw [asked, unasked, Option.any_none]
    have blank : ∀ other ∈ server.connects.set index changed, Blank other := by
      intro other member
      rcases List.mem_or_eq_of_mem_set member with earlier | rfl
      · exact counting.blank other earlier
      · exact fun again => by cases again
    obtain ⟨asks, next, page⟩ | ⟨others, same⟩ := respond_cases answered
    · have one : asked changed = true := decide_eq_true asks
      have more := filter_asked present none one
      have length : ((server.connects.set index changed).filter asked).length =
          (server.connects.filter asked).length + 1 := more.length_eq
      have number : counted = toSizeT ((server.connects.filter asked).length + 1 : ℕ) := by
        rw [next, requestCount, counting.counts.count]
        simp only [toSizeT]
        omega
      have written : bodies changed = [countPage counted] := by
        simp only [changed, bodies, HttpConnect.writeResponse, unwritten, List.nil_append, List.map_cons,
          List.map_nil, page]
      refine ⟨⟨number.trans (by rw [← length]), ?_⟩, blank⟩
      change (((server.connects.set index changed).filter asked).map bodies).Perm _
      rw [show (List.filter asked _).length = _ from length, List.range'_1_concat, List.map_append]
      refine (more.map bodies).trans ?_
      rw [List.map_cons, written]
      refine (List.Perm.cons _ counting.counts.pages).trans ?_
      rw [List.map_singleton, Nat.add_comm 1, ← number]
      exact (List.perm_append_singleton _ _).symm
    · have zero : asked changed = false := decide_eq_false others
      rw [same]
      exact counting.keeps present (zero.trans none.symm) (fun one => by cases none.symm.trans one)
        fun again => by cases again

theorem Counting.step (counting : Counting server) (taken : server.step json action = some target) :
    Counting target := by
  have acted := (Server.act_of_step taken).2
  cases action with
  | accepted =>
    cases acted
    have same : (server.connects ++ [HttpConnect.start]).filter asked = server.connects.filter asked := by
      rw [List.filter_append]
      exact List.append_nil _
    refine ⟨⟨counting.counts.count.trans (by rw [same]), ?_⟩, fun connect member => ?_⟩
    · dsimp only
      rw [same]
      exact counting.counts.pages
    · rcases List.mem_append.mp member with earlier | last
      · exact counting.blank connect earlier
      · rw [List.mem_singleton.mp last]
        exact fun _ => ⟨rfl, rfl, rfl⟩
  | acceptFailed =>
    cases acted
    exact counting
  | read index now request =>
    obtain ⟨connect, present, reading, rfl⟩ := Server.step_read taken
    exact counting.onRead present reading now request
  | readFailed index =>
    obtain ⟨connect, present, acted⟩ := Option.bind_eq_some_iff.mp acted
    split_ifs at acted
    cases acted
    exact counting.keeps present rfl (fun _ => rfl) fun again => by cases again
  | written index =>
    obtain ⟨connect, present, acted⟩ := Option.bind_eq_some_iff.mp acted
    split_ifs at acted
    cases acted
    exact counting.keeps present rfl (fun _ => rfl) (counting.blank connect (List.mem_of_getElem? present))
  | expired index =>
    obtain ⟨connect, present, acted⟩ := Option.bind_eq_some_iff.mp acted
    split_ifs at acted
    cases acted
    exact counting.keeps present rfl (fun _ => rfl) (counting.blank connect (List.mem_of_getElem? present))

/-- In every run, the pages for the count show the first numbers, each of them once. -/
theorem counts_always (json : JsonCpp) (tape : List Server.Action) :
    Always (Server.step json) Counts .listening tape := by
  have counting : Counting .listening := ⟨⟨rfl, .nil⟩, fun connect member => by cases member⟩
  exact (always_of_preserved Counting.step counting tape).imp fun _ counting => counting.counts

end BoostLearn.Soundness.BeastHttpServer
