import BoostLearn.Model.BeastHttpServer.HttpConnect

/-! # The program beast_http_server

One thread runs the handlers of all connections. Accepting goes on after every connection, also
after one that could not be accepted. A handler that throws leaves `io_context::run`, whose caller
prints the exception and ends the program.
-/

namespace BoostLearn.Model.BeastHttpServer

open CInt Json

/-- The connections in the order they were accepted, the count of the program, and what has left
`io_context::run`. -/
structure Server where
  connects : List HttpConnect
  count : ℕ
  escaped : Option LogicError

namespace Server

def listening : Server := ⟨[], 0, none⟩

inductive Action where
  | accepted
  | acceptFailed
  /-- The read of a connection completes with a request, at this time. -/
  | read (index : ℕ) (now : ℤ) (request : Request)
  | readFailed (index : ℕ)
  /-- The write of a connection completes, with or without an error. -/
  | written (index : ℕ)
  | expired (index : ℕ)

/-- The handler of `async_read`, behind `process_request`. -/
def handled (server : Server) (index : ℕ) : Except LogicError (HttpConnect × ℕ) → Server
  | .error error => { server with escaped := some error }
  | .ok (connect, count) => { server with connects := server.connects.set index connect, count }

/-- The handler of `async_read` on a connection whose read was outstanding. -/
def onRead (json : JsonCpp) (server : Server) (index : ℕ) (connect : HttpConnect) (now : ℤ)
    (request : Request) : Server :=
  let connect := { connect with reading := false, request := some request }
  server.handled index (connect.processRequest json server.count now request)

def act (json : JsonCpp) (server : Server) : Action → Option Server
  | .accepted => some { server with connects := server.connects ++ [.start] }
  | .acceptFailed => some server
  | .read index now request =>
    server.connects[index]?.bind fun connect =>
      if connect.reading then some (server.onRead json index connect now request) else none
  | .readFailed index =>
    server.connects[index]?.bind fun connect =>
      if connect.reading then
        some { server with connects := server.connects.set index { connect with reading := false } }
      else none
  | .written index =>
    server.connects[index]?.bind fun connect =>
      if connect.writing then
        some { server with
          connects := server.connects.set index { connect with writing := false, deadline := false } }
      else none
  | .expired index =>
    server.connects[index]?.bind fun connect =>
      if connect.deadline then
        some { server with
          connects := server.connects.set index { connect with deadline := false, isOpen := false } }
      else none

/-- Nothing goes on when an exception has left `io_context::run`. -/
def step (json : JsonCpp) (server : Server) (action : Action) : Option Server :=
  match server.escaped with
  | some _ => none
  | none => server.act json action

variable {json : JsonCpp} {server target : Server} {action : Action}

theorem act_of_step (taken : server.step json action = some target) :
    server.escaped = none ∧ server.act json action = some target := by
  rw [step] at taken
  split at taken
  · cases taken
  · exact ⟨by assumption, taken⟩

theorem step_read {index : ℕ} {now : ℤ} {request : Request}
    (taken : server.step json (.read index now request) = some target) :
    ∃ connect, server.connects[index]? = some connect ∧ connect.reading = true ∧
      target = server.onRead json index connect now request := by
  obtain ⟨connect, present, taken⟩ := Option.bind_eq_some_iff.mp (act_of_step taken).2
  split_ifs at taken with reading
  exact ⟨connect, present, reading, (Option.some.inj taken).symm⟩

/-- What a step can be: a request is processed, or a connection without a request or with one keeps
what it has written. -/
theorem step_cases (taken : server.step json action = some target) :
    server.escaped = none ∧
    (target = { server with connects := server.connects ++ [.start] } ∨ target = server ∨
      (∃ index now request connect, action = .read index now request ∧
        server.connects[index]? = some connect ∧ connect.reading = true ∧
        target = server.onRead json index connect now request) ∨
      ∃ index connect changed, server.connects[index]? = some connect ∧
        changed.request = connect.request ∧ changed.written = connect.written ∧
        (changed.reading = true → connect.reading = true) ∧
        target = { server with connects := server.connects.set index changed }) := by
  refine ⟨(act_of_step taken).1, ?_⟩
  cases action with
  | accepted => exact .inl (Option.some.inj (act_of_step taken).2).symm
  | acceptFailed => exact .inr (.inl (Option.some.inj (act_of_step taken).2).symm)
  | read index now request =>
    obtain ⟨connect, present, reading, same⟩ := step_read taken
    exact .inr (.inr (.inl ⟨index, now, request, connect, rfl, present, reading, same⟩))
  | readFailed index =>
    obtain ⟨connect, present, taken⟩ := Option.bind_eq_some_iff.mp (act_of_step taken).2
    split_ifs at taken with reading
    exact .inr (.inr (.inr ⟨index, connect, { connect with reading := false }, present, rfl, rfl,
      fun _ => reading, (Option.some.inj taken).symm⟩))
  | written index =>
    obtain ⟨connect, present, taken⟩ := Option.bind_eq_some_iff.mp (act_of_step taken).2
    split_ifs at taken with writing
    exact .inr (.inr (.inr ⟨index, connect, { connect with writing := false, deadline := false },
      present, rfl, rfl, id, (Option.some.inj taken).symm⟩))
  | expired index =>
    obtain ⟨connect, present, taken⟩ := Option.bind_eq_some_iff.mp (act_of_step taken).2
    split_ifs at taken with armed
    exact .inr (.inr (.inr ⟨index, connect, { connect with deadline := false, isOpen := false },
      present, rfl, rfl, id, (Option.some.inj taken).symm⟩))

end Server

end BoostLearn.Model.BeastHttpServer
