import BoostLearn.Core.Replay
import BoostLearn.Model.AsyncServerUseProtobuf.MsgData
import BoostLearn.Model.SendQueue

/-! # AsyncServer_useProtobuf as a whole

`main` runs the handlers of all sessions on one thread. `handle_read` sends the replies of a read itself,
one after the other, before it starts the next read. An exception that a handler does not catch ends the
program, and so does a handler that does not return, since no other one runs behind it. Every session has an
uuid of its own.
-/

namespace BoostLearn.Model.AsyncServerUseProtobuf

open CInt Memory HandleRead

/-- A session behind `Session::start`; with the bytes that its reads have brought, the nodes that it has
queued, and those whose writes have completed. -/
structure Started where
  receiving : Session Unit
  reading : Bool
  sending : SendQueue MsgNode
  delivered : List UInt8
  queued : List MsgNode
  written : List MsgNode

namespace Started

/-- The constructor leaves `_send_pending` with any value. -/
def opened (sendPending : Bool) (receiving : Session Unit) : Started :=
  ⟨receiving, true, .opened sendPending, [], [], []⟩

/-- `Session::Send`, which builds a node unless the queue is full. -/
def send (started : Started) (msg : List UInt8) : Except Fault Started :=
  if started.sending.Fulled maxSendque then
    .ok { started with sending := sessionSend (fun _ => none) started.sending msg }
  else
    (newSendNode msg (toShort msg.length)).map fun node =>
      { started with
        sending := sessionSend (fun _ => some node) started.sending msg
        queued := started.queued ++ [node] }

/-- The calls of `Send` that a handler has made. -/
def sendAll (started : Started) : List (List UInt8) → Except Fault Started
  | [] => .ok started
  | out :: rest => do (← started.send out).sendAll rest

/-- `Session::handle_write` without an error. -/
def handleWrite (started : Started) (index : ℕ) (node : MsgNode) : Started :=
  { started with
    sending := SendQueue.handleWrite { started.sending with inflight := started.sending.inflight.eraseIdx index }
    written := started.written ++ [node] }

/-- `Session::handle_write` with an error leaves the queue as it is. -/
def handleError (started : Started) (index : ℕ) : Started :=
  { started with sending := { started.sending with inflight := started.sending.inflight.eraseIdx index } }

end Started

/-- The keys of `_sessions`, the sessions that have been started, and whether the program has come to its
end, or to a handler that is still running. -/
structure Server (σ : Type) where
  sessions : List σ
  started : σ → Option Started
  ended : Bool

namespace Server

variable {σ : Type}

/-- `main`, in `ioc.run()`. -/
def main : Server σ := ⟨[], fun _ => none, false⟩

inductive Action (σ : Type) where
  | accept (uuid : σ) (sendPending : Bool)
  | acceptError
  /-- `handle_read`, with the bytes of a completion or with an error, and how many iterations behind the
  first one it has made. -/
  | read (uuid : σ) (completion : Option Completion) (more : ℕ)
  | written (uuid : σ) (index : ℕ) (success : Bool)

variable [DecidableEq σ]

/-- `_sessions.insert`. -/
def register (sessions : List σ) (uuid : σ) : List σ := if uuid ∈ sessions then sessions else uuid :: sessions

/-- `Server::ClearServer`. -/
def clearServer (sessions : List σ) (uuid : σ) : List σ := sessions.filter (· ≠ uuid)

/-- A handler has returned, and has removed its session or not. -/
def handled (server : Server σ) (uuid : σ) (next : Started) (clears : Bool) : Server σ :=
  { server with
    started := Function.update server.started uuid (some next)
    sessions := if clears then clearServer server.sessions uuid else server.sessions }

@[simp] theorem handled_self (server : Server σ) (uuid : σ) (next : Started) (clears : Bool) :
    (server.handled uuid next clears).started uuid = some next := Function.update_self ..

theorem handled_other (server : Server σ) {uuid other : σ} (next : Started) (clears : Bool) (differs : other ≠ uuid) :
    (server.handled uuid next clears).started other = server.started other := Function.update_of_ne differs ..

theorem mem_handled {server : Server σ} {uuid other : σ} {next : Started} {clears : Bool} :
    other ∈ (server.handled uuid next clears).sessions ↔
      other ∈ server.sessions ∧ (clears = true → other ≠ uuid) := by
  rw [handled]
  cases clears with
  | false => simp
  | true => simp [clearServer]

theorem mem_register {sessions : List σ} {uuid other : σ} :
    other ∈ register sessions uuid ↔ other = uuid ∨ other ∈ sessions := by
  rw [register]
  split_ifs with member
  · exact ⟨.inr, fun either => either.elim (fun same => same ▸ member) id⟩
  · exact List.mem_cons

/-- `Session::handle_read`, and the program behind it. -/
def handleRead (protobuf : Protobuf) (server : Server σ) (uuid : σ) (started : Started)
    (completion : Option (List UInt8)) (more : ℕ) : Server σ :=
  match (codec protobuf).handleRead (more + 1) started.receiving completion with
  | some (.ok done) =>
    match started.sendAll (done.effects.filterMap Effect.out?) with
    | .ok next =>
      server.handled uuid
        { next with
          receiving := done.session
          reading := done.reading
          delivered := next.delivered ++ completion.getD [] }
        done.cleared
    | .error _ => { server with ended := true }
  | _ => { server with ended := true }

def act (protobuf : Protobuf) (server : Server σ) : Action σ → Option (Server σ)
  | .accept uuid sendPending =>
    match server.started uuid, startedSession with
    | none, .ok receiving =>
      some { server with
        sessions := register server.sessions uuid
        started := Function.update server.started uuid (some (.opened sendPending receiving)) }
    | _, _ => none
  | .acceptError => some server
  | .read uuid completion more =>
    (server.started uuid).bind fun started =>
      if started.reading then
        some (server.handleRead protobuf uuid started (completion.map (·.bytes)) more)
      else none
  | .written uuid index success =>
    (server.started uuid).bind fun started =>
      started.sending.inflight[index]?.map fun node =>
        if success then server.handled uuid (started.handleWrite index node) false
        else server.handled uuid (started.handleError index) true

def step (protobuf : Protobuf) (server : Server σ) (action : Action σ) : Option (Server σ) :=
  if server.ended then none else server.act protobuf action

end Server

end BoostLearn.Model.AsyncServerUseProtobuf
