import BoostLearn.Model.AsyncServer.SendPipeline
import BoostLearn.Model.AsyncServer.Session

/-! # Accepting and removing sessions in AsyncServer

`handle_accept` first starts the session and then inserts it, on one thread of the pool, while a
handler of the session may already run on another; the strand keeps the handlers of one session
apart. The next `async_accept` is only started at the end of `handle_accept`. Every session has an
uuid of its own, and a map operation is one step.
-/

namespace BoostLearn.Model.AsyncServer

open Memory HandleRead

/-- A `Session` that has been started: its receiving and its sending members, whether a read is
outstanding, and whether one of its handlers has called `ClearServer`. -/
structure Started (τ : Type) where
  receiving : HandleRead.Session ℤ
  reading : Bool
  sending : SendPipeline τ (List UInt8 × ℤ) SendNode
  cleared : Bool

structure Server (σ τ : Type) where
  /-- The session between the two steps of `handle_accept`. -/
  accepting : Option σ
  /-- The keys of `_sessions`. -/
  sessions : List σ
  started : σ → Option (Started τ)
  /-- The sessions whose `handle_accept` has finished. -/
  accepted : List σ

namespace Server

variable {σ τ : Type}

/-- `start_accept` has been called for the first time. -/
def listening : Server σ τ := ⟨none, [], fun _ => none, []⟩

/-- The node that `Session::Send` pushes. -/
def newSendNode (message : List UInt8 × ℤ) : Option SendNode :=
  (SendNode.new message.1 message.1.length message.2).toOption

/-- What happens to a session that has been started. -/
inductive Event (τ : Type) where
  /-- `handle_read`, with the bytes of the completion or with an error. -/
  | handleRead (completion : Option Completion) (fuel : ℕ)
  /-- A thread inside `Send`, or `handle_write` without an error. -/
  | sending (action : SendPipeline.Action τ (List UInt8 × ℤ))
  /-- `handle_write` with an error. -/
  | writeError (index : ℕ)

inductive Action (σ τ : Type) where
  /-- `handle_accept` up to the end of `new_session->start()`. -/
  | start (uuid : σ) (sendPending : Bool)
  /-- The rest of `handle_accept`. -/
  | insert
  /-- `handle_accept` with an error. -/
  | acceptError
  | session (uuid : σ) (event : Event τ)

/-- Whether a handler of the session has called `ClearServer`, if the session has been started. -/
def removed? (server : Server σ τ) (uuid : σ) : Option Bool :=
  (server.started uuid).map Started.cleared

section Steps

variable [DecidableEq σ]

/-- `_sessions.insert`. -/
def register (sessions : List σ) (uuid : σ) : List σ :=
  if uuid ∈ sessions then sessions else uuid :: sessions

/-- `Server::ClearServer`. -/
def clearServer (sessions : List σ) (uuid : σ) : List σ := sessions.filter (· ≠ uuid)

/-- A session as it is after `start`. -/
def newStarted (sendPending : Bool) : Option (Started τ) :=
  newSession.toOption.map fun receiving => ⟨receiving, true, .opened sendPending, false⟩

def set (started : σ → Option (Started τ)) (uuid : σ) (session : Started τ) :
    σ → Option (Started τ) :=
  fun other => if other = uuid then some session else started other

/-- `handle_accept` up to the insertion. -/
def start (server : Server σ τ) (uuid : σ) (session : Started τ) : Server σ τ :=
  { server with
    accepting := some uuid
    started := set server.started uuid session }

/-- The insertion, and the call of `start_accept`. -/
def insert (server : Server σ τ) (uuid : σ) : Server σ τ :=
  { server with
    accepting := none
    sessions := register server.sessions uuid
    accepted := uuid :: server.accepted }

/-- A handler of a session runs, and removes the session if it calls `ClearServer`. -/
def handle (server : Server σ τ) (uuid : σ) (session : Started τ) (clears : Bool) : Server σ τ :=
  { server with
    started := set server.started uuid { session with cleared := session.cleared || clears }
    sessions := if clears then clearServer server.sessions uuid else server.sessions }

/-- What a handler leaves behind, and whether it calls `ClearServer`. -/
def Event.apply [DecidableEq τ] (session : Started τ) : Event τ → Option (Started τ × Bool)
  | .handleRead completion fuel =>
    if session.reading then
      match codec.handleRead fuel session.receiving (completion.map (·.bytes)) with
      | some (.ok done) =>
        some ({ session with receiving := done.session, reading := done.reading }, done.cleared)
      | _ => none
    else none
  | .sending action =>
    (session.sending.step newSendNode action).map fun sending => ({ session with sending }, false)
  | .writeError index =>
    session.sending.inflight[index]?.map fun _ =>
      ({ session with
        sending := { session.sending with inflight := session.sending.inflight.eraseIdx index } }, true)

def step [DecidableEq τ] (server : Server σ τ) : Action σ τ → Option (Server σ τ)
  | .start uuid sendPending =>
    match server.accepting, server.started uuid with
    | none, none =>
      (newStarted sendPending).map fun session => server.start uuid session
    | _, _ => none
  | .insert => server.accepting.map fun uuid => server.insert uuid
  | .acceptError =>
    match server.accepting with
    | none => some server
    | some _ => none
  | .session uuid event =>
    (server.started uuid).bind fun session =>
      (event.apply session).map fun (session, clears) => server.handle uuid session clears

theorem mem_register {sessions : List σ} {uuid other : σ} :
    other ∈ register sessions uuid ↔ other = uuid ∨ other ∈ sessions := by
  rw [register]
  split_ifs with present
  · constructor
    · exact Or.inr
    · rintro (rfl | member)
      · exact present
      · exact member
  · exact List.mem_cons

theorem mem_clearServer {sessions : List σ} {uuid other : σ} :
    other ∈ clearServer sessions uuid ↔ other ∈ sessions ∧ other ≠ uuid := by
  rw [clearServer, List.mem_filter, decide_eq_true_iff]

theorem removed?_start (server : Server σ τ) (uuid other : σ) {sendPending : Bool}
    {session : Started τ} (created : newStarted sendPending = some session) :
    (server.start uuid session).removed? other =
      if other = uuid then some false else server.removed? other := by
  obtain ⟨receiving, -, rfl⟩ := Option.map_eq_some_iff.mp created
  simp only [removed?, start, set]
  split_ifs
  · rfl
  · rfl

theorem removed?_handle (server : Server σ τ) (uuid other : σ) (session : Started τ) (clears : Bool) :
    (server.handle uuid session clears).removed? other =
      if other = uuid then some (session.cleared || clears) else server.removed? other := by
  simp only [removed?, handle, set]
  split_ifs
  · rfl
  · rfl

variable [DecidableEq τ]

/-- Only the map records a removal. -/
theorem Event.apply_cleared {session next : Started τ} {event : Event τ} {clears : Bool}
    (applied : event.apply session = some (next, clears)) : next.cleared = session.cleared := by
  cases event with
  | handleRead completion fuel =>
    simp only [Event.apply] at applied
    split_ifs at applied
    split at applied
    · cases applied
      rfl
    · contradiction
  | sending action =>
    obtain ⟨sending, -, same⟩ := Option.map_eq_some_iff.mp applied
    cases same
    rfl
  | writeError index =>
    obtain ⟨node, -, same⟩ := Option.map_eq_some_iff.mp applied
    cases same
    rfl

end Steps

end Server

end BoostLearn.Model.AsyncServer
