import BoostLearn.Model.AsyncServer.SendPipeline
import BoostLearn.Model.CoroutineService.SendPipeline

/-! # The send queues under a single sender

The `Session::Send` of AsyncServer and of AsyncServer_useProtobuf test, push and start in the same
way, each against the constant of its own project. A single sender is never interrupted between the
reset of the flag and the write, so its call is one step; a write completes in another.
-/

namespace BoostLearn.Model

open CInt

/-- The queue and the flag of a session, and its outstanding writes. -/
structure SendQueue (ν : Type) where
  sendQueue : List ν
  sendPending : Bool
  inflight : List ν
deriving DecidableEq, Repr

namespace SendQueue

variable {μ ν : Type}

/-- The constructor leaves `_send_pending` with any value. -/
def opened (sendPending : Bool) : SendQueue ν := ⟨[], sendPending, []⟩

/-- The test that refuses a message. -/
def Fulled (maxSendque : ℕ) (queue : SendQueue ν) : Prop :=
  let sendQueSize := toInt queue.sendQueue.length
  sendQueSize > maxSendque

instance (maxSendque : ℕ) (queue : SendQueue ν) : Decidable (queue.Fulled maxSendque) :=
  inferInstanceAs (Decidable (toInt queue.sendQueue.length > maxSendque))

/-- `asio::async_write` on the front of the queue. -/
def asyncWrite (queue : SendQueue ν) : SendQueue ν :=
  { queue with inflight := queue.inflight ++ queue.sendQueue.take 1 }

/-- The push and what follows it. -/
def push (queue : SendQueue ν) (node : ν) : SendQueue ν :=
  let queue := { queue with sendQueue := queue.sendQueue ++ [node] }
  if queue.sendPending then queue else queue.asyncWrite

/-- `Session::Send`; a node that cannot be built leaves the queue as it is. -/
def send (maxSendque : ℕ) (newSendNode : μ → Option ν) (queue : SendQueue ν) (message : μ) :
    SendQueue ν :=
  let queue := { queue with sendPending := false }
  if queue.Fulled maxSendque then queue
  else
    let queue := { queue with
      sendPending := if queue.sendQueue.length > 0 then true else queue.sendPending }
    match newSendNode message with
    | none => queue
    | some node => queue.push node

/-- `Session::handle_write` without an error. -/
def handleWrite (queue : SendQueue ν) : SendQueue ν :=
  let queue := { queue with sendQueue := queue.sendQueue.tail }
  if queue.sendQueue.length > 0 then queue.asyncWrite else queue

inductive Action (μ : Type) where
  | send (message : μ)
  /-- A write completes; on an error `handle_write` only removes the session. -/
  | written (index : ℕ) (success : Bool)

def step (send : SendQueue ν → μ → SendQueue ν) (queue : SendQueue ν) :
    Action μ → Option (SendQueue ν)
  | .send message => some (send queue message)
  | .written index success =>
    queue.inflight[index]?.map fun _ =>
      let queue := { queue with inflight := queue.inflight.eraseIdx index }
      if success then queue.handleWrite else queue

section Send

variable {maxSendque : ℕ} {newSendNode : μ → Option ν} {queue : SendQueue ν} {message : μ} {node : ν}

/-- A refused message leaves the queue as it is. -/
theorem send_of_fulled (fulled : queue.Fulled maxSendque) :
    queue.send maxSendque newSendNode message = { queue with sendPending := false } := by
  have refused : Fulled maxSendque { queue with sendPending := false } := fulled
  rw [send]
  dsimp only
  rw [if_pos refused]

theorem send_of_room (room : ¬ queue.Fulled maxSendque) :
    queue.send maxSendque newSendNode message =
      match newSendNode message with
      | none => { queue with sendPending := if queue.sendQueue.length > 0 then true else false }
      | some node =>
        push { queue with sendPending := if queue.sendQueue.length > 0 then true else false } node := by
  have taken : ¬ Fulled maxSendque { queue with sendPending := false } := room
  rw [send]
  dsimp only
  rw [if_neg taken]

theorem send_of_unbuilt (unbuilt : newSendNode message = none) :
    (queue.send maxSendque newSendNode message).sendQueue = queue.sendQueue := by
  by_cases fulled : queue.Fulled maxSendque
  · rw [send_of_fulled fulled]
  · rw [send_of_room fulled, unbuilt]

theorem push_sendQueue (queue : SendQueue ν) (node : ν) :
    (queue.push node).sendQueue = queue.sendQueue ++ [node] := by
  rw [push]
  split_ifs
  · rfl
  · rfl

theorem send_of_built (room : ¬ queue.Fulled maxSendque) (built : newSendNode message = some node) :
    (queue.send maxSendque newSendNode message).sendQueue = queue.sendQueue ++ [node] := by
  rw [send_of_room room, built]
  exact push_sendQueue ..

/-- A completed write shortens the queue, and a failed one leaves it as it is. -/
theorem handleWrite_sendQueue (queue : SendQueue ν) :
    queue.handleWrite.sendQueue = queue.sendQueue.tail := by
  rw [handleWrite]
  split_ifs
  · rfl
  · rfl

end Send

end SendQueue

namespace AsyncServer

/-- `Session::Send` against the `MAX_SENDQUE` of AsyncServer. -/
def sessionSend {μ ν : Type} (newSendNode : μ → Option ν) : SendQueue ν → μ → SendQueue ν :=
  SendQueue.send maxSendque newSendNode

end AsyncServer

namespace AsyncServerUseProtobuf

def maxSendque : ℕ := 1000

/-- `Session::Send` against the `MAX_SENDQUE` of AsyncServer_useProtobuf. -/
def sessionSend {μ ν : Type} (newSendNode : μ → Option ν) : SendQueue ν → μ → SendQueue ν :=
  SendQueue.send maxSendque newSendNode

end AsyncServerUseProtobuf

namespace CoroutineService

/-- Defined beside the other limits, and used by no code. -/
def maxSendque : ℕ := 1024

end CoroutineService

end BoostLearn.Model
