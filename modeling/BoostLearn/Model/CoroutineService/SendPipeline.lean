import BoostLearn.Core.Replay
import BoostLearn.Model.MsgNode

/-! # Sending in CoroutineService

`CSession::Send` tests the size, pushes and takes the front under the lock, and starts its write
after unlocking, so another thread may act in between. `HandleWrite` pops and starts the next
write under the lock; on an error it leaves the queue alone. The threads, the messages and the
construction of a node, which may throw, are arbitrary.
-/

namespace BoostLearn.Model.CoroutineService

/-- The send queue, the senders that have unlocked and not yet started their write, the
outstanding writes, and the history. `failed` records what had been started at the first error. -/
structure SendPipeline (τ ν : Type) where
  sendQue : List ν
  deciding : List (τ × ν)
  inflight : List ν
  enqueued : List ν
  started : List ν
  completed : List ν
  failed : Option (List ν)

namespace SendPipeline

variable {τ μ ν : Type}

def opened : SendPipeline τ ν := ⟨[], [], [], [], [], [], none⟩

/-- The locked section of `CSession::Send`. -/
def send (newSendNode : μ → Option ν) (pipeline : SendPipeline τ ν) (thread : τ) (message : μ) :
    SendPipeline τ ν :=
  let sendQueSize := pipeline.sendQue.length
  if sendQueSize > maxLength then pipeline
  else
    match newSendNode message with
    | none => pipeline
    | some node =>
      let pipeline := { pipeline with
        sendQue := pipeline.sendQue ++ [node]
        enqueued := pipeline.enqueued ++ [node] }
      if sendQueSize > 0 then pipeline
      else
        { pipeline with
          deciding := pipeline.deciding ++ (pipeline.sendQue.take 1).map (thread, ·) }

/-- `asio::async_write` on a node. -/
def asyncWrite (pipeline : SendPipeline τ ν) (node : ν) : SendPipeline τ ν :=
  { pipeline with
    inflight := pipeline.inflight ++ [node]
    started := pipeline.started ++ [node] }

/-- `CSession::HandleWrite` without an error. -/
def handleWrite (pipeline : SendPipeline τ ν) : SendPipeline τ ν :=
  let pipeline := { pipeline with sendQue := pipeline.sendQue.tail }
  match pipeline.sendQue with
  | [] => pipeline
  | msgnode :: _ => pipeline.asyncWrite msgnode

/-- `CSession::HandleWrite` with an error: the session is closed and removed. -/
def handleError (pipeline : SendPipeline τ ν) : SendPipeline τ ν :=
  { pipeline with failed := some (pipeline.failed.getD pipeline.started) }

/-- A thread enters `Send`, a thread that has unlocked starts its write, or a write completes. -/
inductive Action (τ μ : Type) where
  | send (thread : τ) (message : μ)
  | start (index : ℕ)
  | written (index : ℕ) (success : Bool)

section Send

variable {newSendNode : μ → Option ν} {pipeline : SendPipeline τ ν} {thread : τ} {message : μ}
  {node : ν}

/-- A refused message changes nothing. -/
theorem send_full (full : maxLength < pipeline.sendQue.length) :
    pipeline.send newSendNode thread message = pipeline := by
  rw [send]
  exact if_pos full

/-- Neither does a message no node can be built for. -/
theorem send_unbuilt (unbuilt : newSendNode message = none) :
    pipeline.send newSendNode thread message = pipeline := by
  simp only [send, unbuilt, ite_self]

theorem send_waiting (room : pipeline.sendQue.length ≤ maxLength)
    (built : newSendNode message = some node) (waiting : pipeline.sendQue ≠ []) :
    pipeline.send newSendNode thread message =
      { pipeline with
        sendQue := pipeline.sendQue ++ [node]
        enqueued := pipeline.enqueued ++ [node] } := by
  simp only [send, built]
  rw [if_neg (Nat.not_lt.mpr room), if_pos (List.length_pos_of_ne_nil waiting)]

theorem send_first (built : newSendNode message = some node) (empty : pipeline.sendQue = []) :
    pipeline.send newSendNode thread message =
      { pipeline with
        sendQue := [node]
        enqueued := pipeline.enqueued ++ [node]
        deciding := pipeline.deciding ++ [(thread, node)] } := by
  simp only [send, built, empty, List.length_nil]
  rw [if_neg (Nat.not_lt.mpr (Nat.zero_le _)), if_neg (Nat.lt_irrefl 0)]
  rfl

end Send

theorem handleWrite_last {pipeline : SendPipeline τ ν} {node : ν} (last : pipeline.sendQue = [node]) :
    pipeline.handleWrite = { pipeline with sendQue := [] } := by
  simp only [handleWrite, last, List.tail_cons]

theorem handleWrite_next {pipeline : SendPipeline τ ν} {node next : ν} {rest : List ν}
    (queued : pipeline.sendQue = node :: next :: rest) :
    pipeline.handleWrite =
      { pipeline with
        sendQue := next :: rest
        inflight := pipeline.inflight ++ [next]
        started := pipeline.started ++ [next] } := by
  simp only [handleWrite, queued, List.tail_cons, asyncWrite]

variable [DecidableEq τ]

def step (newSendNode : μ → Option ν) (pipeline : SendPipeline τ ν) :
    Action τ μ → Option (SendPipeline τ ν)
  | .send thread message =>
    if thread ∈ pipeline.deciding.map Prod.fst then none
    else some (pipeline.send newSendNode thread message)
  | .start index =>
    pipeline.deciding[index]?.map fun (_, msgnode) =>
      asyncWrite { pipeline with deciding := pipeline.deciding.eraseIdx index } msgnode
  | .written index success =>
    pipeline.inflight[index]?.map fun node =>
      let pipeline := { pipeline with inflight := pipeline.inflight.eraseIdx index }
      if success then handleWrite { pipeline with completed := pipeline.completed ++ [node] }
      else pipeline.handleError

end SendPipeline

end BoostLearn.Model.CoroutineService
