import BoostLearn.Core.Fifo
import BoostLearn.Model.SendQueue

/-! # A send queue under a single sender keeps its order

Everything that has been queued is written or still in the queue, and what is written next is its front. A
write that fails leaves its node in the queue, and no other write is started behind it.
-/

namespace BoostLearn.Soundness.Queueing

open Model

variable {μ ν : Type}

/-- A write has failed, and the queue waits for ever. -/
def Failed (queue : SendQueue ν) : Prop := queue.inflight = [] ∧ queue.sendQueue ≠ []

/-- The queue against everything that has been queued, and what of it has been written. -/
structure Orderly (queue : SendQueue ν) (queued written : List ν) : Prop where
  split : queued = written ++ queue.sendQueue
  front : queue.inflight = queue.sendQueue.take 1 ∨ Failed queue

variable {queue : SendQueue ν} {queued written : List ν} {maxSendque : ℕ} {message : μ} {node : ν}

theorem orderly_opened (sendPending : Bool) : Orderly (.opened sendPending : SendQueue ν) [] [] :=
  ⟨rfl, .inl rfl⟩

/-- At most the front of the queue is being written. -/
theorem Orderly.single (orderly : Orderly queue queued written) : queue.inflight.length ≤ 1 := by
  obtain front | ⟨idle, -⟩ := orderly.front
  · rw [front]
    exact List.length_take_le ..
  · rw [idle]
    exact Nat.zero_le 1

/-- What has been written or is being written is a front of what has been queued. -/
theorem Orderly.written_prefix (orderly : Orderly queue queued written) :
    written ++ queue.inflight <+: queued := by
  rw [orderly.split, List.prefix_append_right_inj]
  obtain front | ⟨idle, -⟩ := orderly.front
  · rw [front]
    exact List.take_prefix ..
  · rw [idle]
    exact List.nil_prefix

/-- Without a failure, nothing waits while nothing is written. -/
theorem Orderly.all_written (orderly : Orderly queue queued written) (working : ¬ Failed queue)
    (idle : queue.inflight = []) : written = queued := by
  have empty : queue.sendQueue = [] := by
    by_contra waiting
    exact working ⟨idle, waiting⟩
  rw [orderly.split, empty, List.append_nil]

/-- A message that is refused, or that has no node, leaves the queue as it is. -/
theorem Orderly.refused (orderly : Orderly queue queued written) (fulled : queue.Fulled maxSendque)
    (newSendNode : μ → Option ν) :
    Orderly (queue.send maxSendque newSendNode message) queued written := by
  rw [SendQueue.send_of_fulled fulled]
  exact ⟨orderly.split, orderly.front⟩

/-- A node is written at once when it is alone. -/
theorem send_of_node (room : ¬ queue.Fulled maxSendque) {newSendNode : μ → Option ν}
    (built : newSendNode message = some node) :
    (queue.send maxSendque newSendNode message).sendQueue = queue.sendQueue ++ [node] ∧
      (queue.send maxSendque newSendNode message).inflight =
        if queue.sendQueue = [] then queue.inflight ++ [node] else queue.inflight := by
  rw [SendQueue.send_of_room room, built]
  refine ⟨SendQueue.push_sendQueue .., ?_⟩
  cases waiting : queue.sendQueue with
  | nil =>
    simp only [SendQueue.push, List.length_nil, gt_iff_lt, Nat.lt_irrefl, if_false, Bool.false_eq_true,
      SendQueue.asyncWrite, List.nil_append, if_true]
    rfl
  | cons first rest =>
    simp only [SendQueue.push, List.length_cons, gt_iff_lt, Nat.zero_lt_succ, if_true,
      reduceCtorEq, if_false]

theorem Orderly.sends (orderly : Orderly queue queued written) (room : ¬ queue.Fulled maxSendque)
    {newSendNode : μ → Option ν} (built : newSendNode message = some node) :
    Orderly (queue.send maxSendque newSendNode message) (queued ++ [node]) written := by
  obtain ⟨waiting, inflight⟩ := send_of_node room built
  refine ⟨by rw [waiting, orderly.split, List.append_assoc], ?_⟩
  rw [Failed, waiting, inflight]
  split_ifs with empty
  · obtain front | ⟨-, some⟩ := orderly.front
    · exact .inl (by rw [front, empty]; rfl)
    · exact absurd empty some
  · obtain front | ⟨idle, -⟩ := orderly.front
    · refine .inl (front.trans ?_)
      obtain ⟨first, rest, cons⟩ := List.exists_cons_of_ne_nil empty
      rw [cons]
      rfl
    · exact .inr ⟨idle, List.append_ne_nil_of_right_ne_nil _ (List.cons_ne_nil _ _)⟩

/-- A queue that waits for ever goes on to, and another one does not begin to. -/
theorem failed_sends (room : ¬ queue.Fulled maxSendque) {newSendNode : μ → Option ν}
    (built : newSendNode message = some node) :
    Failed (queue.send maxSendque newSendNode message) ↔ Failed queue := by
  obtain ⟨waiting, inflight⟩ := send_of_node room built
  rw [Failed, Failed, waiting, inflight]
  split_ifs with empty
  · exact ⟨fun failed => absurd failed.1 (List.append_ne_nil_of_right_ne_nil _ (List.cons_ne_nil _ _)),
      fun failed => absurd empty failed.2⟩
  · exact ⟨fun failed => ⟨failed.1, empty⟩,
      fun failed => ⟨failed.1, List.append_ne_nil_of_right_ne_nil _ (List.cons_ne_nil _ _)⟩⟩

/-- The outstanding write is that of the front. -/
theorem Orderly.outstanding (orderly : Orderly queue queued written) {index : ℕ}
    (present : queue.inflight[index]? = some node) :
    queue.inflight.eraseIdx index = [] ∧ ∃ rest, queue.sendQueue = node :: rest := by
  obtain ⟨rfl, only⟩ := Fifo.eq_singleton_of_getElem? orderly.single present
  refine ⟨by rw [only]; rfl, ?_⟩
  obtain front | ⟨idle, -⟩ := orderly.front
  · rw [only] at front
    cases waiting : queue.sendQueue with
    | nil =>
      rw [waiting] at front
      cases front
    | cons first rest =>
      rw [waiting] at front
      cases front
      exact ⟨rest, rfl⟩
  · rw [only] at idle
    cases idle

theorem Orderly.completes (orderly : Orderly queue queued written) {index : ℕ}
    (present : queue.inflight[index]? = some node) :
    Orderly (SendQueue.handleWrite { queue with inflight := queue.inflight.eraseIdx index }) queued
        (written ++ [node]) ∧
      ¬ Failed (SendQueue.handleWrite { queue with inflight := queue.inflight.eraseIdx index }) := by
  obtain ⟨none, rest, waiting⟩ := orderly.outstanding present
  have split : queued = (written ++ [node]) ++ rest := by
    rw [orderly.split, waiting, List.append_assoc]
    rfl
  rw [none, SendQueue.handleWrite]
  dsimp only
  rw [waiting, List.tail_cons]
  cases rest with
  | nil => exact ⟨⟨split, .inl rfl⟩, fun failed => failed.2 rfl⟩
  | cons next more => exact ⟨⟨split, .inl rfl⟩, fun failed => by cases failed.1⟩

theorem Orderly.fails (orderly : Orderly queue queued written) {index : ℕ}
    (present : queue.inflight[index]? = some node) :
    Orderly { queue with inflight := queue.inflight.eraseIdx index } queued written ∧
      Failed { queue with inflight := queue.inflight.eraseIdx index } := by
  obtain ⟨none, rest, waiting⟩ := orderly.outstanding present
  have failed : Failed { queue with inflight := queue.inflight.eraseIdx index } :=
    ⟨none, by rw [waiting]; exact List.cons_ne_nil _ _⟩
  exact ⟨⟨orderly.split, .inr failed⟩, failed⟩

end BoostLearn.Soundness.Queueing
