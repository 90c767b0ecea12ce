import BoostLearn.Core.Fifo
import BoostLearn.Model.AsyncServer.SendPipeline

/-! # AsyncServer writes its queue one node at a time, unless a reset lands in between

The flag that a sender tests after its push is meant to say what its own test of the size found.
While it does, the sender that found the queue empty starts the only write. A reset by another
thread in between lets a sender start a write although its node is not alone; a flag that survives
from before leaves a node that nobody writes.
-/

namespace BoostLearn.Soundness.AsyncServer

open Replay Model Model.AsyncServer

variable {τ μ ν : Type}

/-- At most one write, of the front of the queue; outside a locked section it exists exactly when
something is queued; what is enqueued has completed or is queued, in order. -/
structure Sends (pipeline : SendPipeline τ μ ν) : Prop where
  single : pipeline.inflight.length ≤ 1
  front : ∀ node ∈ pipeline.inflight, pipeline.sendQueue.head? = some node
  busy : pipeline.sendLock = none → (pipeline.inflight ≠ [] ↔ pipeline.sendQueue ≠ [])
  popped : pipeline.inflight ≠ [] → pipeline.sendQueue ≠ []
  ordered : pipeline.enqueued = pipeline.completed ++ pipeline.sendQueue

/-- A sender that finds the flag set has another node in front of its own, and one that found it
clear has none when it starts its write. -/
def Unraced (newSendNode : μ → Option ν) (pipeline : SendPipeline τ μ ν) :
    SendPipeline.Action τ μ → Prop
  | .push => ∀ thread message, pipeline.sendLock = some (thread, .tested message) →
      newSendNode message ≠ none → pipeline.sendPending = true → pipeline.sendQueue ≠ []
  | .start => pipeline.sendQueue.length = 1
  | _ => True

/-- Some sender is about to start a write. -/
def Starting (pipeline : SendPipeline τ μ ν) : Prop :=
  ∃ thread, pipeline.sendLock = some (thread, .pushed)

/-- The pipeline is a queue of nodes whose first one is being written. While a sender is about to
start a write, either its node is alone and not yet written, or the write will be the second. -/
structure Represents (fifo : Fifo ν) (pipeline : SendPipeline τ μ ν) : Prop where
  enqueued : pipeline.enqueued = fifo.submitted
  completed : pipeline.completed = fifo.done
  sendQueue : pipeline.sendQueue = fifo.pending
  serving : ¬ Starting pipeline → pipeline.inflight = fifo.current
  starting : Starting pipeline → pipeline.inflight = [] ∧ fifo.pending.length = 1 ∨
    pipeline.inflight = fifo.current ∧ 1 < fifo.pending.length

variable {fifo : Fifo ν} {pipeline : SendPipeline τ μ ν}

theorem represents_opened (sendPending : Bool) :
    Represents .empty (SendPipeline.opened sendPending : SendPipeline τ μ ν) :=
  ⟨rfl, rfl, rfl, fun _ => rfl, nofun⟩

private theorem not_starting (free : pipeline.sendLock = none) : ¬ Starting pipeline := by
  rintro ⟨thread, held⟩
  rw [free] at held
  contradiction

/-- Whatever is being written is the front of the queue. -/
private theorem inflight_front (sendQueue : pipeline.sendQueue = fifo.pending)
    (current : pipeline.inflight = fifo.current) :
    ∀ node ∈ pipeline.inflight, pipeline.sendQueue.head? = some node := by
  intro node held
  rw [current, Fifo.current] at held
  rw [sendQueue]
  cases pending : fifo.pending with
  | nil =>
    rw [pending] at held
    contradiction
  | cons first rest =>
    rw [pending, List.take_succ_cons, List.take_zero, List.mem_singleton] at held
    rw [held, List.head?_cons]

private theorem not_starting_tested {thread : τ} {message : μ}
    (held : pipeline.sendLock = some (thread, .tested message)) : ¬ Starting pipeline := by
  rintro ⟨other, starts⟩
  cases held.symm.trans starts

theorem Represents.sends (represents : Represents fifo pipeline) : Sends pipeline := by
  have ordered : pipeline.enqueued = pipeline.completed ++ pipeline.sendQueue := by
    rw [represents.enqueued, represents.completed, represents.sendQueue, fifo.done_append_pending]
  have writes : pipeline.inflight = [] ∧ Starting pipeline ∨ pipeline.inflight = fifo.current := by
    by_cases start : Starting pipeline
    · exact (represents.starting start).imp (fun alone => ⟨alone.1, start⟩) And.left
    · exact Or.inr (represents.serving start)
  rcases writes with ⟨idle, start⟩ | current
  · refine ⟨?_, ?_, ?_, absurd idle, ordered⟩
    · rw [idle]
      exact Nat.zero_le 1
    · rw [idle]
      exact fun node held => absurd held List.not_mem_nil
    · intro free
      exact absurd start (not_starting free)
  · refine ⟨?_, inflight_front represents.sendQueue current, ?_, ?_, ordered⟩
    · rw [current]
      exact fifo.current_length_le
    · intro _
      rw [current, represents.sendQueue]
      exact not_congr Fifo.current_eq_nil
    · rw [current, represents.sendQueue]
      exact mt Fifo.current_eq_nil.mpr

section Steps

variable {newSendNode : μ → Option ν} {thread : τ} {message : μ} {index : ℕ} {node : ν}

/-- A node joins a queue that somebody serves. -/
theorem Represents.joins (represents : Represents fifo pipeline) (node : ν)
    (held : ¬ Starting pipeline) (waiting : pipeline.sendQueue ≠ []) :
    Represents (fifo.submit node) { pipeline with
      sendQueue := pipeline.sendQueue ++ [node]
      enqueued := pipeline.enqueued ++ [node]
      sendLock := none } := by
  obtain ⟨enqueued, completed, sendQueue, serving, -⟩ := represents
  rw [sendQueue] at waiting
  constructor
  · simp only [enqueued, Fifo.submitted_submit]
  · simp only [completed, Fifo.done_submit]
  · simp only [sendQueue, Fifo.pending_submit]
  · intro _
    rw [Fifo.current_submit, if_neg waiting]
    exact serving held
  · exact nofun

/-- A sender that finds the flag clear is about to write, whether or not its node is alone. -/
theorem Represents.starts (represents : Represents fifo pipeline) (thread : τ) (node : ν)
    (held : ¬ Starting pipeline) :
    Represents (fifo.submit node) { pipeline with
      sendQueue := pipeline.sendQueue ++ [node]
      enqueued := pipeline.enqueued ++ [node]
      sendLock := some (thread, .pushed) } := by
  obtain ⟨enqueued, completed, sendQueue, serving, -⟩ := represents
  constructor
  · simp only [enqueued, Fifo.submitted_submit]
  · simp only [completed, Fifo.done_submit]
  · simp only [sendQueue, Fifo.pending_submit]
  · exact fun other => absurd ⟨thread, rfl⟩ other
  · intro _
    rw [Fifo.pending_submit, Fifo.current_submit, List.length_append, List.length_singleton]
    by_cases pending : fifo.pending = []
    · left
      rw [pending]
      exact ⟨(serving held).trans (Fifo.current_eq_nil.mpr pending), rfl⟩
    · right
      have := List.length_pos_of_ne_nil pending
      rw [if_neg pending]
      exact ⟨serving held, by omega⟩

/-- A step that touches neither the queue nor the writes keeps the shape of the pipeline, as long
as nobody becomes or stops being about to write. -/
theorem Represents.unchanged {target : SendPipeline τ μ ν} (represents : Represents fifo pipeline)
    (enqueued : target.enqueued = pipeline.enqueued) (completed : target.completed = pipeline.completed)
    (sendQueue : target.sendQueue = pipeline.sendQueue) (inflight : target.inflight = pipeline.inflight)
    (same : Starting target ↔ Starting pipeline) : Represents fifo target := by
  constructor
  · rw [enqueued, represents.enqueued]
  · rw [completed, represents.completed]
  · rw [sendQueue, represents.sendQueue]
  · rw [inflight, same]
    exact represents.serving
  · rw [inflight, same]
    exact represents.starting

theorem Represents.test (represents : Represents fifo pipeline) (free : pipeline.sendLock = none)
    (index : ℕ) (thread : τ) (message : μ) :
    Represents fifo (SendPipeline.test { pipeline with
      waiting := pipeline.waiting.eraseIdx index } thread message) := by
  have waits := not_starting free
  rw [SendPipeline.test]
  dsimp only
  split_ifs with full
  · exact represents.unchanged rfl rfl rfl rfl Iff.rfl
  · exact represents.unchanged rfl rfl rfl rfl (iff_of_false nofun waits)
  · exact represents.unchanged rfl rfl rfl rfl (iff_of_false nofun waits)

theorem Represents.push (represents : Represents fifo pipeline)
    (held : pipeline.sendLock = some (thread, .tested message))
    (unraced : newSendNode message ≠ none → pipeline.sendPending = true → pipeline.sendQueue ≠ []) :
    ∃ next, Represents next (pipeline.push newSendNode thread message) := by
  have waits := not_starting_tested held
  cases built : newSendNode message with
  | none =>
    rw [SendPipeline.push_unbuilt built]
    exact ⟨fifo, represents.unchanged rfl rfl rfl rfl (iff_of_false nofun waits)⟩
  | some node =>
    cases flag : pipeline.sendPending with
    | true =>
      have waiting := unraced (by rw [built]; exact Option.some_ne_none node) flag
      rw [SendPipeline.push_pending built flag]
      exact ⟨_, represents.joins node waits waiting⟩
    | false =>
      rw [SendPipeline.push_clear built flag]
      exact ⟨_, represents.starts thread node waits⟩

theorem Represents.start (represents : Represents fifo pipeline)
    (held : pipeline.sendLock = some (thread, .pushed)) (alone : pipeline.sendQueue.length = 1) :
    Represents fifo pipeline.start := by
  have idle : pipeline.inflight = [] := by
    rw [represents.sendQueue] at alone
    rcases represents.starting ⟨thread, held⟩ with ⟨idle, -⟩ | ⟨-, more⟩
    · exact idle
    · omega
  obtain ⟨enqueued, completed, sendQueue, -, -⟩ := represents
  refine ⟨enqueued, completed, sendQueue, ?_, nofun⟩
  intro _
  rw [SendPipeline.start, SendPipeline.asyncWrite, idle, sendQueue, List.nil_append, Fifo.current]

/-- A completed write pops its node and starts the next one. -/
theorem Represents.written (represents : Represents fifo pipeline) (free : pipeline.sendLock = none)
    (outstanding : pipeline.inflight[index]? = some node) :
    Represents fifo.finish (SendPipeline.handleWrite { pipeline with
      inflight := pipeline.inflight.eraseIdx index
      completed := pipeline.completed ++ [node] }) := by
  have current := represents.serving (not_starting free)
  have single := fifo.current_length_le
  rw [← current] at single
  obtain ⟨rfl, only⟩ := Fifo.eq_singleton_of_getElem? single outstanding
  obtain ⟨rest, pending⟩ := Fifo.current_eq_singleton.mp (current.symm.trans only)
  obtain ⟨enqueued, completed, sendQueue, -, -⟩ := represents
  have popped : fifo.finish.pending = pipeline.sendQueue.tail := by
    rw [Fifo.pending_finish pending, sendQueue, pending, List.tail_cons]
  rw [SendPipeline.handleWrite_eq]
  constructor
  · simp only [enqueued, Fifo.submitted_finish]
  · simp only [completed, Fifo.done_finish pending]
  · exact popped.symm
  · intro _
    simp only [only, List.eraseIdx_zero, List.tail_cons, List.nil_append, Fifo.current, popped]
  · rintro ⟨thread, held⟩
    rw [free] at held
    contradiction

variable [DecidableEq τ]

/-- Every unraced step keeps the shape of the pipeline. -/
theorem sendPipeline_step {target : SendPipeline τ μ ν} {action : SendPipeline.Action τ μ}
    (represents : ∃ fifo, Represents fifo pipeline) (unraced : Unraced newSendNode pipeline action)
    (taken : SendPipeline.step newSendNode pipeline action = some target) :
    ∃ fifo, Represents fifo target := by
  obtain ⟨fifo, represents⟩ := represents
  rcases SendPipeline.step_cases taken with ⟨thread, message, rfl, same⟩ |
    ⟨index, thread, message, rfl, free, same⟩ | ⟨thread, message, rfl, held, same⟩ |
    ⟨thread, rfl, held, same⟩ | ⟨index, node, rfl, free, outstanding, same⟩ <;> rw [same]
  · exact ⟨fifo, represents.unchanged rfl rfl rfl rfl Iff.rfl⟩
  · exact ⟨fifo, represents.test free index thread message⟩
  · exact represents.push held (unraced thread message held)
  · exact ⟨fifo, represents.start held unraced⟩
  · exact ⟨fifo.finish, represents.written free outstanding⟩

/-- Any other step leaves a node that nobody writes, or starts a second write. -/
theorem unraced_of_sends {target : SendPipeline τ μ ν} {action : SendPipeline.Action τ μ}
    (represents : ∃ fifo, Represents fifo pipeline)
    (taken : SendPipeline.step newSendNode pipeline action = some target) (sends : Sends target) :
    Unraced newSendNode pipeline action := by
  obtain ⟨fifo, represents⟩ := represents
  rcases SendPipeline.step_cases taken with ⟨thread, message, rfl, -⟩ |
    ⟨index, thread, message, rfl, -, -⟩ | ⟨thread, message, rfl, held, same⟩ |
    ⟨thread, rfl, held, same⟩ | ⟨index, node, rfl, -, -, -⟩
  · trivial
  · trivial
  · intro other message' held' buildable flag empty
    cases held.symm.trans held'
    obtain ⟨node, built⟩ := Option.ne_none_iff_exists'.mp buildable
    have idle : pipeline.inflight = [] := by
      rw [represents.serving (not_starting_tested held), Fifo.current_eq_nil,
        ← represents.sendQueue, empty]
    rw [same, SendPipeline.push_pending built flag] at sends
    apply (sends.busy rfl).mpr _ idle
    exact List.append_ne_nil_of_right_ne_nil _ (List.cons_ne_nil _ _)
  · have single := sends.single
    rw [same, SendPipeline.start, SendPipeline.asyncWrite] at single
    simp only [List.length_append, List.length_take] at single
    rcases represents.starting ⟨thread, held⟩ with ⟨-, alone⟩ | ⟨current, more⟩
    · rw [← represents.sendQueue] at alone
      exact alone
    · rw [current, Fifo.current, List.length_take, represents.sendQueue] at single
      omega
  · trivial

end Steps

/-- The send pipeline is correct along a run exactly when its senders are not raced. -/
theorem sends_iff_unraced [DecidableEq τ] (newSendNode : μ → Option ν) (sendPending : Bool)
    (tape : List (SendPipeline.Action τ μ)) :
    Always (SendPipeline.step newSendNode) Sends (.opened sendPending) tape ↔
      Guarded (SendPipeline.step newSendNode) (Unraced newSendNode) (.opened sendPending) tape := by
  have initial : ∃ fifo, Represents fifo (SendPipeline.opened sendPending : SendPipeline τ μ ν) :=
    ⟨.empty, represents_opened sendPending⟩
  apply always_iff_guarded _ sendPipeline_step unraced_of_sends initial
  rintro pipeline ⟨fifo, represents⟩
  exact represents.sends

/-- Two threads send. The second one resets the flag after the first has started its write, and
the third call resets it again after the second has tested the size. -/
def secondWrite : List (SendPipeline.Action ℕ ℕ) :=
  [.reset 1 65, .test 0, .push, .start, .reset 2 66, .test 0, .reset 1 67, .push, .start]

/-- Both threads reset the flag, the second call finds a node and sets it, and when both nodes
have been written the first call finds it still set. -/
def strandedNode : List (SendPipeline.Action ℕ ℕ) :=
  [.reset 1 65, .test 0, .push, .start, .reset 1 66, .reset 2 67, .test 1, .push, .written 0,
    .written 0, .test 0, .push]

theorem not_sends :
    ¬ Always (SendPipeline.step (some : ℕ → Option ℕ)) Sends (.opened false) secondWrite ∧
      ¬ Always (SendPipeline.step (some : ℕ → Option ℕ)) Sends (.opened false) strandedNode := by
  constructor
  · intro always
    have final : replay? (SendPipeline.step (some : ℕ → Option ℕ)) (.opened false) secondWrite =
      some ⟨[65, 66], false, none, [(1, 67)], [65, 65], [65, 66], []⟩ := by decide +kernel
    exact absurd (always.replay final).single (by decide)
  · intro always
    have final : replay? (SendPipeline.step (some : ℕ → Option ℕ)) (.opened false) strandedNode =
      some ⟨[66], true, none, [], [], [65, 67, 66], [65, 67]⟩ := by decide +kernel
    exact absurd (((always.replay final).busy rfl).mpr (by decide)) (by decide)

end BoostLearn.Soundness.AsyncServer
