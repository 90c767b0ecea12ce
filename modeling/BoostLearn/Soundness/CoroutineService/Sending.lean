import BoostLearn.Core.Fifo
import BoostLearn.Model.CoroutineService.SendPipeline

/-! # CoroutineService writes its queue one node at a time

The sender that found the queue empty is the only writer until its node is popped, and after that
the completion handler is. So the senders that have unlocked and the outstanding writes together
hold the front of the queue once, until a write fails and nobody holds it any more.
-/

namespace BoostLearn.Soundness.CoroutineService

open Replay Model Model.CoroutineService

variable {τ μ ν : Type}

/-- The nodes about to be written or being written. -/
def writing (pipeline : SendPipeline τ ν) : List ν :=
  pipeline.deciding.map Prod.snd ++ pipeline.inflight

/-- At most one writer, which holds the front of the queue and exists as long as something is
queued and no write has failed; frames complete in order; nothing starts after a failure. -/
structure Sends (pipeline : SendPipeline τ ν) : Prop where
  single : pipeline.deciding.length + pipeline.inflight.length ≤ 1
  busy : pipeline.deciding.length + pipeline.inflight.length = 1 ↔
    pipeline.sendQue ≠ [] ∧ pipeline.failed = none
  front : ∀ node ∈ writing pipeline, pipeline.sendQue.head? = some node
  popped : pipeline.inflight ≠ [] → pipeline.sendQue ≠ []
  ordered : pipeline.completed <+: pipeline.enqueued
  stopped : ∀ started, pipeline.failed = some started → pipeline.started = started

/-- The pipeline is a queue of nodes; its first one is held by one writer, or has failed. -/
structure Represents (fifo : Fifo ν) (pipeline : SendPipeline τ ν) : Prop where
  enqueued : pipeline.enqueued = fifo.submitted
  completed : pipeline.completed = fifo.done
  sendQue : pipeline.sendQue = fifo.pending
  running : pipeline.failed = none → writing pipeline = fifo.current
  stopped : ∀ started, pipeline.failed = some started →
    writing pipeline = [] ∧ fifo.pending ≠ [] ∧ pipeline.started = started

variable {fifo : Fifo ν} {pipeline : SendPipeline τ ν}

theorem represents_opened : Represents .empty (SendPipeline.opened : SendPipeline τ ν) :=
  ⟨rfl, rfl, rfl, fun _ => rfl, nofun⟩

private theorem writing_length (pipeline : SendPipeline τ ν) :
    (writing pipeline).length = pipeline.deciding.length + pipeline.inflight.length := by
  rw [writing, List.length_append, List.length_map]

theorem Represents.sends (represents : Represents fifo pipeline) : Sends pipeline := by
  obtain ⟨enqueued, completed, sendQue, running, stopped⟩ := represents
  have size := writing_length pipeline
  have ordered : pipeline.completed <+: pipeline.enqueued := by
    rw [completed, enqueued]
    exact fifo.done_prefix
  cases failed : pipeline.failed with
  | none =>
    have held := running failed
    cases pending : fifo.pending with
    | nil =>
      have idle : writing pipeline = [] := held.trans (Fifo.current_eq_nil.mpr pending)
      rw [idle, List.length_nil] at size
      refine ⟨by omega, ?_, ?_, ?_, ordered, by simp [failed]⟩
      · rw [sendQue, pending]
        simp only [ne_eq, not_true_eq_false, false_and, iff_false]
        omega
      · simp only [idle, List.not_mem_nil, false_implies, implies_true]
      · intro outstanding
        exact absurd (List.length_eq_zero_iff.mp (by omega)) outstanding
    | cons node rest =>
      have one : writing pipeline = [node] :=
        held.trans (Fifo.current_eq_singleton.mpr ⟨rest, pending⟩)
      have queued : pipeline.sendQue = node :: rest := sendQue.trans pending
      rw [one, List.length_singleton] at size
      refine ⟨by omega, ?_, ?_, ?_, ordered, by simp [failed]⟩
      · simp only [queued, failed, ne_eq, reduceCtorEq, not_false_eq_true, and_self, iff_true]
        omega
      · intro other held
        rw [one, List.mem_singleton] at held
        rw [queued, held, List.head?_cons]
      · intro _
        rw [queued]
        exact List.cons_ne_nil _ _
  | some started =>
    obtain ⟨idle, -, same⟩ := stopped started failed
    rw [idle, List.length_nil] at size
    refine ⟨by omega, ?_, ?_, ?_, ordered, ?_⟩
    · simp only [failed, reduceCtorEq, and_false, iff_false]
      omega
    · simp only [idle, List.not_mem_nil, false_implies, implies_true]
    · intro outstanding
      exact absurd (List.length_eq_zero_iff.mp (by omega)) outstanding
    · intro other at_other
      rw [failed, Option.some.injEq] at at_other
      rw [same, at_other]

section Steps

variable {newSendNode : μ → Option ν} {thread : τ} {message : μ} {index : ℕ} {node : ν}

/-- The pipeline keeps its shape when a node joins a queue that somebody serves. -/
theorem Represents.joins (represents : Represents fifo pipeline) (node : ν)
    (waiting : pipeline.sendQue ≠ []) :
    Represents (fifo.submit node) { pipeline with
      sendQue := pipeline.sendQue ++ [node]
      enqueued := pipeline.enqueued ++ [node] } := by
  obtain ⟨enqueued, completed, sendQue, running, stopped⟩ := represents
  rw [sendQue] at waiting
  constructor
  · simp only [enqueued, Fifo.submitted_submit]
  · simp only [completed, Fifo.done_submit]
  · simp only [sendQue, Fifo.pending_submit]
  · intro open_
    rw [Fifo.current_submit, if_neg waiting]
    exact running open_
  · intro started failed
    obtain ⟨idle, -, same⟩ := stopped started failed
    refine ⟨idle, ?_, same⟩
    rw [Fifo.pending_submit]
    exact List.append_ne_nil_of_right_ne_nil _ (List.cons_ne_nil _ _)

/-- The sender that finds the queue empty becomes its writer. -/
theorem Represents.decides (represents : Represents fifo pipeline) (thread : τ) (node : ν)
    (empty : pipeline.sendQue = []) :
    Represents (fifo.submit node) { pipeline with
      sendQue := [node]
      enqueued := pipeline.enqueued ++ [node]
      deciding := pipeline.deciding ++ [(thread, node)] } := by
  obtain ⟨enqueued, completed, sendQue, running, stopped⟩ := represents
  have pending : fifo.pending = [] := sendQue.symm.trans empty
  have sound : pipeline.failed = none := by
    apply Option.eq_none_iff_forall_ne_some.mpr
    intro started failed
    exact (stopped started failed).2.1 pending
  have idle : writing pipeline = [] := (running sound).trans (Fifo.current_eq_nil.mpr pending)
  obtain ⟨deciding, inflight⟩ := List.append_eq_nil_iff.mp idle
  constructor
  · simp only [enqueued, Fifo.submitted_submit]
  · simp only [completed, Fifo.done_submit]
  · simp only [Fifo.pending_submit, pending, List.nil_append]
  · intro _
    rw [Fifo.current_submit, if_pos pending, writing, List.map_append, deciding, inflight]
    rfl
  · intro started failed
    rw [sound] at failed
    contradiction

theorem Represents.send (represents : Represents fifo pipeline) :
    ∃ next, Represents next (pipeline.send newSendNode thread message) := by
  by_cases full : maxLength < pipeline.sendQue.length
  · rw [SendPipeline.send_full full]
    exact ⟨fifo, represents⟩
  cases built : newSendNode message with
  | none =>
    rw [SendPipeline.send_unbuilt built]
    exact ⟨fifo, represents⟩
  | some node =>
    by_cases empty : pipeline.sendQue = []
    · rw [SendPipeline.send_first built empty]
      exact ⟨_, represents.decides thread node empty⟩
    · rw [SendPipeline.send_waiting (Nat.not_lt.mp full) built empty]
      exact ⟨_, represents.joins node empty⟩

/-- A writer exists only while no write has failed, and it is alone. -/
private theorem writer_alone (represents : Represents fifo pipeline) (held : node ∈ writing pipeline) :
    pipeline.failed = none ∧ writing pipeline = [node] ∧ ∃ rest, fifo.pending = node :: rest := by
  cases failed : pipeline.failed with
  | some started =>
    rw [(represents.stopped started failed).1] at held
    contradiction
  | none =>
    have current := represents.running failed
    have single := fifo.current_length_le
    rw [← current] at single
    obtain ⟨index, present⟩ := List.getElem?_of_mem held
    have alone := (Fifo.eq_singleton_of_getElem? single present).2
    exact ⟨rfl, alone, Fifo.current_eq_singleton.mp (current.symm.trans alone)⟩

private theorem decider_alone (represents : Represents fifo pipeline)
    (decided : pipeline.deciding[index]? = some (thread, node)) :
    pipeline.failed = none ∧ index = 0 ∧ pipeline.deciding = [(thread, node)] ∧
      pipeline.inflight = [] ∧ ∃ rest, fifo.pending = node :: rest := by
  have held : node ∈ writing pipeline := List.mem_append_left _
    (List.mem_map.mpr ⟨_, List.mem_of_getElem? decided, rfl⟩)
  obtain ⟨sound, alone, pending⟩ := writer_alone represents held
  have size := writing_length pipeline
  have present := (List.getElem?_eq_some_iff.mp decided).1
  rw [alone, List.length_singleton] at size
  obtain ⟨first, only⟩ := Fifo.eq_singleton_of_getElem? (by omega) decided
  exact ⟨sound, first, only, List.length_eq_zero_iff.mp (by omega), pending⟩

private theorem write_alone (represents : Represents fifo pipeline)
    (outstanding : pipeline.inflight[index]? = some node) :
    pipeline.failed = none ∧ index = 0 ∧ pipeline.inflight = [node] ∧
      pipeline.deciding = [] ∧ ∃ rest, fifo.pending = node :: rest := by
  have held : node ∈ writing pipeline :=
    List.mem_append_right _ (List.mem_of_getElem? outstanding)
  obtain ⟨sound, alone, pending⟩ := writer_alone represents held
  have size := writing_length pipeline
  have present := (List.getElem?_eq_some_iff.mp outstanding).1
  rw [alone, List.length_singleton] at size
  obtain ⟨first, only⟩ := Fifo.eq_singleton_of_getElem? (by omega) outstanding
  exact ⟨sound, first, only, List.length_eq_zero_iff.mp (by omega), pending⟩

/-- Starting the decided write hands the front of the queue to the write. -/
theorem Represents.start (represents : Represents fifo pipeline)
    (decided : pipeline.deciding[index]? = some (thread, node)) :
    Represents fifo (SendPipeline.asyncWrite { pipeline with
      deciding := pipeline.deciding.eraseIdx index } node) := by
  obtain ⟨sound, rfl, only, idle, rest, pending⟩ := decider_alone represents decided
  obtain ⟨enqueued, completed, sendQue, -, -⟩ := represents
  refine ⟨enqueued, completed, sendQue, ?_, ?_⟩
  · intro _
    rw [Fifo.current_eq_singleton.mpr ⟨rest, pending⟩]
    simp only [SendPipeline.asyncWrite, writing, only, idle, List.eraseIdx_zero, List.tail_cons,
      List.map_nil, List.nil_append]
  · intro started failed
    rw [SendPipeline.asyncWrite, sound] at failed
    contradiction

/-- A completed write pops its node and hands on to the next one. -/
theorem Represents.written (represents : Represents fifo pipeline)
    (outstanding : pipeline.inflight[index]? = some node) :
    Represents fifo.finish (SendPipeline.handleWrite { pipeline with
      inflight := pipeline.inflight.eraseIdx index
      completed := pipeline.completed ++ [node] }) := by
  obtain ⟨sound, rfl, only, idle, rest, pending⟩ := write_alone represents outstanding
  obtain ⟨enqueued, completed, sendQue, -, -⟩ := represents
  have popped := Fifo.pending_finish pending
  rw [pending] at sendQue
  cases rest with
  | nil =>
    rw [SendPipeline.handleWrite_last]
    swap
    · exact sendQue
    constructor
    · simp only [enqueued, Fifo.submitted_finish]
    · simp only [completed, Fifo.done_finish pending]
    · simp only [popped]
    · intro _
      rw [Fifo.current_eq_nil.mpr popped]
      simp only [writing, only, idle, List.eraseIdx_zero, List.tail_cons, List.map_nil,
        List.append_nil]
    · intro started failed
      rw [sound] at failed
      contradiction
  | cons next rest =>
    rw [SendPipeline.handleWrite_next]
    swap
    · exact sendQue
    constructor
    · simp only [enqueued, Fifo.submitted_finish]
    · simp only [completed, Fifo.done_finish pending]
    · simp only [popped]
    · intro _
      rw [Fifo.current_eq_singleton.mpr ⟨rest, popped⟩]
      simp only [writing, only, idle, List.eraseIdx_zero, List.tail_cons, List.map_nil,
        List.nil_append]
    · intro started failed
      rw [sound] at failed
      contradiction

/-- A failed write leaves its node at the front and nobody to write it. -/
theorem Represents.fails (represents : Represents fifo pipeline)
    (outstanding : pipeline.inflight[index]? = some node) :
    Represents fifo (SendPipeline.handleError { pipeline with
      inflight := pipeline.inflight.eraseIdx index }) := by
  obtain ⟨sound, rfl, only, idle, rest, pending⟩ := write_alone represents outstanding
  obtain ⟨enqueued, completed, sendQue, -, -⟩ := represents
  refine ⟨enqueued, completed, sendQue, nofun, ?_⟩
  intro started failed
  rw [SendPipeline.handleError, sound, Option.getD_none, Option.some.injEq] at failed
  refine ⟨?_, ?_, failed⟩
  · simp only [SendPipeline.handleError, writing, only, idle, List.eraseIdx_zero, List.tail_cons,
      List.map_nil, List.append_nil]
  · rw [pending]
    exact List.cons_ne_nil _ _

variable [DecidableEq τ]

/-- Every step is a step of the queue, or moves the writer's role. -/
theorem represents_step {target : SendPipeline τ ν} {action : SendPipeline.Action τ μ}
    (represents : ∃ fifo, Represents fifo pipeline)
    (taken : SendPipeline.step newSendNode pipeline action = some target) :
    ∃ fifo, Represents fifo target := by
  obtain ⟨fifo, represents⟩ := represents
  cases action with
  | send thread message =>
    simp only [SendPipeline.step] at taken
    split_ifs at taken
    cases taken
    exact represents.send
  | start index =>
    obtain ⟨⟨thread, node⟩, decided, rfl⟩ := Option.map_eq_some_iff.mp taken
    exact ⟨fifo, represents.start decided⟩
  | written index success =>
    obtain ⟨node, outstanding, rfl⟩ := Option.map_eq_some_iff.mp taken
    cases success with
    | false => exact ⟨fifo, represents.fails outstanding⟩
    | true => exact ⟨fifo.finish, represents.written outstanding⟩

end Steps

/-- In every interleaving of senders and completions, one writer at a time holds the front of the
queue, frames complete in order, nothing starts after a failure, and a message that finds the
queue full changes nothing. -/
theorem sends_always [DecidableEq τ] (newSendNode : μ → Option ν)
    (tape : List (SendPipeline.Action τ μ)) :
    Always (SendPipeline.step newSendNode) Sends .opened tape ∧
      ∀ (pipeline target : SendPipeline τ ν) (thread : τ) (message : μ),
        maxLength < pipeline.sendQue.length →
          SendPipeline.step newSendNode pipeline (.send thread message) = some target →
            target = pipeline := by
  constructor
  · have initial : ∃ fifo, Represents fifo (SendPipeline.opened : SendPipeline τ ν) :=
      ⟨.empty, represents_opened⟩
    apply (always_of_preserved represents_step initial tape).imp
    rintro pipeline ⟨fifo, represents⟩
    exact represents.sends
  · intro pipeline target thread message full taken
    simp only [SendPipeline.step] at taken
    split_ifs at taken
    cases taken
    exact SendPipeline.send_full full

end BoostLearn.Soundness.CoroutineService
