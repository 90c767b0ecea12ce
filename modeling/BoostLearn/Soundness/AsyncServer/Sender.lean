import BoostLearn.Model.AsyncServer.Program
import BoostLearn.Soundness.Queueing

/-! # The send pipeline of AsyncServer under one sender

While only one thread sends, nothing comes between its reset, its test, its push and its write but completions,
and these change nothing that it has tested while it holds the lock. From outside, the pipeline is then the plain
queue, in which a node that is alone is written at once: neither of the two races is there.
-/

namespace BoostLearn.Soundness.AsyncServer

open Model Model.AsyncServer Queueing

variable {τ μ ν : Type}

/-- The plain queue: a sender that is about to start a write has as good as started it. -/
def plainQueue (pipeline : SendPipeline τ μ ν) : SendQueue ν where
  sendQueue := pipeline.sendQueue
  sendPending := pipeline.sendPending
  inflight :=
    match pipeline.sendLock with
    | some (_, .pushed) => pipeline.sendQueue.take 1
    | _ => pipeline.inflight

/-- Where the sender is, and what it knows there. -/
inductive Sender (pipeline : SendPipeline τ μ ν) : Prop
  | outside (nobody : pipeline.waiting = []) (released : pipeline.sendLock = none)
  | waits {sender : τ × μ} (alone : pipeline.waiting = [sender]) (released : pipeline.sendLock = none)
      (flag : pipeline.sendPending = false)
  | tested {thread : τ} {message : μ} (nobody : pipeline.waiting = [])
      (held : pipeline.sendLock = some (thread, .tested message))
      (flag : pipeline.sendPending = true ↔ pipeline.sendQueue ≠ [])
      (room : ¬ (plainQueue pipeline).Fulled maxSendque)
  | pushed {thread : τ} (nobody : pipeline.waiting = []) (held : pipeline.sendLock = some (thread, .pushed))
      (unwritten : pipeline.inflight = []) (alone : pipeline.sendQueue.length = 1)

/-- The queue is in order, and waits for ever only when a write is lost. -/
structure InOrder (lost : Prop) (queue : SendQueue ν) (queued written : List ν) : Prop where
  orderly : Orderly queue queued written
  working : ¬ lost → ¬ Failed queue

/-- There is one sender, and from outside the queue is in order. -/
structure Solo (lost : Prop) (pipeline : SendPipeline τ μ ν) : Prop where
  sender : Sender pipeline
  inOrder : InOrder lost (plainQueue pipeline) pipeline.enqueued pipeline.completed

/-- What the sender has brought and not pushed. -/
def coming (pipeline : SendPipeline τ μ ν) : List μ :=
  pipeline.waiting.map Prod.snd ++
    match pipeline.sendLock with
    | some (_, .tested message) => [message]
    | _ => []

/-- The nodes that have been queued, with the one that is coming. -/
def admitted (newSendNode : μ → Option ν) (pipeline : SendPipeline τ μ ν) : List ν :=
  pipeline.enqueued ++ (coming pipeline).filterMap newSendNode

/-- The sender is told that the queue is full. -/
def Refuses (pipeline : SendPipeline τ μ ν) : SendPipeline.Action τ μ → Prop
  | .test _ => (plainQueue pipeline).Fulled maxSendque
  | _ => False

instance (pipeline : SendPipeline τ μ ν) (action : SendPipeline.Action τ μ) : Decidable (Refuses pipeline action) :=
  match action with
  | .test _ => inferInstanceAs (Decidable ((plainQueue pipeline).Fulled maxSendque))
  | .reset _ _ | .push | .start | .written _ => .isFalse id

variable {newSendNode : μ → Option ν} {pipeline target : SendPipeline τ μ ν} {thread : τ} {message : μ}
  {lost : Prop}

theorem solo_opened (sendPending : Bool) : Solo lost (.opened sendPending : SendPipeline τ μ ν) :=
  ⟨.outside rfl rfl, orderly_opened sendPending, fun _ failed => failed.2 rfl⟩

section Facts

theorem Solo.mono {lost' : Prop} (solo : Solo lost pipeline) (weaker : lost → lost') : Solo lost' pipeline :=
  ⟨solo.sender, solo.inOrder.orderly, fun kept => solo.inOrder.working (mt weaker kept)⟩

/-- At most one write is outstanding. -/
theorem Solo.single (solo : Solo lost pipeline) : pipeline.inflight.length ≤ 1 := by
  obtain ⟨sender, inOrder⟩ := solo
  have single := inOrder.orderly.single
  cases sender with
  | pushed _ _ unwritten _ =>
    rw [unwritten]
    exact Nat.zero_le 1
  | outside _ released | waits _ released _ =>
    rwa [plainQueue, released] at single
  | tested _ held _ _ =>
    rwa [plainQueue, held] at single

/-- What has been written or is being written is a front of what has been queued. -/
theorem Solo.written_prefix (solo : Solo lost pipeline) :
    pipeline.completed ++ pipeline.inflight <+: pipeline.enqueued := by
  obtain ⟨sender, inOrder⟩ := solo
  have written := inOrder.orderly.written_prefix
  cases sender with
  | pushed _ _ unwritten _ =>
    rw [unwritten, List.append_nil]
    exact (List.prefix_append _ _).trans written
  | outside _ released | waits _ released _ =>
    rwa [plainQueue, released] at written
  | tested _ held _ _ =>
    rwa [plainQueue, held] at written

/-- No thread is in `Send`. -/
theorem idle_iff : pipeline.idle = true ↔ pipeline.waiting = [] ∧ pipeline.sendLock = none := by
  rw [SendPipeline.idle, Bool.and_eq_true, List.isEmpty_iff, Option.isNone_iff_eq_none]

/-- Whoever goes on inside `Send` is in it, and does not enter it. -/
theorem nextOfSend_cases {action : SendPipeline.Action τ μ} (next : pipeline.nextOfSend = some action) :
    pipeline.idle = false ∧ ∀ thread message, action ≠ .reset thread message := by
  rw [SendPipeline.nextOfSend] at next
  rw [SendPipeline.idle]
  split at next
  · next held =>
    cases next
    exact ⟨by rw [held, Option.isNone_some, Bool.and_false], fun _ _ same => by cases same⟩
  · next held =>
    cases next
    exact ⟨by rw [held, Option.isNone_some, Bool.and_false], fun _ _ same => by cases same⟩
  · split_ifs at next with nobody
    cases next
    exact ⟨by rw [Bool.eq_false_iff.mpr nobody, Bool.false_and], fun _ _ same => by cases same⟩

/-- Until a write is lost, the front of the queue is being written, unless the sender is about to start that. -/
theorem Solo.writes_front (solo : Solo lost pipeline) (kept : ¬ lost)
    (elsewhere : ∀ thread, pipeline.sendLock ≠ some (thread, .pushed)) :
    pipeline.inflight = pipeline.sendQueue.take 1 := by
  have front := solo.inOrder.orderly.front.resolve_right (solo.inOrder.working kept)
  rw [plainQueue] at front
  split at front
  · next thread held => exact absurd held (elsewhere thread)
  · exact front

/-- Until then nothing else is being written. -/
theorem Solo.inflight_front (solo : Solo lost pipeline) (kept : ¬ lost) :
    pipeline.inflight <+: pipeline.sendQueue.take 1 := by
  by_cases about : ∃ thread, pipeline.sendLock = some (thread, .pushed)
  · obtain ⟨thread, held⟩ := about
    cases solo.sender with
    | pushed _ _ unwritten _ =>
      rw [unwritten]
      exact List.nil_prefix
    | outside _ released | waits _ released _ => cases released.symm.trans held
    | tested _ other _ _ => cases other.symm.trans held
  · have same := solo.writes_front kept (not_exists.mp about)
    exact same ▸ List.prefix_rfl

/-- What is neither queued nor lost has been written. -/
theorem Solo.all_written (solo : Solo lost pipeline) (empty : pipeline.sendQueue = []) :
    pipeline.completed = pipeline.enqueued := by
  have split := solo.inOrder.orderly.split
  rw [plainQueue, empty, List.append_nil] at split
  exact split.symm

end Facts

section Steps

/-- Only the queue and the writes matter. -/
theorem InOrder.congr {queue other : SendQueue ν} {queued written : List ν}
    (inOrder : InOrder lost queue queued written)
    (waiting : other.sendQueue = queue.sendQueue) (inflight : other.inflight = queue.inflight) :
    InOrder lost other queued written := by
  obtain ⟨⟨split, front⟩, working⟩ := inOrder
  refine ⟨⟨by rw [split, waiting], ?_⟩, ?_⟩
  · rw [Failed] at front ⊢
    rwa [waiting, inflight]
  · rw [Failed] at working ⊢
    rwa [waiting, inflight]

theorem InOrder.sends {queue : SendQueue ν} {queued written : List ν} {node : ν}
    (inOrder : InOrder lost queue queued written)
    (room : ¬ queue.Fulled maxSendque) (built : newSendNode message = some node) :
    InOrder lost (queue.send maxSendque newSendNode message) (queued ++ [node]) written :=
  ⟨inOrder.orderly.sends room built, fun found failed => inOrder.working found ((failed_sends room built).mp failed)⟩

/-- Whoever waits for the lock is the sender. -/
theorem Solo.waiting_alone (solo : Solo lost pipeline) {index : ℕ} {sender : τ × μ}
    (released : pipeline.sendLock = none)
    (found : pipeline.waiting[index]? = some sender) :
    index = 0 ∧ pipeline.waiting = [sender] ∧ pipeline.sendPending = false := by
  cases solo.sender with
  | outside nobody _ =>
    rw [nobody] at found
    cases found
  | tested _ held _ _ | pushed _ held _ _ => cases released.symm.trans held
  | waits alone _ flag =>
    have single : pipeline.waiting.length ≤ 1 := by
      rw [alone]
      exact Nat.le_refl 1
    obtain ⟨first, only⟩ := Fifo.eq_singleton_of_getElem? single found
    exact ⟨first, only, flag⟩

/-- The sender enters `Send`. -/
theorem Solo.reset (solo : Solo lost pipeline) (idle : pipeline.idle = true) (thread : τ) (message : μ) :
    Solo lost (pipeline.reset thread message) := by
  obtain ⟨nobody, released⟩ := idle_iff.mp idle
  have alone : (pipeline.reset thread message).waiting = [(thread, message)] := by
    rw [SendPipeline.reset, nobody]
    rfl
  exact ⟨.waits alone released rfl, solo.inOrder.congr rfl rfl⟩

theorem Solo.test (solo : Solo lost pipeline) {index : ℕ} (released : pipeline.sendLock = none)
    (waiting : pipeline.waiting[index]? = some (thread, message)) :
    Solo lost (SendPipeline.test { pipeline with waiting := pipeline.waiting.eraseIdx index } thread message) := by
  obtain ⟨rfl, only, flag⟩ := solo.waiting_alone released waiting
  have inOrder := solo.inOrder
  rw [plainQueue, released] at inOrder
  simp only [SendPipeline.test, only, List.eraseIdx_zero, List.tail_cons]
  split_ifs with fulled some
  · exact ⟨.outside rfl released, by rw [plainQueue, released]; exact inOrder⟩
  · exact ⟨.tested rfl rfl ⟨fun _ => List.ne_nil_of_length_pos some, fun _ => rfl⟩ fulled,
      inOrder.congr rfl rfl⟩
  · refine ⟨.tested rfl rfl ⟨fun set => ?_, fun some' => ?_⟩ fulled, inOrder.congr rfl rfl⟩
    · cases flag.symm.trans set
    · exact absurd (List.length_pos_of_ne_nil some') some

theorem Solo.push (solo : Solo lost pipeline) (held : pipeline.sendLock = some (thread, .tested message)) :
    Solo lost (pipeline.push newSendNode thread message) := by
  obtain ⟨sender, inOrder⟩ := solo
  cases sender with
  | outside _ released | waits _ released _ => cases held.symm.trans released
  | pushed _ other _ _ => cases held.symm.trans other
  | tested nobody _ flag room =>
    have plain : plainQueue pipeline = ⟨pipeline.sendQueue, pipeline.sendPending, pipeline.inflight⟩ := by
      rw [plainQueue, held]
    cases built : newSendNode message with
    | none =>
      rw [SendPipeline.push_unbuilt built]
      exact ⟨.outside nobody rfl, inOrder.congr rfl (by rw [plain]; rfl)⟩
    | some node =>
      have sent := inOrder.sends room built
      obtain ⟨waiting, inflight⟩ := send_of_node room built
      cases pending : pipeline.sendPending with
      | true =>
        have some := flag.mp pending
        rw [SendPipeline.push_pending built pending]
        refine ⟨.outside nobody rfl, sent.congr ?_ ?_⟩
        · rw [waiting]
          rfl
        · rw [inflight, plain]
          exact (if_neg some).symm
      | false =>
        have empty : pipeline.sendQueue = [] := by
          by_contra some
          cases pending.symm.trans (flag.mpr some)
        have unwritten : pipeline.inflight = [] := by
          have front := inOrder.orderly.front
          rw [plain] at front
          obtain front | ⟨unwritten, -⟩ := front
          · exact front.trans (congrArg (List.take 1) empty)
          · exact unwritten
        rw [SendPipeline.push_clear built pending]
        refine ⟨.pushed nobody rfl unwritten (by rw [empty]; rfl), sent.congr ?_ ?_⟩
        · rw [waiting]
          rfl
        · rw [inflight, plain]
          simp only [plainQueue, empty, unwritten, if_true, List.nil_append]
          rfl

theorem Solo.start (solo : Solo lost pipeline) (held : pipeline.sendLock = some (thread, .pushed)) :
    Solo lost pipeline.start := by
  obtain ⟨sender, inOrder⟩ := solo
  cases sender with
  | outside _ released | waits _ released _ => cases held.symm.trans released
  | tested _ other _ _ => cases held.symm.trans other
  | pushed nobody _ unwritten alone =>
    refine ⟨.outside nobody rfl, inOrder.congr rfl ?_⟩
    simp only [SendPipeline.start, SendPipeline.asyncWrite, plainQueue, held, unwritten, List.nil_append]

theorem Solo.written (solo : Solo lost pipeline) {index : ℕ} {node : ν} (released : pipeline.sendLock = none)
    (outstanding : pipeline.inflight[index]? = some node) :
    Solo lost (SendPipeline.handleWrite { pipeline with
      inflight := pipeline.inflight.eraseIdx index
      completed := pipeline.completed ++ [node] }) := by
  obtain ⟨sender, inOrder⟩ := solo
  have plain : plainQueue pipeline = ⟨pipeline.sendQueue, pipeline.sendPending, pipeline.inflight⟩ := by
    rw [plainQueue, released]
  rw [plain] at inOrder
  obtain ⟨later, working⟩ := inOrder.orderly.completes outstanding
  rw [SendPipeline.handleWrite_eq]
  refine ⟨?_, (InOrder.mk later fun _ => working).congr ?_ ?_⟩
  · cases sender with
    | outside nobody _ => exact .outside nobody released
    | waits alone _ flag => exact .waits alone released flag
    | tested _ held _ _ | pushed _ held _ _ => cases released.symm.trans held
  · rw [SendQueue.handleWrite_sendQueue]
    rfl
  · rw [SendQueue.handleWrite]
    simp only [plainQueue, released]
    cases pipeline.sendQueue.tail with
    | nil => simp only [List.take_nil, List.append_nil, List.length_nil, gt_iff_lt, Nat.lt_irrefl, if_false]
    | cons next more => rfl

/-- A failed write is not followed by another one. -/
theorem Solo.writeError (solo : Solo lost pipeline) {index : ℕ} {node : ν}
    (outstanding : pipeline.inflight[index]? = some node) :
    Solo True { pipeline with inflight := pipeline.inflight.eraseIdx index } := by
  obtain ⟨sender, ⟨orderly, -⟩⟩ := solo
  cases sender with
  | pushed _ _ unwritten _ =>
    rw [unwritten] at outstanding
    cases outstanding
  | outside nobody released =>
    rw [plainQueue, released] at orderly
    exact ⟨.outside nobody released, by rw [plainQueue, released]; exact (orderly.fails outstanding).1, absurd trivial⟩
  | waits alone released flag =>
    rw [plainQueue, released] at orderly
    exact ⟨.waits alone released flag, by rw [plainQueue, released]; exact (orderly.fails outstanding).1,
      absurd trivial⟩
  | tested nobody held flag room =>
    rw [plainQueue, held] at orderly
    exact ⟨.tested nobody held flag room, by rw [plainQueue, held]; exact (orderly.fails outstanding).1,
      absurd trivial⟩

/-- Whoever enters brings a message, if it has a node. -/
theorem admitted_reset (idle : pipeline.idle = true) (thread : τ) (message : μ) :
    admitted newSendNode (pipeline.reset thread message) =
      admitted newSendNode pipeline ++ (newSendNode message).toList := by
  obtain ⟨nobody, released⟩ := idle_iff.mp idle
  simp only [admitted, coming, SendPipeline.reset, nobody, released, List.nil_append, List.map_cons, List.map_nil,
    List.append_nil, List.filterMap_nil]
  cases built : newSendNode message <;> simp [built]

/-- Nobody brings anything when nobody is in `Send`. -/
theorem admitted_idle (idle : pipeline.idle = true) : admitted newSendNode pipeline = pipeline.enqueued := by
  obtain ⟨nobody, released⟩ := idle_iff.mp idle
  simp only [admitted, coming, nobody, released, List.map_nil, List.append_nil, List.filterMap_nil]

variable [DecidableEq τ] {action : SendPipeline.Action τ μ}

/-- A pipeline that only one thread enters stays in order. -/
theorem Solo.step (solo : Solo lost pipeline)
    (enters : ∀ thread message, action = .reset thread message → pipeline.idle = true)
    (stepped : pipeline.step newSendNode action = some target) : Solo lost target := by
  rcases SendPipeline.step_cases stepped with ⟨thread, message, rfl, same⟩ |
    ⟨index, thread, message, rfl, released, -⟩ | ⟨thread, message, rfl, held, same⟩ |
    ⟨thread, rfl, held, same⟩ | ⟨index, node, rfl, released, outstanding, same⟩
  · rw [same]
    exact solo.reset (enters thread message rfl) thread message
  · rw [SendPipeline.step] at stepped
    split at stepped
    · contradiction
    · obtain ⟨⟨other, brought⟩, waiting, same⟩ := Option.map_eq_some_iff.mp stepped
      rw [← same]
      exact solo.test released waiting
  · rw [same]
    exact solo.push held
  · rw [same]
    exact solo.start held
  · rw [same]
    exact solo.written released outstanding

/-- A completion leaves the sender where it is. -/
theorem idle_written {index : ℕ} (stepped : pipeline.step newSendNode (.written index) = some target) :
    target.idle = pipeline.idle := by
  rw [SendPipeline.step] at stepped
  split at stepped
  · contradiction
  · obtain ⟨node, -, rfl⟩ := Option.map_eq_some_iff.mp stepped
    rw [SendPipeline.handleWrite_eq]
    rfl

/-- From there on it is queued, unless the queue is full. -/
theorem admitted_step (solo : Solo lost pipeline) (inside : ∀ thread message, action ≠ .reset thread message)
    (stepped : pipeline.step newSendNode action = some target) :
    (admitted newSendNode target).Sublist (admitted newSendNode pipeline) ∧
      (¬ Refuses pipeline action → admitted newSendNode target = admitted newSendNode pipeline) := by
  have kept (same : admitted newSendNode target = admitted newSendNode pipeline) :
      (admitted newSendNode target).Sublist (admitted newSendNode pipeline) ∧
        (¬ Refuses pipeline action → admitted newSendNode target = admitted newSendNode pipeline) :=
    ⟨same ▸ .refl _, fun _ => same⟩
  rcases SendPipeline.step_cases stepped with ⟨thread, message, same, -⟩ |
    ⟨index, thread, message, rfl, released, -⟩ | ⟨thread, message, rfl, held, same⟩ |
    ⟨thread, rfl, held, same⟩ | ⟨index, node, rfl, released, outstanding, same⟩
  · exact absurd same (inside thread message)
  · rw [SendPipeline.step] at stepped
    split at stepped
    · contradiction
    · obtain ⟨⟨other, brought⟩, waiting, same⟩ := Option.map_eq_some_iff.mp stepped
      obtain ⟨rfl, only, -⟩ := solo.waiting_alone released waiting
      have before : admitted newSendNode pipeline = pipeline.enqueued ++ [brought].filterMap newSendNode := by
        simp only [admitted, coming, only, released, List.map_cons, List.map_nil, List.append_nil]
      rw [before, ← same]
      simp only [SendPipeline.test, only, List.eraseIdx_zero, List.tail_cons]
      split_ifs with fulled
      · have after : admitted newSendNode { pipeline with waiting := [] } = pipeline.enqueued := by
          simp only [admitted, coming, released, List.map_nil, List.append_nil, List.filterMap_nil]
        rw [after]
        exact ⟨List.sublist_append_left _ _, fun room => absurd fulled room⟩
      · exact ⟨.refl _, fun _ => rfl⟩
      · exact ⟨.refl _, fun _ => rfl⟩
  · apply kept
    cases solo.sender with
    | outside _ released | waits _ released _ => cases held.symm.trans released
    | pushed _ other _ _ => cases held.symm.trans other
    | tested nobody _ _ _ =>
      have before : admitted newSendNode pipeline = pipeline.enqueued ++ [message].filterMap newSendNode := by
        simp only [admitted, coming, nobody, held, List.map_nil, List.nil_append]
      rw [before, same]
      cases built : newSendNode message with
      | none =>
        rw [SendPipeline.push_unbuilt built]
        simp [admitted, coming, nobody, built]
      | some node =>
        cases pending : pipeline.sendPending with
        | true =>
          rw [SendPipeline.push_pending built pending]
          simp [admitted, coming, nobody, built]
        | false =>
          rw [SendPipeline.push_clear built pending]
          simp [admitted, coming, nobody, built]
  · apply kept
    rw [same]
    simp only [admitted, coming, SendPipeline.start, SendPipeline.asyncWrite, held]
  · apply kept
    rw [same, SendPipeline.handleWrite_eq]
    simp only [admitted, coming, released]

end Steps

end BoostLearn.Soundness.AsyncServer
