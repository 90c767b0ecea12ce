import BoostLearn.Core.Intake
import BoostLearn.Model.SendQueue

/-! # The capacities of the send queues

Both AsyncServers refuse a message only when the queue is already longer than `MAX_SENDQUE`, and
CoroutineService compares its queue with `MAX_LENGTH` instead. So each of the queues grows beyond
its capacity as soon as a message comes while it is full.
-/

namespace BoostLearn.Soundness.Capacity

open CInt Memory Replay Model

variable {τ μ ν : Type}

section Queue

variable {maxSendque : ℕ} {newSendNode : μ → Option ν}

/-- The send queue of an AsyncServer, with the constant and the `Send` of its project. -/
def intake (maxSendque : ℕ) (send : SendQueue ν → μ → SendQueue ν) :
    Intake (SendQueue ν) (SendQueue.Action μ) ν where
  step := SendQueue.step send
  queue := SendQueue.sendQueue
  Offers
    | .send _ => True
    | .written _ _ => False
  Refuses queue := queue.Fulled maxSendque

theorem intake_send {send : SendQueue ν → μ → SendQueue ν} {queue next : SendQueue ν} {message : μ}
    (sent : send queue message = next) :
    (intake maxSendque send).step queue (.send message) = some next := congrArg some sent

theorem sendQueue_length (maxSendque : ℕ) (newSendNode : μ → Option ν) (queue : SendQueue ν)
    (message : μ) :
    (queue.send maxSendque newSendNode message).sendQueue.length ≤ queue.sendQueue.length + 1 := by
  by_cases fulled : queue.Fulled maxSendque
  · rw [SendQueue.send_of_fulled fulled]
    exact Nat.le_succ _
  · cases built : newSendNode message with
    | none =>
      rw [SendQueue.send_of_unbuilt built]
      exact Nat.le_succ _
    | some node =>
      have longer := congrArg List.length (SendQueue.send_of_built fulled built)
      exact Nat.le_of_eq (longer.trans List.length_append)

theorem intake_overfull (small : maxSendque < 2147483648) (newSendNode : μ → Option ν) :
    (intake maxSendque (SendQueue.send maxSendque newSendNode)).Overfull maxSendque where
  offered {queue next action} offers taken := by
    cases action with
    | written index success => exact absurd offers id
    | send message =>
      have sent : some (SendQueue.send maxSendque newSendNode queue message) = some next := taken
      have longer := sendQueue_length maxSendque newSendNode queue message
      rw [Option.some.inj sent] at longer
      exact longer
  still {queue next action} offers taken := by
    cases action with
    | send message => exact absurd trivial offers
    | written index success =>
      obtain ⟨node, -, rfl⟩ := Option.map_eq_some_iff.mp taken
      cases success with
      | false => exact Nat.le_refl _
      | true =>
        change (SendQueue.handleWrite _).sendQueue.length ≤ queue.sendQueue.length
        rw [SendQueue.handleWrite_sendQueue, List.length_tail]
        exact Nat.sub_le ..
  takes {queue} room := by
    change queue.sendQueue.length ≤ maxSendque at room
    change ¬ toInt queue.sendQueue.length > maxSendque
    rw [toInt_of_range (by omega) (by omega)]
    omega

end Queue

section Coroutine

variable [DecidableEq τ]

open CoroutineService (SendPipeline)

/-- The send queue of CoroutineService, whose test compares it with `MAX_LENGTH`. -/
def coroutineService (newSendNode : μ → Option ν) :
    Intake (SendPipeline τ ν) (SendPipeline.Action τ μ) ν where
  step := SendPipeline.step newSendNode
  queue := SendPipeline.sendQue
  Offers
    | .send _ _ => True
    | _ => False
  Refuses pipeline := pipeline.sendQue.length > maxLength

omit [DecidableEq τ] in
theorem send_length (newSendNode : μ → Option ν) (pipeline : SendPipeline τ ν) (thread : τ)
    (message : μ) :
    (pipeline.send newSendNode thread message).sendQue.length ≤ pipeline.sendQue.length + 1 := by
  by_cases full : maxLength < pipeline.sendQue.length
  · rw [SendPipeline.send_full full]
    exact Nat.le_succ _
  · cases built : newSendNode message with
    | none =>
      rw [SendPipeline.send_unbuilt built]
      exact Nat.le_succ _
    | some node =>
      by_cases empty : pipeline.sendQue = []
      · rw [SendPipeline.send_first built empty]
        exact Nat.le_add_left ..
      · rw [SendPipeline.send_waiting (Nat.not_lt.mp full) built empty]
        exact Nat.le_of_eq List.length_append

omit [DecidableEq τ] in
theorem handleWrite_sendQue (pipeline : SendPipeline τ ν) :
    pipeline.handleWrite.sendQue = pipeline.sendQue.tail := by
  rw [SendPipeline.handleWrite]
  dsimp only
  split
  · rfl
  · rfl

theorem coroutineService_overfull (newSendNode : μ → Option ν) :
    (coroutineService newSendNode : Intake (SendPipeline τ ν) _ ν).Overfull CoroutineService.maxSendque where
  offered {pipeline next action} offers taken := by
    cases action with
    | send thread message =>
      simp only [coroutineService, SendPipeline.step] at taken
      split_ifs at taken
      obtain rfl := Option.some.inj taken
      exact send_length ..
    | start index => exact absurd offers id
    | written index success => exact absurd offers id
  still {pipeline next action} offers taken := by
    cases action with
    | send thread message => exact absurd trivial offers
    | start index =>
      obtain ⟨decision, -, rfl⟩ := Option.map_eq_some_iff.mp taken
      exact Nat.le_refl _
    | written index success =>
      obtain ⟨node, -, rfl⟩ := Option.map_eq_some_iff.mp taken
      cases success with
      | false => exact Nat.le_refl _
      | true =>
        change (SendPipeline.handleWrite _).sendQue.length ≤ pipeline.sendQue.length
        rw [handleWrite_sendQue, List.length_tail]
        exact Nat.sub_le ..
  takes {pipeline} room := by
    change pipeline.sendQue.length ≤ 1024 at room
    change ¬ pipeline.sendQue.length > 2048
    omega

end Coroutine

section Pipeline

open AsyncServer (SendPipeline)

variable [DecidableEq τ] {newSendNode : μ → Option ν} {pipeline : SendPipeline τ μ ν}

/-- The part of the pipeline of many threads that a single sender works on. -/
def queueOf (pipeline : SendPipeline τ μ ν) : SendQueue ν :=
  ⟨pipeline.sendQueue, pipeline.sendPending, pipeline.inflight⟩

/-- The reset and the two tests of a sender that nobody interrupts. -/
theorem tested_replays (free : pipeline.sendLock = none) (alone : pipeline.waiting = []) (thread : τ)
    (message : μ) :
    replay? (SendPipeline.step newSendNode) pipeline [.reset thread message, .test 0] =
      some (SendPipeline.test { pipeline with sendPending := false, waiting := [] } thread message) := by
  have reset : SendPipeline.step newSendNode pipeline (.reset thread message) =
      some { pipeline with sendPending := false, waiting := [(thread, message)] } := by
    rw [SendPipeline.step, if_neg (by simp [free, alone]), SendPipeline.reset, alone]
    rfl
  rw [replay?, reset]
  simp only [Option.bind_some, replay?, SendPipeline.step, free, List.getElem?_cons_zero,
    Option.map_some, List.eraseIdx_zero, List.tail_cons]

/-- The push of a sender that has the lock, and the write if it starts one. -/
theorem pushed_replays {thread : τ} {message : μ}
    (held : pipeline.sendLock = some (thread, .tested message)) :
    ∃ tape final, replay? (SendPipeline.step newSendNode) pipeline tape = some final ∧
      queueOf final =
        (match newSendNode message with
          | none => queueOf pipeline
          | some node => (queueOf pipeline).push node) ∧
      final.sendLock = none ∧ final.waiting = pipeline.waiting := by
  have pushes : SendPipeline.step newSendNode pipeline .push =
      some (pipeline.push newSendNode thread message) := by
    rw [SendPipeline.step, held]
  cases built : newSendNode message with
  | none =>
    rw [SendPipeline.push_unbuilt built] at pushes
    exact ⟨[.push], _, Option.bind_eq_some_iff.mpr ⟨_, pushes, rfl⟩, rfl, rfl, rfl⟩
  | some node =>
    cases flag : pipeline.sendPending with
    | true =>
      rw [SendPipeline.push_pending built flag] at pushes
      refine ⟨[.push], _, Option.bind_eq_some_iff.mpr ⟨_, pushes, rfl⟩, ?_, rfl, rfl⟩
      simp only [queueOf, SendQueue.push, flag, if_true]
    | false =>
      rw [SendPipeline.push_clear built flag] at pushes
      refine ⟨[.push, .start], _, Option.bind_eq_some_iff.mpr ⟨_, pushes, rfl⟩, ?_, rfl, rfl⟩
      simp only [queueOf, SendQueue.push, flag, Bool.false_eq_true, if_false]
      rfl

/-- The steps that such a sender takes in the pipeline add up to one call. -/
theorem send_replays (free : pipeline.sendLock = none) (alone : pipeline.waiting = []) (thread : τ)
    (message : μ) :
    ∃ tape final, replay? (SendPipeline.step newSendNode) pipeline tape = some final ∧
      queueOf final = AsyncServer.sessionSend newSendNode (queueOf pipeline) message ∧
      final.sendLock = none ∧ final.waiting = [] := by
  have tested := @tested_replays _ _ _ _ newSendNode _ free alone thread message
  by_cases fulled : (queueOf pipeline).Fulled AsyncServer.maxSendque
  · have full : toInt pipeline.sendQueue.length > AsyncServer.maxSendque := fulled
    rw [SendPipeline.test, if_pos full] at tested
    refine ⟨_, _, tested, ?_, free, rfl⟩
    rw [AsyncServer.sessionSend, SendQueue.send_of_fulled fulled]
    rfl
  · have room : ¬ toInt pipeline.sendQueue.length > AsyncServer.maxSendque := fulled
    rw [SendPipeline.test, if_neg room] at tested
    dsimp only at tested
    obtain ⟨tape, final, pushed, queue, released, waiting⟩ := @pushed_replays _ _ _ _ newSendNode
      { pipeline with
        sendPending := if pipeline.sendQueue.length > 0 then true else false
        sendLock := some (thread, .tested message)
        waiting := [] } thread message rfl
    refine ⟨[.reset thread message, .test 0] ++ tape, final, ?_, ?_, released, waiting⟩
    · rw [replay?_append, tested]
      exact pushed
    · rw [queue, AsyncServer.sessionSend, SendQueue.send_of_room fulled]
      rfl

/-- A write completes without an error in the pipeline as it does in the queue. -/
theorem written_queueOf (free : pipeline.sendLock = none) (index : ℕ) :
    (SendPipeline.step newSendNode pipeline (.written index)).map queueOf =
      SendQueue.step (AsyncServer.sessionSend newSendNode) (queueOf pipeline) (.written index true) := by
  rw [SendPipeline.step, free]
  dsimp only
  rw [Option.map_map]
  refine congrArg (Option.map · pipeline.inflight[index]?) (funext fun node => ?_)
  by_cases more : pipeline.sendQueue.tail.length > 0
  · simp only [Function.comp, SendPipeline.handleWrite, SendQueue.handleWrite, queueOf, more, if_true]
    rfl
  · simp only [Function.comp, SendPipeline.handleWrite, SendQueue.handleWrite, queueOf, more, if_true,
      if_false]

end Pipeline

section Projects

variable (newSendNode : μ → Option ν)

def asyncServer : Intake (SendQueue ν) (SendQueue.Action μ) ν :=
  intake AsyncServer.maxSendque (AsyncServer.sessionSend newSendNode)

def asyncServerUseProtobuf : Intake (SendQueue ν) (SendQueue.Action μ) ν :=
  intake AsyncServerUseProtobuf.maxSendque (AsyncServerUseProtobuf.sessionSend newSendNode)

/-- Each queue respects its capacity exactly in the runs in which no message comes while it is full. -/
theorem respects_iff_sparing [DecidableEq τ] (sendPending : Bool) :
    (∀ tape, (asyncServer newSendNode).Respects AsyncServer.maxSendque (.opened sendPending) tape ↔
      (asyncServer newSendNode).Sparing AsyncServer.maxSendque (.opened sendPending) tape) ∧
    (∀ tape, (asyncServerUseProtobuf newSendNode).Respects AsyncServerUseProtobuf.maxSendque
        (.opened sendPending) tape ↔
      (asyncServerUseProtobuf newSendNode).Sparing AsyncServerUseProtobuf.maxSendque
        (.opened sendPending) tape) ∧
    ∀ tape, (coroutineService newSendNode : Intake (CoroutineService.SendPipeline τ ν) _ ν).Respects
        CoroutineService.maxSendque .opened tape ↔
      (coroutineService newSendNode).Sparing CoroutineService.maxSendque .opened tape := by
  refine ⟨?_, ?_, ?_⟩
  · exact (intake_overfull (by decide) newSendNode).respects_iff (Nat.zero_le _)
  · exact (intake_overfull (by decide) newSendNode).respects_iff (Nat.zero_le _)
  · exact (coroutineService_overfull newSendNode).respects_iff (Nat.zero_le _)

end Projects

section Example

/-- A message comes while `MAX_SENDQUE` nodes are queued and none has been written. -/
theorem not_sparing_intake {maxSendque : ℕ} (small : maxSendque < 2147483648) :
    ¬ (intake maxSendque (SendQueue.send maxSendque (some : Unit → Option Unit))).Sparing maxSendque
      (.opened false) (List.replicate (maxSendque + 1) (.send ())) := by
  apply Intake.not_sparing_of_offers (fun _ => True) trivial _ trivial (Nat.zero_add _)
  intro queue _ room
  have taken := (intake_overfull small (some : Unit → Option Unit)).takes room
  have longer : (SendQueue.send maxSendque some queue ()).sendQueue.length =
      queue.sendQueue.length + 1 := by
    rw [SendQueue.send_of_built taken rfl, List.length_append, List.length_singleton]
  obtain ⟨next, sent⟩ : ∃ next, SendQueue.send maxSendque some queue () = next := ⟨_, rfl⟩
  rw [sent] at longer
  exact ⟨next, intake_send sent, trivial, longer⟩

/-- The same in CoroutineService, behind a first message whose write has been started. -/
theorem not_sparing_coroutineService :
    ¬ (coroutineService (some : Unit → Option Unit) :
        Intake (CoroutineService.SendPipeline Unit Unit) _ Unit).Sparing CoroutineService.maxSendque
      .opened (.send () () :: .start 0 :: List.replicate 1024 (.send () ())) := by
  intro sparing
  have full := ((sparing _ rfl).2 _ rfl).2
  refine Intake.not_sparing_of_offers
    (fun pipeline : CoroutineService.SendPipeline Unit Unit =>
      pipeline.sendQue ≠ [] ∧ pipeline.deciding = []) trivial ?_ ⟨?_, rfl⟩ ?_ full
  · rintro pipeline ⟨waiting, decided⟩ room
    have small : pipeline.sendQue.length ≤ 1024 := room
    have small : pipeline.sendQue.length ≤ maxLength := Nat.le_trans small (by decide)
    have sent : CoroutineService.SendPipeline.step some pipeline (.send () ()) =
        some (pipeline.send some () ()) := by
      rw [CoroutineService.SendPipeline.step, decided]
      rfl
    rw [CoroutineService.SendPipeline.send_waiting small rfl waiting] at sent
    refine ⟨_, sent, ⟨?_, decided⟩, ?_⟩
    · simp
    · exact List.length_append
  · simp [CoroutineService.SendPipeline.send, CoroutineService.SendPipeline.opened,
      CoroutineService.SendPipeline.asyncWrite]
  · rfl

/-- As many messages as the capacity, and one more, come before any of them has been written. -/
theorem not_respects_full :
    ¬ (asyncServer (some : Unit → Option Unit)).Respects AsyncServer.maxSendque (.opened false)
        (List.replicate (AsyncServer.maxSendque + 1) (.send ())) ∧
    ¬ (asyncServerUseProtobuf (some : Unit → Option Unit)).Respects AsyncServerUseProtobuf.maxSendque
        (.opened false) (List.replicate (AsyncServerUseProtobuf.maxSendque + 1) (.send ())) ∧
    ¬ (coroutineService (some : Unit → Option Unit) :
        Intake (CoroutineService.SendPipeline Unit Unit) _ Unit).Respects CoroutineService.maxSendque
      .opened (.send () () :: .start 0 :: List.replicate 1024 (.send () ())) := by
  refine ⟨fun respects => ?_, fun respects => ?_, fun respects => ?_⟩
  · apply not_sparing_intake (by decide : AsyncServer.maxSendque < 2147483648)
    exact ((intake_overfull (by decide) some).respects_iff (Nat.zero_le _) _).mp respects
  · apply not_sparing_intake (by decide : AsyncServerUseProtobuf.maxSendque < 2147483648)
    exact ((intake_overfull (by decide) some).respects_iff (Nat.zero_le _) _).mp respects
  · apply not_sparing_coroutineService
    exact ((coroutineService_overfull some).respects_iff (Nat.zero_le _) _).mp respects

end Example

end BoostLearn.Soundness.Capacity
