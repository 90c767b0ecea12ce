import BoostLearn.Core.Replay
import BoostLearn.Model.MsgNode

/-! # Sending in AsyncServer

Both overloads of `Session::Send` reset `_send_pending` before they take the lock, and then test
the size, push, test the flag and start a write under it. The reset of one thread may fall between
any two steps of another. `handle_write` runs under the lock. The threads, the messages and the
construction of a node, which may throw, are arbitrary.
-/

namespace BoostLearn.Model.AsyncServer

open CInt

def maxSendque : ℕ := 1000

/-- What the thread that holds `_send_lock` does next. -/
inductive Held (μ : Type) where
  /-- It has tested the size and is about to push. -/
  | tested (message : μ)
  /-- It has found the flag clear and is about to start a write. -/
  | pushed
deriving DecidableEq, Repr

/-- The members of `Session` that sending uses, the threads that have reset the flag and wait for
the lock, the outstanding writes, and the history. -/
structure SendPipeline (τ μ ν : Type) where
  sendQueue : List ν
  sendPending : Bool
  sendLock : Option (τ × Held μ)
  waiting : List (τ × μ)
  inflight : List ν
  enqueued : List ν
  completed : List ν
deriving DecidableEq, Repr

namespace SendPipeline

variable {τ μ ν : Type}

/-- The constructor leaves `_send_pending` with any value. -/
def opened (sendPending : Bool) : SendPipeline τ μ ν := ⟨[], sendPending, none, [], [], [], []⟩

/-- `_send_pending = false`, before the lock is taken. -/
def reset (pipeline : SendPipeline τ μ ν) (thread : τ) (message : μ) : SendPipeline τ μ ν :=
  { pipeline with
    sendPending := false
    waiting := pipeline.waiting ++ [(thread, message)] }

/-- The two tests of the size: the queue may be full, or the flag may have to be set. -/
def test (pipeline : SendPipeline τ μ ν) (thread : τ) (message : μ) : SendPipeline τ μ ν :=
  let sendQueSize := toInt pipeline.sendQueue.length
  if sendQueSize > maxSendque then pipeline
  else
    { pipeline with
      sendPending := if pipeline.sendQueue.length > 0 then true else pipeline.sendPending
      sendLock := some (thread, .tested message) }

/-- The push and the test of the flag; a node that cannot be built releases the lock. -/
def push (newSendNode : μ → Option ν) (pipeline : SendPipeline τ μ ν) (thread : τ) (message : μ) :
    SendPipeline τ μ ν :=
  match newSendNode message with
  | none => { pipeline with sendLock := none }
  | some node =>
    { pipeline with
      sendQueue := pipeline.sendQueue ++ [node]
      enqueued := pipeline.enqueued ++ [node]
      sendLock := if pipeline.sendPending then none else some (thread, .pushed) }

/-- `asio::async_write` on the front of the queue. -/
def asyncWrite (pipeline : SendPipeline τ μ ν) : SendPipeline τ μ ν :=
  { pipeline with inflight := pipeline.inflight ++ pipeline.sendQueue.take 1 }

/-- The end of `Send`: start a write and release the lock. -/
def start (pipeline : SendPipeline τ μ ν) : SendPipeline τ μ ν :=
  { pipeline.asyncWrite with sendLock := none }

/-- `Session::handle_write` without an error. -/
def handleWrite (pipeline : SendPipeline τ μ ν) : SendPipeline τ μ ν :=
  let pipeline := { pipeline with sendQueue := pipeline.sendQueue.tail }
  if pipeline.sendQueue.length > 0 then pipeline.asyncWrite else pipeline

section Steps

variable {newSendNode : μ → Option ν} {pipeline : SendPipeline τ μ ν} {thread : τ} {message : μ}
  {node : ν}

theorem push_unbuilt (unbuilt : newSendNode message = none) :
    pipeline.push newSendNode thread message = { pipeline with sendLock := none } := by
  simp only [push, unbuilt]

theorem push_pending (built : newSendNode message = some node) (flag : pipeline.sendPending = true) :
    pipeline.push newSendNode thread message =
      { pipeline with
        sendQueue := pipeline.sendQueue ++ [node]
        enqueued := pipeline.enqueued ++ [node]
        sendLock := none } := by
  simp only [push, built, flag, if_true]

theorem push_clear (built : newSendNode message = some node) (flag : pipeline.sendPending = false) :
    pipeline.push newSendNode thread message =
      { pipeline with
        sendQueue := pipeline.sendQueue ++ [node]
        enqueued := pipeline.enqueued ++ [node]
        sendLock := some (thread, .pushed) } := by
  simp only [push, built, flag, Bool.false_eq_true, if_false]

/-- A completed write starts the next one, if there is one. -/
theorem handleWrite_eq (pipeline : SendPipeline τ μ ν) :
    pipeline.handleWrite =
      { pipeline with
        sendQueue := pipeline.sendQueue.tail
        inflight := pipeline.inflight ++ pipeline.sendQueue.tail.take 1 } := by
  rw [handleWrite]
  cases rest : pipeline.sendQueue.tail with
  | nil => simp only [List.length_nil, gt_iff_lt, Nat.lt_irrefl, if_false, List.take_nil, List.append_nil]
  | cons next more =>
    simp only [List.length_cons, gt_iff_lt, Nat.zero_lt_succ, if_true, asyncWrite]

end Steps

/-- The steps of a thread inside `Send`, and the completion of a write. -/
inductive Action (τ μ : Type) where
  | reset (thread : τ) (message : μ)
  | test (index : ℕ)
  | push
  | start
  | written (index : ℕ)

variable [DecidableEq τ]

def step (newSendNode : μ → Option ν) (pipeline : SendPipeline τ μ ν) :
    Action τ μ → Option (SendPipeline τ μ ν)
  | .reset thread message =>
    if thread ∈ pipeline.waiting.map Prod.fst ∨ some thread = pipeline.sendLock.map Prod.fst then none
    else some (pipeline.reset thread message)
  | .test index =>
    match pipeline.sendLock with
    | some _ => none
    | none =>
      pipeline.waiting[index]?.map fun (thread, message) =>
        test { pipeline with waiting := pipeline.waiting.eraseIdx index } thread message
  | .push =>
    match pipeline.sendLock with
    | some (thread, .tested message) => some (pipeline.push newSendNode thread message)
    | _ => none
  | .start =>
    match pipeline.sendLock with
    | some (_, .pushed) => some pipeline.start
    | _ => none
  | .written index =>
    match pipeline.sendLock with
    | some _ => none
    | none =>
      pipeline.inflight[index]?.map fun node =>
        handleWrite { pipeline with
          inflight := pipeline.inflight.eraseIdx index
          completed := pipeline.completed ++ [node] }

/-- What a step can be, and when. -/
theorem step_cases {newSendNode : μ → Option ν} {pipeline target : SendPipeline τ μ ν}
    {action : Action τ μ} (taken : step newSendNode pipeline action = some target) :
    (∃ thread message, action = .reset thread message ∧ target = pipeline.reset thread message) ∨
    (∃ index thread message, action = .test index ∧ pipeline.sendLock = none ∧
      target = test { pipeline with waiting := pipeline.waiting.eraseIdx index } thread message) ∨
    (∃ thread message, action = .push ∧ pipeline.sendLock = some (thread, .tested message) ∧
      target = pipeline.push newSendNode thread message) ∨
    (∃ thread, action = .start ∧ pipeline.sendLock = some (thread, .pushed) ∧
      target = pipeline.start) ∨
    ∃ index node, action = .written index ∧ pipeline.sendLock = none ∧
      pipeline.inflight[index]? = some node ∧
      target = handleWrite { pipeline with
        inflight := pipeline.inflight.eraseIdx index
        completed := pipeline.completed ++ [node] } := by
  cases action with
  | reset thread message =>
    simp only [step] at taken
    split_ifs at taken
    exact .inl ⟨thread, message, rfl, (Option.some.inj taken).symm⟩
  | test index =>
    cases free : pipeline.sendLock with
    | some holder => simp only [step, free, reduceCtorEq] at taken
    | none =>
      simp only [step, free] at taken
      obtain ⟨⟨thread, message⟩, -, rfl⟩ := Option.map_eq_some_iff.mp taken
      refine .inr (.inl ⟨index, thread, message, rfl, rfl, ?_⟩)
      simp only
  | push =>
    cases held : pipeline.sendLock with
    | none => simp only [step, held, reduceCtorEq] at taken
    | some holder =>
      obtain ⟨thread, phase⟩ := holder
      cases phase with
      | tested message =>
        simp only [step, held, Option.some.injEq] at taken
        exact .inr (.inr (.inl ⟨thread, message, rfl, rfl, taken.symm⟩))
      | pushed => simp only [step, held, reduceCtorEq] at taken
  | start =>
    cases held : pipeline.sendLock with
    | none => simp only [step, held, reduceCtorEq] at taken
    | some holder =>
      obtain ⟨thread, phase⟩ := holder
      cases phase with
      | tested message => simp only [step, held, reduceCtorEq] at taken
      | pushed =>
        simp only [step, held, Option.some.injEq] at taken
        exact .inr (.inr (.inr (.inl ⟨thread, rfl, rfl, taken.symm⟩)))
  | written index =>
    cases free : pipeline.sendLock with
    | some holder => simp only [step, free, reduceCtorEq] at taken
    | none =>
      simp only [step, free] at taken
      obtain ⟨node, outstanding, rfl⟩ := Option.map_eq_some_iff.mp taken
      refine .inr (.inr (.inr (.inr ⟨index, node, rfl, rfl, outstanding, ?_⟩)))
      simp only

end SendPipeline

end BoostLearn.Model.AsyncServer
