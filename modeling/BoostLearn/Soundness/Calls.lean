import BoostLearn.Soundness.Consumption
import BoostLearn.Soundness.Delivery

/-! # What the receive loop calls

An iteration that leaves the handler has armed a read or removed the session as its last call, and
one that goes round the loop again has emitted a frame. So a run calls `ClearServer` at most once,
and nothing behind it. A read neither emits nor arms anything only when the first header that it
completes is rejected.
-/

namespace BoostLearn.Soundness.HandleRead

open CInt Memory Framing Framing.Format Model Model.HandleRead

variable {τ ε : Type} {codec : Codec τ ε} {data : Cells} {loop : Loop τ ε} {result : Next τ ε}

/-- Nothing is emitted and no read is armed. -/
def Quiet (calls : List (Effect ε)) : Prop := ∀ call ∈ calls, call = .clearServer

/-- What an iteration has added to the calls before it. -/
inductive Calls (before : List (Effect ε)) : Next τ ε → Prop
  | rearmed {session : Session τ} : Calls before (.returned ⟨session, before ++ [.asyncReadSome]⟩)
  | cleared {session : Session τ} : Calls before (.returned ⟨session, before ++ [.clearServer]⟩)
  | finished {session : Session τ} {out : ε} {after : FrameEnd} :
    Calls before (.returned ⟨session, before ++ [.emit out after, .asyncReadSome]⟩)
  | again {session : Session τ} {byteTransfered : ℕ} {copyLen : ℤ} {out : ε} {after : FrameEnd} :
    Calls before (.again ⟨session, byteTransfered, copyLen, before ++ [.emit out after]⟩)

theorem calls_frameDone (before : List (Effect ε)) (session : Session τ) (byteTransfered : ℕ)
    (copyLen : ℤ) (out : ε) (after : FrameEnd) :
    Calls before (Loop.frameDone ⟨session, byteTransfered, copyLen, before ++ [.emit out after]⟩) := by
  rw [Loop.frameDone]
  split_ifs
  · have finished := @Calls.finished _ _ before session out after
    rw [List.append_cons] at finished
    exact finished
  · exact .again

theorem startBody_calls {tag : τ} {msgLen : ℤ}
    (started : codec.startBody data loop tag msgLen = .ok result) : Calls loop.effects result := by
  rw [Codec.startBody] at started
  obtain ⟨node, -, started⟩ := ok_of_bind started
  split_ifs at started
  · obtain ⟨filled, -, started⟩ := ok_of_bind started
    cases started
    exact .rearmed
  · obtain ⟨filled, -, started⟩ := ok_of_bind started
    obtain ⟨terminated, -, started⟩ := ok_of_bind started
    obtain ⟨out, -, started⟩ := ok_of_bind started
    obtain ⟨head, -, started⟩ := ok_of_bind started
    cases started
    exact calls_frameDone ..

theorem startFrame_calls (started : codec.startFrame data loop = .ok result) :
    Calls loop.effects result := by
  rw [Codec.startFrame] at started
  split_ifs at started
  · obtain ⟨filled, -, started⟩ := ok_of_bind started
    cases started
    exact .rearmed
  · obtain ⟨filled, -, started⟩ := ok_of_bind started
    obtain ⟨fields, -, started⟩ := ok_of_bind started
    cases fields with
    | none =>
      cases started
      exact .cleared
    | some fields =>
      obtain ⟨tag, msgLen⟩ := fields
      dsimp only at started
      have calls := startBody_calls started
      exact calls

theorem continueBody_calls {node : RecvNode τ} (continued : codec.continueBody data loop node = .ok result) :
    Calls loop.effects result := by
  rw [Codec.continueBody] at continued
  dsimp only at continued
  split_ifs at continued
  · obtain ⟨filled, -, continued⟩ := ok_of_bind continued
    cases continued
    exact .rearmed
  · obtain ⟨filled, -, continued⟩ := ok_of_bind continued
    obtain ⟨out, -, continued⟩ := ok_of_bind continued
    cases continued
    exact calls_frameDone ..

theorem iteration_calls (done : codec.iteration data loop = .ok result) : Calls loop.effects result := by
  rw [Codec.iteration] at done
  split_ifs at done
  · split at done
    · exact continueBody_calls done
    · cases done
  · exact startFrame_calls done

section Run

variable {fuel : ℕ}

theorem calls_of_returned {done : Done τ ε} (positive : 0 < loop.byteTransfered)
    (step : codec.iteration data loop = .ok (.returned done)) :
    codec.calls data (fuel + 1) loop = done.effects := by
  rw [Codec.calls, if_pos positive, step]

theorem calls_of_error {fault : Fault} (step : codec.iteration data loop = .error fault) :
    codec.calls data (fuel + 1) loop = loop.effects := by
  rw [Codec.calls, step]
  exact ite_self _

/-- The calls of a run go on from those of its loop. -/
theorem calls_prefix (codec : Codec τ ε) (data : Cells) (fuel : ℕ) (loop : Loop τ ε) :
    loop.effects <+: codec.calls data fuel loop := by
  induction fuel generalizing loop with
  | zero => exact List.prefix_refl _
  | succ fuel ih =>
    rw [Codec.calls]
    split_ifs
    swap
    · exact List.prefix_refl _
    cases step : codec.iteration data loop with
    | error fault => exact List.prefix_refl _
    | ok result =>
      cases iteration_calls step with
      | rearmed => exact List.prefix_append ..
      | cleared => exact List.prefix_append ..
      | finished => exact List.prefix_append ..
      | again =>
        refine List.IsPrefix.trans ?_ (ih _)
        exact List.prefix_append ..

/-- What a completed frame has called is called, whether the loop is left or goes on. -/
theorem calls_of_frameDone {done : Loop τ ε} (positive : 0 < loop.byteTransfered)
    (step : codec.iteration data loop = .ok done.frameDone) :
    done.effects <+: codec.calls data (fuel + 1) loop := by
  rw [Codec.calls, if_pos positive, step, Loop.frameDone]
  split_ifs
  · exact List.prefix_append ..
  · exact calls_prefix codec data fuel done

/-- Nothing is called behind the removal of the session. -/
theorem calls_cleared (codec : Codec τ ε) (data : Cells) (fuel : ℕ) (loop : Loop τ ε)
    (silent : ∀ call ∈ loop.effects, call.isClear = false) :
    ∃ before, (∀ call ∈ before, call.isClear = false) ∧
      (codec.calls data fuel loop = before ∨ codec.calls data fuel loop = before ++ [.clearServer]) := by
  induction fuel generalizing loop with
  | zero => exact ⟨loop.effects, silent, Or.inl rfl⟩
  | succ fuel ih =>
    rw [Codec.calls]
    split_ifs
    swap
    · exact ⟨loop.effects, silent, Or.inl rfl⟩
    cases step : codec.iteration data loop with
    | error fault => exact ⟨loop.effects, silent, Or.inl rfl⟩
    | ok result =>
      cases iteration_calls step with
      | rearmed =>
        refine ⟨_, ?_, Or.inl rfl⟩
        simpa [or_imp, forall_and, Effect.isClear] using silent
      | cleared => exact ⟨loop.effects, silent, Or.inr rfl⟩
      | finished =>
        refine ⟨_, ?_, Or.inl rfl⟩
        simpa [or_imp, forall_and, Effect.isClear] using silent
      | again =>
        apply ih
        simpa [or_imp, forall_and, Effect.isClear] using silent

end Run

namespace Reader

variable {reader : Reader τ ε} {session : Session τ} {tag : τ} {length : ℕ} {held rest : List UInt8}
  {completion : Completion} {fuel : ℕ} {done : Done τ ε}

/-- A read inside a body that returns is still inside it, or at its end. -/
theorem InBody.returned (inBody : reader.InBody session tag length held)
    (returned : reader.codec.handleRead fuel session (some completion.bytes) = some (.ok done)) :
    ∃ held, reader.InBody done.session tag length held := by
  rcases Nat.lt_trichotomy (held.length + completion.bytes.length) length with more | ends | past
  · obtain ⟨next, inside, returns⟩ := handleRead_moreBody inBody completion more
    cases handleRead_same returned returns
    exact ⟨_, inside⟩
  · obtain rfl : length = (held ++ completion.bytes).length := by rw [List.length_append, ends]
    obtain ⟨next, after, -, inside, returns⟩ := handleRead_endBody completion inBody
    cases handleRead_same returned returns
    exact ⟨_, inside⟩
  · cases (handleRead_diverges fuel inBody completion past).symm.trans returned

/-- A read at a head that arms another one has found nothing that is rejected. -/
theorem AtHead.reading (atHead : reader.AtHead session held)
    (judged : reader.Judged (held ++ completion.bytes))
    (returned : reader.codec.handleRead fuel session (some completion.bytes) = some (.ok done))
    (reading : done.reading = true) :
    (reader.format.parse (held ++ completion.bytes)).rejected = none ∧
      reader.Holds done.session (reader.format.parse (held ++ completion.bytes)).tail := by
  obtain ⟨result, agrees, returns⟩ := handleRead_agrees atHead completion judged
  cases handleRead_same returned returns
  cases rejected : (reader.format.parse (held ++ completion.bytes)).rejected with
  | none =>
    rw [Agrees, rejected] at agrees
    obtain ⟨next, same, holds⟩ := agrees
    cases same
    exact ⟨rfl, holds⟩
  | some head =>
    rw [Agrees, rejected] at agrees
    by_cases refused : reader.refused head
    · obtain ⟨next, same⟩ := agrees.1 refused
      cases same
      obtain ⟨-, -, -, reads⟩ := emitted_calls reader
        (reader.format.parse (held ++ completion.bytes)).frames
      simp only [Done.reading, List.any_append, reads] at reading
      cases reading
    · obtain ⟨fault, failed⟩ := agrees.2 refused
      cases failed

/-- A read inside a body is not quiet. -/
theorem InBody.calls (inBody : reader.InBody session tag length held) (completion : Completion)
    (more : ℕ) : ¬ Quiet (reader.codec.handleReadCalls (more + 1) session (some completion.bytes)) := by
  intro quiet
  have pending := Pending.receive reader session completion
  by_cases missing : held.length + completion.bytes.length < length
  · obtain ⟨next, step, -⟩ := iteration_moreBody inBody pending missing
    rw [Codec.handleReadCalls, calls_of_returned completion.nonempty step] at quiet
    cases quiet .asyncReadSome (List.mem_singleton_self _)
  · obtain ⟨next, after, body, step, -, -, -, emits⟩ :=
      iteration_reachedEnd inBody pending (Nat.le_of_not_lt missing)
    have called : next.effects <+: reader.codec.handleReadCalls (more + 1) session (some completion.bytes) :=
      calls_of_frameDone completion.nonempty step
    rw [emits] at called
    cases quiet _ (called.subset (List.mem_singleton_self _))

variable (reader) in
/-- When the first head of a stream is rejected, the reader knows it as one of its two kinds. -/
def JudgesFirst (bytes : List UInt8) : Prop :=
  ∀ head rest, bytes = head ++ rest → head.length = reader.format.headLength →
    reader.format.verdict head = .reject → ¬ reader.refused head → reader.faulty head

/-- From a head, a loop is quiet exactly when the first header that it completes is rejected. -/
theorem quiet_iff (atHead : reader.AtHead loop.session held) (pending : Pending data loop rest)
    (unread : 0 < rest.length) (silent : loop.effects = []) (judged : reader.JudgesFirst (held ++ rest))
    (count : ℕ) : Quiet (reader.codec.calls data (count + 1) loop) ↔
      reader.format.RejectsFirst (held ++ rest) := by
  have positive : 0 < loop.byteTransfered := by
    rw [pending.count]
    exact unread
  rcases reader.format.stream_cases (held ++ rest) with less | ⟨head, behind, same, whole, outcome⟩
  · obtain ⟨next, step, -⟩ := iteration_partialHead atHead pending
      (by simpa only [List.length_append] using less)
    apply iff_of_false
    · intro quiet
      rw [calls_of_returned positive step] at quiet
      cases quiet .asyncReadSome List.mem_concat_self
    · rintro ⟨head, behind, same, whole, -⟩
      rw [same, List.length_append] at less
      omega
  · have first (rejects : reader.format.RejectsFirst (held ++ rest)) :
        reader.format.verdict head = .reject := by
      obtain ⟨other, more, again, size, reject⟩ := rejects
      obtain ⟨rfl, -⟩ := List.append_inj (same.symm.trans again) (whole.trans size.symm)
      exact reject
    rcases outcome with reject | ⟨tag, length, verdict, missing⟩ | ⟨tag, body, more, verdict, rfl⟩
    · refine iff_of_true ?_ ⟨head, behind, same, whole, reject⟩
      by_cases refused : reader.refused head
      · obtain ⟨next, step⟩ :=
          iteration_refusedHead atHead pending same.symm whole reject refused
        rw [calls_of_returned positive step, silent]
        exact fun call member => List.mem_singleton.mp member
      · obtain ⟨fault, step⟩ := iteration_faultyHead atHead pending same.symm whole reject refused
          (judged head behind same whole reject refused)
        rw [calls_of_error step, silent]
        exact fun call member => absurd member List.not_mem_nil
    · obtain ⟨next, step, -⟩ := iteration_openFrame atHead pending same.symm whole verdict missing
      refine iff_of_false (fun quiet => ?_) fun rejects => ?_
      · rw [calls_of_returned positive step] at quiet
        cases quiet .asyncReadSome List.mem_concat_self
      · cases (first rejects).symm.trans verdict
    · obtain ⟨next, step, -, -, emits⟩ := iteration_wholeFrame atHead pending same.symm whole verdict
      refine iff_of_false (fun quiet => ?_) fun rejects => ?_
      · have called : next.effects <+: reader.codec.calls data (count + 1) loop :=
          calls_of_frameDone positive step
        rw [emits] at called
        cases quiet _ (called.subset List.mem_concat_self)
      · cases (first rejects).symm.trans verdict

/-- A read at a head is quiet exactly when the first header that it completes is rejected. -/
theorem AtHead.calls (atHead : reader.AtHead session held)
    (judged : reader.JudgesFirst (held ++ completion.bytes)) (more : ℕ) :
    Quiet (reader.codec.handleReadCalls (more + 1) session (some completion.bytes)) ↔
      reader.format.RejectsFirst (held ++ completion.bytes) :=
  quiet_iff atHead (.receive reader session completion) completion.nonempty rfl judged more

end Reader

end BoostLearn.Soundness.HandleRead
