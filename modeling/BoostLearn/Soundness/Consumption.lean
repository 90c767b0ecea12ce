import BoostLearn.Soundness.HandleRead

/-! # What an iteration of the receive loop consumes

An iteration that goes round the loop again has moved both counters by the same amount. Between
frames and inside a header the amount is positive; inside a body it is what is missing of the body,
and afterwards nothing is missing. How a loop ends does not depend on its fuel.
-/

namespace BoostLearn.Soundness.HandleRead

open CInt Memory Framing Framing.Format Model Model.HandleRead

variable {τ ε : Type} {codec : Codec τ ε} {data : Cells} {loop next : Loop τ ε}

/-- The loop goes on with this many bytes less. -/
structure Consumes (loop next : Loop τ ε) (count : ℕ) : Prop where
  transfered : next.byteTransfered + count = loop.byteTransfered
  copied : next.copyLen = loop.copyLen + count

theorem again_of_frameDone {done : Loop τ ε} (again : done.frameDone = .again next) :
    next = done := by
  rw [Loop.frameDone] at again
  split_ifs at again
  · cases again
  · cases again
    rfl

theorem startBody_again {tag : τ} {msgLen : ℤ}
    (again : codec.startBody data loop tag msgLen = .ok (.again next)) :
    toSizeT msgLen ≤ loop.byteTransfered ∧
      next.byteTransfered = toSizeT (loop.byteTransfered - msgLen) ∧
      next.copyLen = loop.copyLen + msgLen ∧
      next.session.bHeadParse = false ∧ next.session.recvHeadNode.curLen = 0 := by
  rw [Codec.startBody] at again
  obtain ⟨node, -, again⟩ := ok_of_bind again
  split_ifs at again with unfinished
  · obtain ⟨filled, -, again⟩ := ok_of_bind again
    cases again
  · obtain ⟨filled, -, again⟩ := ok_of_bind again
    obtain ⟨terminated, -, again⟩ := ok_of_bind again
    obtain ⟨out, -, again⟩ := ok_of_bind again
    obtain ⟨head, cleared, again⟩ := ok_of_bind again
    obtain ⟨zeroed, -, cleared⟩ := ok_of_bind cleared
    cases cleared
    rw [again_of_frameDone (Except.ok.inj again)]
    exact ⟨Nat.not_lt.mp unfinished, rfl, rfl, rfl, rfl⟩

/-- A continued body that is complete has taken what was missing of it. -/
theorem continueBody_again {node : RecvNode τ}
    (again : codec.continueBody data loop node = .ok (.again next)) :
    toSizeT (node.maxLen - node.curLen) ≤ loop.byteTransfered ∧
      next.byteTransfered = toSizeT (loop.byteTransfered - (node.maxLen - node.curLen)) ∧
      next.copyLen = loop.copyLen + (node.maxLen - node.curLen) := by
  rw [Codec.continueBody] at again
  dsimp only at again
  split_ifs at again with unfinished
  · obtain ⟨filled, -, again⟩ := ok_of_bind again
    cases again
  · obtain ⟨filled, -, again⟩ := ok_of_bind again
    obtain ⟨out, -, again⟩ := ok_of_bind again
    rw [again_of_frameDone (Except.ok.inj again)]
    exact ⟨Nat.not_lt.mp unfinished, rfl, rfl⟩

theorem startFrame_again (again : codec.startFrame data loop = .ok (.again next)) :
    ∃ filled tag msgLen body,
      toSizeT codec.headLen ≤ toSizeT (loop.byteTransfered + loop.session.recvHeadNode.curLen) ∧
      codec.header filled = .ok (some (tag, msgLen)) ∧
      body.byteTransfered =
        toSizeT (loop.byteTransfered - (codec.headLen - loop.session.recvHeadNode.curLen)) ∧
      body.copyLen = loop.copyLen + (codec.headLen - loop.session.recvHeadNode.curLen) ∧
      codec.startBody data body tag msgLen = .ok (.again next) := by
  rw [Codec.startFrame] at again
  split_ifs at again with partialHead
  · obtain ⟨filled, -, again⟩ := ok_of_bind again
    cases again
  · obtain ⟨filled, -, again⟩ := ok_of_bind again
    obtain ⟨fields, header, again⟩ := ok_of_bind again
    cases fields with
    | none => cases again
    | some fields =>
      obtain ⟨tag, msgLen⟩ := fields
      exact ⟨filled, tag, msgLen, _, Nat.not_lt.mp partialHead, header, rfl, rfl, again⟩

/-- The head cursor of a loop that is not inside a body, and the bytes it has left. -/
structure Ahead (codec : Codec τ ε) (loop : Loop τ ε) : Prop where
  flag : loop.session.bHeadParse = false
  cursor : 0 ≤ loop.session.recvHeadNode.curLen
  inside : loop.session.recvHeadNode.curLen < codec.headLen
  bounded : loop.byteTransfered ≤ maxLength

theorem ahead_of_atHead {reader : Reader τ ε} {held rest : List UInt8} {loop : Loop τ ε}
    (atHead : reader.AtHead loop.session held) (pending : Pending data loop rest) :
    Ahead reader.codec loop := by
  have short := atHead.short
  refine ⟨atHead.flag, ?_, ?_, ?_⟩
  · rw [atHead.cursor]
    exact Int.natCast_nonneg _
  · rw [atHead.cursor, reader.headLen]
    exact Int.ofNat_lt.mpr short
  · rw [pending.count]
    exact pending.bound

/-- The header is small, and its checks leave only small lengths. -/
structure Limited (codec : Codec τ ε) : Prop where
  headLen : codec.headLen ≤ maxLength
  header : ∀ {filled : Cells} {tag : τ} {msgLen : ℤ}, codec.header filled = .ok (some (tag, msgLen)) →
    -32768 ≤ msgLen ∧ msgLen ≤ maxLength

/-- Between frames and inside a header, another iteration has fewer bytes left. -/
theorem Ahead.again (limited : Limited codec) (ahead : Ahead codec loop)
    (again : codec.iteration data loop = .ok (.again next)) :
    Ahead codec next ∧ ∃ count, 0 < count ∧ Consumes loop next count := by
  obtain ⟨flag, cursor, inside, bounded⟩ := ahead
  rw [Codec.iteration, if_neg (by rw [flag]; exact Bool.false_ne_true)] at again
  obtain ⟨filled, tag, msgLen, body, whole, header, left, moved, started⟩ := startFrame_again again
  obtain ⟨fits, last, copied, reset, zero⟩ := startBody_again started
  have small := limited.headLen
  obtain ⟨low, high⟩ := limited.header header
  simp only [maxLength] at bounded small high
  rw [toSizeT_of_range (by omega) (by omega), toSizeT_of_range (by omega) (by omega)] at whole
  rw [toSizeT_of_range (by omega) (by omega)] at left
  have nonneg : 0 ≤ msgLen := nonneg_of_toSizeT (by omega) (by omega)
  rw [toSizeT_of_range nonneg (by omega)] at fits
  rw [toSizeT_of_range (by omega) (by omega)] at last
  refine ⟨⟨reset, Int.le_of_eq zero.symm, by rw [zero]; omega, ?_⟩,
    (codec.headLen - loop.session.recvHeadNode.curLen + msgLen).toNat, by omega, ?_, ?_⟩
  · simp only [maxLength]
    omega
  · omega
  · omega

/-- A loop that has ended is not changed by more fuel. -/
theorem runLoop_more {fuel more : ℕ} (enough : fuel ≤ more) {result : Except Fault (Done τ ε)} :
    ∀ {loop : Loop τ ε}, codec.runLoop data fuel loop = some result →
      codec.runLoop data more loop = some result := by
  induction fuel generalizing more with
  | zero =>
    intro loop ended
    cases ended
  | succ fuel ih =>
    intro loop ended
    obtain ⟨less, rfl⟩ : ∃ less, more = less + 1 := ⟨more - 1, by omega⟩
    rw [Codec.runLoop] at ended ⊢
    split_ifs at ended ⊢ with unread
    · cases step : codec.iteration data loop with
      | error fault =>
        rw [step] at ended
        exact ended
      | ok after =>
        rw [step] at ended
        cases after with
        | returned done => exact ended
        | again next => exact ih (by omega) ended
    · exact ended

/-- The result of a handler does not depend on its fuel. -/
theorem handleRead_same {session : Session τ} {completion : Option (List UInt8)} {fuel bound : ℕ}
    {first second : Except Fault (Done τ ε)}
    (returned : codec.handleRead fuel session completion = some first)
    (returns : ∀ fuel, bound < fuel → codec.handleRead fuel session completion = some second) :
    first = second := by
  have settled := returns (fuel + bound + 1) (by omega)
  cases completion with
  | none => exact Option.some.inj (returned.symm.trans settled)
  | some bytes =>
    rw [Codec.handleRead, runLoop_more (by omega) returned] at settled
    exact Option.some.inj settled

end BoostLearn.Soundness.HandleRead
