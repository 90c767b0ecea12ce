import BoostLearn.Core.Replay
import BoostLearn.Model.AsyncServer.Removal
import BoostLearn.Soundness.AsyncServer.Decode
import BoostLearn.Soundness.Calls

/-! # When the removal of a session of AsyncServer is final

`handle_read` removes its session as its last call. After a failed write a read is still outstanding,
and when it completes the session goes on as if it had not been removed, unless the first thing that
the read completes is a header behind which nothing goes on: one that is refused, or one whose length is
below -1, for which `new` throws. A header with the length -1 is neither.
-/

namespace BoostLearn.Soundness.AsyncServer

open CInt Memory Framing Framing.Format Replay Model Model.HandleRead Model.AsyncServer Model.Wire
open Soundness.HandleRead Soundness.HandleRead.Reader

variable {τ : Type}

/-- Since the session was removed, no read has posted a message or armed another read. -/
def RemovalFinal (life : Life τ) : Prop := life.late = []

/-- The part of a header that the session holds. -/
def heldBytes (session : HandleRead.Session ℤ) : List UInt8 :=
  (session.recvHeadNode.data.take session.recvHeadNode.curLen.toNat).filterMap id

/-- The bytes begin with a header that is refused, or for which there is no array. -/
def StopsFirst : List UInt8 → Prop
  | idHigh :: idLow :: lenHigh :: lenLow :: _ =>
    maxLength < bigEndianShort idHigh idLow ∨ maxLength < bigEndianShort lenHigh lenLow ∨
      bigEndianShort lenHigh lenLow < -1
  | _ => False

/-- A read that succeeds behind the removal is not inside a body, and completes a header behind which nothing
goes on. -/
def OnlyStops (life : Life τ) : Life.Event τ → Prop
  | .handleRead (some completion) _ =>
    life.session.cleared = true →
      life.session.receiving.bHeadParse = false ∧
        StopsFirst (heldBytes life.session.receiving ++ completion.bytes)
  | _ => True

/-- A session that waits for a read is at a head or inside a body. -/
def Waits (session : HandleRead.Session ℤ) : Prop :=
  (∃ held, reader.AtHead session held) ∨ ∃ tag length held, reader.InBody session tag length held

/-- The session is inside a body of length -1. -/
def Astray (session : HandleRead.Session ℤ) : Prop := (strayCursor? session).isSome = true

section Read

variable {session : HandleRead.Session ℤ} {held : List UInt8} {tag : ℤ} {length : ℕ}

theorem heldBytes_atHead (atHead : reader.AtHead session held) : heldBytes session = held := by
  obtain ⟨room, layout, -⟩ := atHead.layout
  have first : session.recvHeadNode.data.take held.length = held.map some := by
    rw [layout]
    exact List.take_left' (List.length_map _)
  rw [heldBytes, atHead.cursor, Int.toNat_natCast, first, List.filterMap_map]
  exact List.filterMap_some

theorem Waits.inside (waits : Waits session) : strayCursor? session = none := by
  rcases waits with ⟨held, atHead⟩ | ⟨tag, length, held, inBody⟩
  · rw [strayCursor?, atHead.flag, if_neg Bool.false_ne_true]
  · rw [strayCursor?, inBody.flag, if_pos rfl, inBody.node]
    change (if (length : ℤ) = -1 then some (held.length : ℤ) else none) = none
    exact if_neg (by omega)

/-- A handler that arms another read leaves a session that waits for it. -/
theorem Waits.read (waits : Waits session) {completion : Option Completion} {fuel : ℕ}
    {done : Done ℤ (ℤ × List UInt8)}
    (returned : codec.handleRead fuel session (completion.map (·.bytes)) = some (.ok done))
    (reading : done.reading = true) : Waits done.session := by
  cases completion with
  | none =>
    cases returned
    cases reading
  | some completion =>
    rcases waits with ⟨held, atHead⟩ | ⟨tag, length, held, inBody⟩
    · obtain ⟨-, atNext | ⟨-, body, tag, length, -, -, -, -, inside⟩⟩ :=
        atHead.reading (fun _ _ _ => trivial) returned reading
      · exact Or.inl ⟨_, atNext⟩
      · exact Or.inr ⟨tag, length, body, inside⟩
    · obtain ⟨more, inside⟩ := inBody.returned returned
      exact Or.inr ⟨tag, length, more, inside⟩

end Read

section Stray

variable {data : Cells} {loop : Loop ℤ (ℤ × List UInt8)} {result : Next ℤ (ℤ × List UInt8)} {tag length : ℤ}

theorem strayNode_of_ne (other : length ≠ -1) : strayCodec.newNode length = MsgNode.new length := if_neg other

theorem strayNode_negOne : strayCodec.newNode (-1) = .ok ⟨0, -1, List.replicate maxLength none⟩ := by
  simp only [strayCodec, strayNode, if_true]

/-- Other lengths are as they are elsewhere. -/
theorem startBody_stray (other : length ≠ -1) :
    strayCodec.startBody data loop tag length = codec.startBody data loop tag length := by
  rw [Codec.startBody, strayNode_of_ne other]
  rfl

/-- Behind a header with the length -1 another read is armed, inside the body of that length. -/
theorem startBody_astray (started : strayCodec.startBody data loop tag (-1) = .ok result) :
    ∃ session, result = .returned ⟨session, loop.effects ++ [.asyncReadSome]⟩ ∧ Astray session := by
  rw [Codec.startBody, bind_of_ok strayNode_negOne] at started
  dsimp only at started
  split_ifs at started
  · obtain ⟨filled, -, started⟩ := ok_of_bind started
    cases started
    exact ⟨_, rfl, rfl⟩
  · obtain ⟨filled, copied, -⟩ := ok_of_bind started
    have outside : memcpy (List.replicate maxLength none) 0 data loop.copyLen (toSizeT (-1)) =
        .error .outOfBounds := memcpy_outside (by rw [List.length_replicate]; decide)
    cases outside.symm.trans copied

/-- No node of length -1 is built elsewhere. -/
theorem startBody_strict (started : codec.startBody data loop tag length = .ok result) : length ≠ -1 := by
  rintro rfl
  obtain ⟨fault, failed⟩ := MsgNode.new_of_negative (by decide : (-1 : ℤ) < 0)
  rw [Codec.startBody, bind_of_error (show codec.newNode (-1) = .error fault from failed)] at started
  contradiction

theorem startFrame_stray (started : strayCodec.startFrame data loop = .ok result) :
    codec.startFrame data loop = .ok result ∨
      ∃ session, result = .returned ⟨session, loop.effects ++ [.asyncReadSome]⟩ ∧ Astray session := by
  rw [Codec.startFrame] at started
  dsimp only at started
  split_ifs at started with less
  · exact .inl ((if_pos less).trans started)
  · obtain ⟨filled, copied, started⟩ := ok_of_bind started
    obtain ⟨fields, header, started⟩ := ok_of_bind started
    have same {last : Next ℤ (ℤ × List UInt8)} (strict : _ = Except.ok last) :
        codec.startFrame data loop = .ok last :=
      (if_neg less).trans ((bind_of_ok copied _).trans ((bind_of_ok header _).trans strict))
    cases fields with
    | none => exact .inl (same started)
    | some fields =>
      obtain ⟨tag, length⟩ := fields
      dsimp only at started
      by_cases astray : length = -1
      · subst astray
        have gone := startBody_astray started
        exact .inr gone
      · exact .inl (same ((startBody_stray astray).symm.trans started))

theorem startFrame_strict (started : codec.startFrame data loop = .ok result) :
    strayCodec.startFrame data loop = .ok result := by
  rw [Codec.startFrame] at started
  dsimp only at started
  split_ifs at started with less
  · exact (if_pos less).trans started
  · obtain ⟨filled, copied, started⟩ := ok_of_bind started
    obtain ⟨fields, header, started⟩ := ok_of_bind started
    have same {last : Next ℤ (ℤ × List UInt8)} (strict : _ = Except.ok last) :
        strayCodec.startFrame data loop = .ok last :=
      (if_neg less).trans ((bind_of_ok copied _).trans ((bind_of_ok header _).trans strict))
    cases fields with
    | none => exact same started
    | some fields =>
      obtain ⟨tag, length⟩ := fields
      dsimp only at started
      exact same ((startBody_stray (startBody_strict started)).trans started)

theorem iteration_strict (done : codec.iteration data loop = .ok result) :
    strayCodec.iteration data loop = .ok result := by
  rw [Codec.iteration] at done ⊢
  split_ifs at done ⊢ with flag
  · exact done
  · exact startFrame_strict done

/-- An iteration is as elsewhere, or it has gone astray and has armed another read. -/
theorem iteration_stray (done : strayCodec.iteration data loop = .ok result) :
    codec.iteration data loop = .ok result ∨
      ∃ session, result = .returned ⟨session, loop.effects ++ [.asyncReadSome]⟩ ∧ Astray session := by
  rw [Codec.iteration] at done ⊢
  split_ifs at done ⊢ with flag
  · exact .inl done
  · exact startFrame_stray done

end Stray

section Run

variable {data : Cells} {loop : Loop ℤ (ℤ × List UInt8)} {session : HandleRead.Session ℤ} {fuel : ℕ}
  {done : Done ℤ (ℤ × List UInt8)}

theorem run_stray (run : strayCodec.runLoop data fuel loop = some (.ok done)) :
    codec.runLoop data fuel loop = some (.ok done) ∨ Astray done.session ∧ done.reading = true := by
  induction fuel generalizing loop with
  | zero => cases run
  | succ fuel ih =>
    rw [Codec.runLoop] at run ⊢
    split_ifs at run ⊢ with unread
    · cases step : strayCodec.iteration data loop with
      | error fault =>
        rw [step] at run
        cases run
      | ok result =>
        rw [step] at run
        rcases iteration_stray step with strict | ⟨session, rfl, astray⟩
        · rw [strict]
          cases result with
          | returned last => exact .inl run
          | again next => exact ih run
        · cases run
          refine .inr ⟨astray, ?_⟩
          simp only [Done.reading, List.any_append, List.any_cons, Effect.isRead, Bool.true_or, Bool.or_true]
    · exact .inl run

/-- A handler that returns does what it does elsewhere, or leaves the session astray behind another read. -/
theorem handleRead_stray {completion : Option Completion}
    (returned : strayCodec.handleRead fuel session (completion.map (·.bytes)) = some (.ok done)) :
    codec.handleRead fuel session (completion.map (·.bytes)) = some (.ok done) ∨
      Astray done.session ∧ done.reading = true := by
  cases completion with
  | none => exact .inl returned
  | some completion => exact run_stray returned

theorem run_strict (run : codec.runLoop data fuel loop = some (.ok done)) :
    strayCodec.runLoop data fuel loop = some (.ok done) := by
  induction fuel generalizing loop with
  | zero => cases run
  | succ fuel ih =>
    rw [Codec.runLoop] at run ⊢
    split_ifs at run ⊢ with unread
    · cases step : codec.iteration data loop with
      | error fault =>
        rw [step] at run
        cases run
      | ok result =>
        rw [step] at run
        rw [iteration_strict step]
        cases result with
        | returned last => exact run
        | again next => exact ih run
    · exact run

end Run

section Quiet

variable {data : Cells} {loop : Loop ℤ (ℤ × List UInt8)} {session : HandleRead.Session ℤ}
  {held rest bytes : List UInt8} {tag : ℤ}

/-- The bytes begin with a header of length -1 that is not refused. -/
def StraysFirst : List UInt8 → Prop
  | idHigh :: idLow :: lenHigh :: lenLow :: _ =>
    bigEndianShort idHigh idLow ≤ maxLength ∧ bigEndianShort lenHigh lenLow = -1
  | _ => False

theorem not_rejectsFirst_of_short (short : bytes.length < headTotalLen) : ¬ Spec.asyncServer.RejectsFirst bytes := by
  rintro ⟨head, behind, rfl, whole, -⟩
  have size : head.length = headTotalLen := whole
  rw [List.length_append] at short
  omega

/-- A header that the framing rejects is one behind which nothing goes on, unless it leads astray. -/
theorem stopsFirst_iff : StopsFirst bytes ↔ Spec.asyncServer.RejectsFirst bytes ∧ ¬ StraysFirst bytes := by
  have never (short : bytes.length < headTotalLen) (stops : ¬ StopsFirst bytes) :
      StopsFirst bytes ↔ Spec.asyncServer.RejectsFirst bytes ∧ ¬ StraysFirst bytes :=
    iff_of_false stops fun rejects => not_rejectsFirst_of_short short rejects.1
  rcases bytes with _ | ⟨idHigh, _ | ⟨idLow, _ | ⟨lenHigh, _ | ⟨lenLow, more⟩⟩⟩⟩
  · exact never (Nat.le_of_ble_eq_true rfl) id
  · exact never (Nat.le_of_ble_eq_true rfl) id
  · exact never (Nat.le_of_ble_eq_true rfl) id
  · exact never (Nat.le_of_ble_eq_true rfl) id
  have rejects : Spec.asyncServer.RejectsFirst (idHigh :: idLow :: lenHigh :: lenLow :: more) ↔
      Spec.asyncServer.verdict [idHigh, idLow, lenHigh, lenLow] = .reject := by
    constructor
    · rintro ⟨head, behind, same, whole, reject⟩
      obtain ⟨_, _, _, _, rfl⟩ := Spec.two_fields whole
      cases same
      exact reject
    · exact fun reject => ⟨_, more, rfl, rfl, reject⟩
  rw [rejects, Spec.asyncServer_reject]
  simp only [StopsFirst, StraysFirst, maxLength]
  omega

/-- Receiving with nodes of length -1 is a reader that faults only below. -/
def strayReader : Reader ℤ (ℤ × List UInt8) := { reader with
  codec := strayCodec
  faulty := StopsFirst
  fault := by
    intro head rest whole _ accepted stops
    obtain ⟨idHigh, idLow, lenHigh, lenLow, rfl⟩ := Spec.two_fields whole
    have low : bigEndianShort lenHigh lenLow < -1 := by
      rcases stops with id | length | low
      · exact absurd (Or.inl id) accepted
      · exact absurd (Or.inr length) accepted
      · exact low
    obtain ⟨fault, failed⟩ := MsgNode.new_of_negative (Int.lt_trans low (by decide))
    refine ⟨bigEndianShort idHigh idLow, bigEndianShort lenHigh lenLow, fault,
      (header_of_fields ..).trans ?_, ?_⟩
    · rw [if_neg (fun id => accepted (Or.inl id)), if_neg (fun length => accepted (Or.inr length))]
    · exact (strayNode_of_ne (Int.ne_of_lt low)).trans failed
  newNode := by
    intro length _
    have other : (length : ℤ) ≠ -1 := by omega
    exact (strayNode_of_ne other).trans (MsgNode.new_of_nonneg length) }

/-- A copy into a node of length -1 is made, and another read is armed. -/
theorem startBody_goes (pending : Pending data loop rest) (tag : ℤ) :
    ∃ session, strayCodec.startBody data loop tag (-1) =
      .ok (.returned ⟨session, loop.effects ++ [.asyncReadSome]⟩) := by
  have bound := pending.bound
  have copied := pending.memcpy_all [] (List.replicate maxLength none) (by rwa [List.length_replicate])
  simp only [List.map_nil, List.nil_append, List.length_nil, Int.natCast_zero] at copied
  have less : loop.byteTransfered < toSizeT (-1) := by
    rw [pending.count]
    exact Nat.lt_of_le_of_lt bound (by decide)
  simp only [Codec.startBody, strayNode_negOne, bind, Except.bind]
  rw [if_pos less, copied]
  exact ⟨_, rfl⟩

/-- Behind a header of length -1 a read is armed. -/
theorem armed_of_strays (atHead : strayReader.AtHead session held) (completion : Completion) (more : ℕ)
    (strays : StraysFirst (held ++ completion.bytes)) :
    .asyncReadSome ∈ strayCodec.handleReadCalls (more + 1) session (some completion.bytes) := by
  have pending := Pending.receive strayReader session completion
  obtain ⟨idHigh, idLow, lenHigh, lenLow, behind, same⟩ :
      ∃ idHigh idLow lenHigh lenLow behind,
        held ++ completion.bytes = [idHigh, idLow, lenHigh, lenLow] ++ behind := by
    rw [StraysFirst.eq_def] at strays
    split at strays
    · next idHigh idLow lenHigh lenLow behind same => exact ⟨idHigh, idLow, lenHigh, lenLow, behind, same⟩
    · exact strays.elim
  rw [same] at strays
  obtain ⟨id, length⟩ := strays
  obtain ⟨fill, split, bytes⟩ := head_split same.symm atHead.short
  rw [bytes] at pending
  obtain ⟨next, room, step, effects, behindHead, -⟩ := iteration_wholeHead atHead pending split rfl
  have fields : strayReader.codec.header ([idHigh, idLow, lenHigh, lenLow].map some ++ room) =
      .ok (some (bigEndianShort idHigh idLow, -1)) := by
    apply (header_of_fields ..).trans
    rw [if_neg (Int.not_lt.mpr id), length, if_neg (by decide)]
  obtain ⟨last, started⟩ := startBody_goes behindHead (bigEndianShort idHigh idLow)
  rw [fields] at step
  have returned := step.trans started
  rw [← bytes] at returned
  have called : strayCodec.handleReadCalls (more + 1) session (some completion.bytes) = _ :=
    calls_of_returned completion.nonempty returned
  rw [called]
  exact List.mem_concat_self

/-- A read at a head is quiet exactly when it completes a header behind which nothing goes on. -/
theorem quiet_iff_stops (atHead : reader.AtHead session held) (completion : Completion) (more : ℕ) :
    Quiet (strayCodec.handleReadCalls (more + 1) session (some completion.bytes)) ↔
      StopsFirst (held ++ completion.bytes) := by
  have there : strayReader.AtHead session held :=
    ⟨atHead.flag, atHead.cursor, atHead.size, atHead.layout, atHead.short⟩
  by_cases strays : StraysFirst (held ++ completion.bytes)
  · refine iff_of_false (fun quiet => ?_) fun stops => (stopsFirst_iff.mp stops).2 strays
    cases quiet _ (armed_of_strays there completion more strays)
  · have judged : strayReader.JudgesFirst (held ++ completion.bytes) := by
      intro head rest same whole reject accepted
      obtain ⟨idHigh, idLow, lenHigh, lenLow, rfl⟩ := Spec.two_fields whole
      rw [same] at strays
      exact (stopsFirst_iff.mpr ⟨⟨_, [], rfl, whole, reject⟩, strays⟩)
    rw [stopsFirst_iff, and_iff_left strays]
    exact there.calls judged more

end Quiet

section Later

variable {session : HandleRead.Session ℤ}

/-- A quiet handler calls nothing that removal should put an end to. -/
theorem quiet_iff_calls {effects : List (Effect (ℤ × List UInt8))} :
    Quiet effects ↔ effects.filterMap call? = [] := by
  rw [List.filterMap_eq_nil_iff]
  refine forall₂_congr fun call _ => ?_
  cases call <;> simp [call?]

/-- The first removal is the last call of its handler. -/
theorem later_first (completion : Option Completion) (fuel : ℕ) :
    later false (strayCodec.handleReadCalls fuel session (completion.map (·.bytes))) = [] := by
  cases completion with
  | none => rfl
  | some completion =>
    obtain ⟨before, silent, calls⟩ := calls_cleared strayCodec (Codec.receiveBuffer completion.bytes) fuel
      ⟨session, completion.bytes.length, 0, []⟩ fun call member => absurd member List.not_mem_nil
    have skipped (more : List (Effect (ℤ × List UInt8))) :
        (before ++ more).dropWhile (fun call => !call.isClear) =
          more.dropWhile fun call => !call.isClear := by
      apply List.dropWhile_append_of_pos
      intro call member
      rw [silent call member]
      rfl
    rcases calls with all | all
    · have nothing := skipped []
      rw [List.append_nil] at nothing
      simp only [later, Option.map_some, Codec.handleReadCalls, all, nothing]
      rfl
    · simp only [later, Option.map_some, Codec.handleReadCalls, all, skipped]
      rfl

end Later

section Astray

variable {session : HandleRead.Session ℤ}

theorem Astray.flag (astray : Astray session) : session.bHeadParse = true := by
  rw [Astray, strayCursor?] at astray
  split_ifs at astray with flag
  · exact flag
  · cases astray

/-- The cursor moves, and the session stays where it is. -/
theorem Astray.moved (astray : Astray session) (curLen : ℤ) : Astray { session with
    recvMsgNode := session.recvMsgNode.map fun node => { node with curLen } } := by
  have flag := astray.flag
  rw [Astray, strayCursor?, if_pos flag] at astray ⊢
  cases node : session.recvMsgNode with
  | none =>
    rw [node] at astray
    cases astray
  | some node' =>
    rw [node] at astray
    simp only [Option.bind_some, Option.map_some] at astray ⊢
    split_ifs at astray ⊢
    · rfl
    · exact astray

/-- Inside a body of length -1 a read posts a message or arms another read. -/
theorem strayLoop_calls (more byteTransfered : ℕ) (curLen : ℤ) :
    (strayLoop (more + 1) byteTransfered curLen).1 ≠ [] := by
  rw [strayLoop]
  dsimp only
  split_ifs <;> exact List.cons_ne_nil _ _

end Astray

section Run

/-- The session is at a place where a read can find it, and its removal has been final so far. -/
structure Stays (life : Life τ) : Prop where
  final : RemovalFinal life
  waits : life.session.reading = true → Waits life.session.receiving ∨ Astray life.session.receiving

variable {life target : Life τ} {event : Life.Event τ}

/-- Where a handler leaves a session from which another read comes. -/
theorem waits_behind (waits : Waits life.session.receiving) {completion : Option Completion} {fuel : ℕ}
    {result : Option (Except Fault (Done ℤ (ℤ × List UInt8)))}
    (ran : strayCodec.handleRead fuel life.session.receiving (completion.map (·.bytes)) = result)
    (armed : (life.behindRead result).session.reading = true) :
    Waits (life.behindRead result).session.receiving ∨ Astray (life.behindRead result).session.receiving := by
  rcases result with _ | _ | done
  · exact .inl waits
  · exact .inl waits
  · rcases handleRead_stray ran with strict | ⟨astray, -⟩
    · exact .inl (waits.read strict armed)
    · exact .inr astray

/-- At a head or inside a body, a read behind the removal is final exactly when nothing goes on behind it. -/
theorem quiet_iff_onlyStops (waits : Waits life.session.receiving) (completion : Completion) (more : ℕ)
    (cleared : life.session.cleared = true) :
    later life.session.cleared (strayCodec.handleReadCalls (more + 1) life.session.receiving
      (some completion.bytes)) = [] ↔ OnlyStops life (.handleRead (some completion) more) := by
  rw [cleared, later, if_pos rfl, ← quiet_iff_calls]
  simp only [OnlyStops, cleared, forall_const]
  rcases waits with ⟨held, atHead⟩ | ⟨tag, length, held, inBody⟩
  · rw [heldBytes_atHead atHead, quiet_iff_stops atHead, and_iff_right atHead.flag]
  · have there : strayReader.InBody life.session.receiving tag length held :=
      ⟨inBody.flag, inBody.node, inBody.held_le, inBody.limit⟩
    refine iff_of_false (there.calls completion more) fun stops => ?_
    cases stops.1.symm.trans inBody.flag

/-- A read keeps this, unless it goes on behind the removal. -/
theorem Stays.read (stays : Stays life) (reading : life.session.reading = true)
    {completion : Option Completion} {more : ℕ}
    (stops : OnlyStops life (.handleRead completion more)) :
    Stays (life.handleRead (completion.map (·.bytes)) more) := by
  have final : life.late = [] := stays.final
  rcases stays.waits reading with waits | astray
  · rw [life.handleRead_plain (.inr waits.inside)]
    refine ⟨?_, waits_behind (by exact waits) rfl⟩
    rw [RemovalFinal, Life.behindRead_late, Life.called, final, List.nil_append]
    cases cleared : life.session.cleared with
    | false => exact later_first completion _
    | true =>
      cases completion with
      | none => rfl
      | some completion =>
        rw [← cleared]
        exact (quiet_iff_onlyStops waits completion more cleared).mpr stops
  · cases completion with
    | none =>
      rw [Option.map_none, life.handleRead_plain (.inl rfl)]
      refine ⟨?_, fun armed => by cases armed⟩
      rw [RemovalFinal, Life.behindRead_late, Life.called, final, List.nil_append]
      cases life.session.cleared <;> rfl
    | some completion =>
      obtain ⟨curLen, inside⟩ := Option.isSome_iff_exists.mp astray
      have uncleared : life.session.cleared ≠ true :=
        fun cleared => Bool.false_ne_true ((stops cleared).1.symm.trans astray.flag)
      rw [Option.map_some, life.handleRead_stray inside]
      refine ⟨?_, fun _ => .inr ?_⟩
      · rw [RemovalFinal, Life.behindStray_late, Life.called, final, if_neg uncleared]
        rfl
      · cases (strayLoop (more + 1) completion.bytes.length curLen).2 with
        | none => exact astray
        | some cursor => exact astray.moved cursor

variable [DecidableEq τ]

theorem Stays.step (stays : Stays life) (stops : OnlyStops life event)
    (taken : life.step event = some target) : Stays target := by
  rcases Life.step_cases taken with ⟨completion, more, rfl, reading, rfl⟩ | ⟨-, receiving, reads, late⟩
  · exact stays.read reading stops
  · refine ⟨?_, fun reading => ?_⟩
    · rw [RemovalFinal, late]
      exact stays.final
    · rw [receiving]
      exact stays.waits (reads.symm.trans reading)

/-- Any other read behind the removal posts a message or arms another read. -/
theorem onlyStops_of_final (stays : Stays life) (taken : life.step event = some target)
    (final : RemovalFinal target) : OnlyStops life event := by
  rcases Life.step_cases taken with ⟨completion, more, rfl, reading, rfl⟩ | ⟨other, -⟩
  · cases completion with
    | none => trivial
    | some completion =>
      by_cases cleared : life.session.cleared = true
      · rcases stays.waits reading with waits | astray
        · rw [Option.map_some, life.handleRead_plain (.inr waits.inside), RemovalFinal,
            Life.behindRead_late] at final
          exact (quiet_iff_onlyStops waits completion more cleared).mp (List.append_eq_nil_iff.mp final).2
        · obtain ⟨curLen, inside⟩ := Option.isSome_iff_exists.mp astray
          rw [Option.map_some, life.handleRead_stray inside, RemovalFinal, Life.behindStray_late,
            if_pos cleared] at final
          exact absurd (List.append_eq_nil_iff.mp final).2 (strayLoop_calls more _ curLen)
      · exact fun removed => absurd removed cleared
  · cases event with
    | handleRead completion more => exact absurd rfl (other completion more)
    | sending action => trivial
    | writeError index => trivial

/-- A session as `start` leaves it. -/
def started (sendPending : Bool) : Started τ := ⟨fresh, true, .opened sendPending, false⟩

omit [DecidableEq τ] in
theorem newStarted_started (sendPending : Bool) :
    Server.newStarted sendPending = some (started sendPending : Started τ) := by
  rw [Server.newStarted, newSession_fresh]
  rfl

/-- The removal of a session is final along a run exactly when every read that succeeds behind it
begins with a header behind which nothing goes on. -/
theorem removalFinal_iff_onlyStops (sendPending : Bool) (tape : List (Life.Event τ)) :
    Always Life.step RemovalFinal (.start (started sendPending)) tape ↔
      Guarded Life.step OnlyStops (.start (started sendPending)) tape := by
  apply always_iff_guarded (fun _ => Stays.final) Stays.step onlyStops_of_final
  exact ⟨rfl, fun _ => .inl (.inl ⟨[], fresh_atHead⟩)⟩

end Run

section Server

/-- The event of a session among others, in the session alone. -/
def ofServer : Server.Event τ → Life.Event τ
  | .handleRead completion fuel => .handleRead completion (fuel - 1)
  | .sending action => .sending action
  | .writeError index => .writeError index

/-- A handler that returns leaves behind what it leaves behind in the server. -/
theorem step_ofServer [DecidableEq τ] {life : Life τ} (running : life.halted = false)
    (elsewhere : ¬ Astray life.session.receiving) {event : Server.Event τ} {next : Started τ} {clears : Bool}
    (applied : event.apply life.session = some (next, clears)) :
    ∃ late, life.step (ofServer event) =
      some ⟨{ next with cleared := life.session.cleared || clears }, late, false⟩ := by
  rw [Life.step, if_neg (by rw [running]; exact Bool.false_ne_true)]
  cases event with
  | handleRead completion fuel =>
    simp only [Server.Event.apply] at applied
    split_ifs at applied with reading
    split at applied
    · next done returned =>
      cases applied
      have again : strayCodec.handleRead (fuel - 1 + 1) life.session.receiving (completion.map (·.bytes)) =
          some (.ok done) := by
        cases completion with
        | none => exact returned
        | some completion =>
          cases fuel with
          | zero => cases returned
          | succ more => exact run_strict returned
      have plain := @Life.handleRead_plain τ life (completion.map (·.bytes))
        (.inr (Option.not_isSome_iff_eq_none.mp elsewhere)) (fuel - 1)
      rw [again] at plain
      simp only [ofServer, Life.act, if_pos reading, plain]
      exact ⟨_, congrArg some (by rw [Life.behindRead, Life.called, running])⟩
    · cases applied
  | sending action =>
    obtain ⟨sending, stepped, same⟩ := Option.map_eq_some_iff.mp applied
    cases same
    simp only [ofServer, Life.act, stepped, Option.map_some, Bool.or_false]
    exact ⟨_, by rw [running]⟩
  | writeError index =>
    obtain ⟨node, present, same⟩ := Option.map_eq_some_iff.mp applied
    cases same
    simp only [ofServer, Life.act, present, Option.map_some, Bool.or_true]
    exact ⟨_, by rw [running]⟩

end Server

/-- A whole message of one byte. -/
def wholeMessage : Completion := ⟨[3, 233, 0, 1, 66], by decide, by decide⟩

/-- A write fails, and the read that was outstanding brings a message. -/
def readBehindFailure : List (Life.Event ℕ) :=
  [.sending (.reset 1 ([67], 1001)), .sending (.test 0), .sending .push, .sending .start,
    .writeError 0, .handleRead (some wholeMessage) 0]

theorem not_removalFinal :
    ¬ Always Life.step RemovalFinal (.start (started false)) readBehindFailure := by
  intro always
  have final : ((replay? Life.step (.start (started false)) readBehindFailure).map (·.late)) =
      some [.postMsgToQue, .asyncReadSome] := by
    decide +kernel
  obtain ⟨life, run, late⟩ := Option.map_eq_some_iff.mp final
  have quiet := always.replay run
  rw [RemovalFinal, late] at quiet
  cases quiet

private theorem header_nonempty : 0 < ([3, 233, 255, 255] : List UInt8).length := by decide

private theorem header_bounded : ([3, 233, 255, 255] : List UInt8).length ≤ maxLength := by decide

/-- A header with the length -1. -/
def strayHeader : Completion := ⟨[3, 233, 255, 255], header_nonempty, header_bounded⟩

example : ((replay? Life.step (.start (started false) : Life ℕ)
    [.sending (.reset 1 ([67], 1001)), .sending (.test 0), .sending .push, .sending .start,
      .writeError 0, .handleRead (some strayHeader) 0]).map (·.late)) = some [.asyncReadSome] := by
  decide +kernel

end BoostLearn.Soundness.AsyncServer
