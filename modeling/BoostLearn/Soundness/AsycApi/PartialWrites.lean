import BoostLearn.Model.AsycApi.WriteErr

/-! # When a message of AsycApi survives partial writes

The cursor of the node stands where the outstanding write begins, also behind the last completion,
which does not move it. So the completions hand over the message piece by piece, however they cut
it; but the array of the node has the same size for every message, and a longer one overflows it.
-/

namespace BoostLearn.Soundness.AsycApi

open CInt Memory Replay Model.AsycApi

/-- What the socket has taken and what it is offered make up the message, and nothing is offered
behind its last byte. -/
structure Intact (buf : List UInt8) (writer : ErrWriter) : Prop where
  whole : writer.written ++ writer.offered.getD [] = buf
  stops : writer.offered = some [] → buf = []

/-- Every copy and every buffer has stayed in its array so far, and the message is intact. -/
def Survives (buf : List UInt8) (state : Except Fault ErrWriter) : Prop :=
  ∃ writer, state = .ok writer ∧ Intact buf writer

/-- A node that holds a message, with its cursor behind the bytes that have been taken before the
outstanding write. -/
def nodeOf (buf : List UInt8) (taken : ℕ) : MsgNode :=
  ⟨buf.map some ++ List.replicate (recvSize - buf.length) none, buf.length, taken⟩

/-- A write is outstanding for the rest of the message, or the message is done. -/
inductive Chain (buf : List UInt8) : ErrWriter → Prop
  | offered {taken left : List UInt8} (whole : taken ++ left = buf) (more : left = [] → buf = []) :
    Chain buf ⟨nodeOf buf taken.length, some left, taken⟩
  | finished {node : MsgNode} : Chain buf ⟨node, none, buf⟩

variable {buf : List UInt8} {writer : ErrWriter}

theorem Chain.intact (chain : Chain buf writer) : Intact buf writer := by
  cases chain with
  | offered whole more => exact ⟨whole, fun nothing => more (Option.some.inj nothing)⟩
  | finished => exact ⟨List.append_nil _, fun nothing => by cases nothing⟩

theorem ofBytes_of_short (short : buf.length ≤ recvSize) :
    MsgNode.ofBytes buf (toInt buf.length) = .ok (nodeOf buf 0) := by
  have small : buf.length ≤ 1024 := short
  have length : toInt buf.length = buf.length := toInt_of_range (by omega) (by omega)
  have allocated : newChar (recvSize : ℤ) = .ok (List.replicate recvSize none) :=
    newChar_of_nonneg (by omega)
  have copied : memcpy (List.replicate recvSize none) 0 (buf.map some) 0 buf.length =
      .ok (buf.map some ++ List.replicate (recvSize - buf.length) none) := by
    have room : buf.length ≤ (List.replicate recvSize (none : Option UInt8)).length := by
      rwa [List.length_replicate]
    have whole := memcpy_prefix [] buf [] (List.replicate recvSize none) room
    rwa [List.append_nil, List.nil_append, List.drop_replicate] at whole
  rw [MsgNode.ofBytes, bind_of_ok allocated, length, toSizeT_natCast (by omega), bind_of_ok copied]
  rfl

/-- The rest of a node is the part of its message behind the cursor. -/
theorem remaining_nodeOf {taken left : List UInt8} (short : buf.length ≤ recvSize)
    (whole : taken ++ left = buf) : (nodeOf buf taken.length).remaining = .ok left := by
  have small : buf.length ≤ 1024 := short
  have size := congrArg List.length whole
  rw [List.length_append] at size
  have count : toSizeT ((buf.length : ℤ) - taken.length) = left.length := by
    rw [toSizeT_of_range (by omega) (by omega)]
    omega
  have rest : (buf.map some ++ List.replicate (recvSize - buf.length) none).drop taken.length =
      left.map some ++ List.replicate (recvSize - buf.length) none := by
    rw [← whole, List.map_append, List.append_assoc, List.drop_left' (List.length_map _)]
  rw [MsgNode.remaining, nodeOf]
  dsimp only
  rw [count, Int.toNat_natCast, rest, readString_map]

theorem chain_writeToSocketErr (short : buf.length ≤ recvSize) :
    ∃ writer, ErrWriter.writeToSocketErr buf = .ok writer ∧ Chain buf writer := by
  have small : buf.length ≤ 1024 := short
  have offered : readString (nodeOf buf 0).msg (toSizeT (nodeOf buf 0).totalLen) = .ok buf := by
    rw [nodeOf]
    dsimp only
    rw [toSizeT_natCast (by omega), readString_map]
  rw [ErrWriter.writeToSocketErr, bind_of_ok (ofBytes_of_short short), bind_of_ok offered]
  exact ⟨_, rfl, @Chain.offered buf [] buf rfl id⟩

/-- A completion takes a piece off the outstanding write; the callback offers what is left of it. -/
theorem Chain.step (short : buf.length ≤ recvSize) (chain : Chain buf writer) {count : ℕ}
    {target : Except Fault ErrWriter} (taken : ErrWriter.step (.ok writer) count = some target) :
    ∃ next, target = .ok next ∧ Chain buf next := by
  obtain ⟨buffer, outstanding, fits, reported, rfl⟩ := ErrWriter.step_ok taken
  cases chain with
  | finished => cases outstanding
  | @offered before left whole more =>
    obtain rfl := Option.some.inj outstanding
    have small : buf.length ≤ 1024 := short
    have size := congrArg List.length whole
    rw [List.length_append] at size
    have sum : toSizeT ((count : ℤ) + (before.length : ℕ)) = before.length + count := by
      rw [toSizeT_of_range (by omega) (by omega)]
      omega
    rw [ErrWriter.writeCallBackErr]
    simp only [nodeOf, sum, toSizeT_natCast (by omega : buf.length < 18446744073709551616)]
    split_ifs with unfinished
    · have moved : toInt ((before.length : ℤ) + (count : ℕ)) = (before ++ left.take count).length := by
        rw [toInt_of_range (by omega) (by omega), List.length_append, List.length_take]
        omega
      have rest : before ++ left.take count ++ left.drop count = buf := by
        rw [List.append_assoc, List.take_append_drop, whole]
      have offered := remaining_nodeOf short rest
      rw [nodeOf] at offered
      rw [ErrWriter.offerRest]
      dsimp only
      rw [moved, bind_of_ok offered]
      refine ⟨_, rfl, Chain.offered rest fun nothing => ?_⟩
      have := List.drop_eq_nil_iff.mp nothing
      omega
    · have all : before ++ left.take count = buf := by
        rw [List.take_of_length_le (by omega), whole]
      rw [all]
      exact ⟨_, rfl, Chain.finished⟩

/-- A message that is offered whole has fitted its node; a length that wraps round offers less. -/
theorem short_of_survives (survives : Survives buf (ErrWriter.writeToSocketErr buf)) :
    buf.length ≤ recvSize := by
  obtain ⟨writer, called, intact⟩ := survives
  obtain ⟨node, built, called⟩ := ok_of_bind called
  obtain ⟨buffer, read, called⟩ := ok_of_bind called
  cases called
  obtain ⟨nonneg, fits⟩ := MsgNode.fits_of_ofBytes (toInt_range _) built
  have whole : buffer = buf := intact.whole
  have totalLen : node.totalLen = toInt buf.length := by
    obtain ⟨cells, -, built⟩ := ok_of_bind built
    obtain ⟨copied, -, built⟩ := ok_of_bind built
    cases built
    rfl
  have small : toInt buf.length ≤ 1024 := fits
  have size := length_of_readString read
  rw [whole, totalLen, toSizeT_of_range nonneg (by omega)] at size
  omega

theorem always_of_short (short : buf.length ≤ recvSize) (tape : List ℕ) :
    Always ErrWriter.step (Survives buf) (ErrWriter.writeToSocketErr buf) tape := by
  have preserved : ∀ {source target : Except Fault ErrWriter} {count : ℕ},
      (∃ writer, source = .ok writer ∧ Chain buf writer) → ErrWriter.step source count = some target →
        ∃ writer, target = .ok writer ∧ Chain buf writer := by
    rintro _ target count ⟨writer, rfl, chain⟩ taken
    exact chain.step short taken
  apply (always_of_preserved preserved (chain_writeToSocketErr short) tape).imp
  rintro _ ⟨writer, rfl, chain⟩
  exact ⟨writer, rfl, chain.intact⟩

/-- However the completions cut it, a message survives exactly when it fits the array of a node. -/
theorem survives_iff_short (buf : List UInt8) (tape : List ℕ) :
    Always ErrWriter.step (Survives buf) (ErrWriter.writeToSocketErr buf) tape ↔
      buf.length ≤ recvSize :=
  ⟨fun always => short_of_survives always.head, fun short => always_of_short short tape⟩

/-- A message with one byte more than the array. -/
def longMessage : List UInt8 := List.replicate 1025 65

theorem not_survives_long :
    ¬ Always ErrWriter.step (Survives longMessage) (ErrWriter.writeToSocketErr longMessage) [] := by
  rintro ⟨writer, called, -⟩
  have failed : ErrWriter.writeToSocketErr longMessage = .error .outOfBounds := by decide +kernel
  rw [failed] at called
  cases called

end BoostLearn.Soundness.AsycApi
