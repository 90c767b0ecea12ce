import BoostLearn.Model.AsyncServerUseProtobuf.InternalParse
import BoostLearn.Soundness.AsyncServerUseProtobuf.Replies

/-! # What the generated parser makes of serialized messages

The parser gives every field the value of the last record for it and skips all other records. So what
is parsed from messages that are serialized one behind the other is their merge, and a message is read
back as it was, also where its text is refused.
-/

namespace BoostLearn.Soundness.AsyncServerUseProtobuf

open CInt WireFormat Model Model.AsyncServerUseProtobuf

def setId (id : ℤ) (msg : MsgData) : MsgData := { msg with id }

def setData (data : List UInt8) (msg : MsgData) : MsgData := { msg with data }

/-- What a record says about a message, and whether its text is accepted. -/
def applyRecord (runtime : Runtime) (record : Record) (msg : MsgData) : Option (MsgData × Bool) :=
  match record.field with
  | 1 => applyInt32 setId record msg
  | 2 => applyString runtime setData record msg
  | _ => none

/-- A message whose id is an `int32`, and whose text is one that the runtime reads. -/
structure Sendable (runtime : Runtime) (msg : MsgData) : Prop where
  low : -2147483648 ≤ msg.id
  high : msg.id < 2147483648
  short : msg.data.length ≤ maxSize
  valid : msg.data ≠ [] → runtime.verifyUtf8 msg.data = true

variable {runtime : Runtime}

/-- The switch looks at the field and then at the type. -/
theorem interprets_switch (lawful : runtime.Lawful) :
    Interprets (MsgData.switch runtime) (applyRecord runtime) := by
  intro record msg rest
  have cases_ : MsgData.switch runtime record.tag msg (record.payload.bytes ++ rest) =
      match record.field with
      | 1 => int32Case runtime 1 setId record.tag msg (record.payload.bytes ++ rest)
      | 2 => stringCase runtime 2 setData record.tag msg (record.payload.bytes ++ rest)
      | _ => none := by
    rw [MsgData.switch, record.tag_div]
    rfl
  rw [cases_, applyRecord]
  split
  · next field => exact interprets_int32 lawful field (by decide) setId msg rest
  · next field => exact interprets_string lawful field (by decide) setData msg rest
  · rfl

theorem shortens_switch (lawful : runtime.Lawful) : (MsgData.switch runtime).Shortens := by
  intro tag msg next bytes rest field
  rw [MsgData.switch] at field
  split at field
  · split_ifs at field
    rw [Option.some.injEq, Prod.mk.injEq] at field
    exact lawful.readVarint32_shorter field.2
  · split_ifs at field
    rw [Option.some.injEq, Prod.mk.injEq] at field
    obtain ⟨ptr, read, valid⟩ := Option.bind_eq_some_iff.mp field.2
    split_ifs at valid
    cases valid
    exact lawful.stringParser_shorter read
  · cases field

/-- The id of a message is an `int32`. -/
structure HoldsInt (msg : MsgData) : Prop where
  low : -2147483648 ≤ msg.id
  high : msg.id < 2147483648

theorem holdsInt_of_switch {tag : ℕ} {msg next : MsgData} {bytes : List UInt8} {ptr : Option (List UInt8)}
    (field : MsgData.switch runtime tag msg bytes = some (next, ptr)) (holds : HoldsInt msg) : HoldsInt next := by
  rw [MsgData.switch] at field
  split at field
  · split_ifs at field
    rw [Option.some.injEq, Prod.mk.injEq] at field
    obtain ⟨low, high⟩ := toInt_range (runtime.readVarint32 bytes).1
    rw [← field.1]
    exact ⟨low, high⟩
  · split_ifs at field
    rw [Option.some.injEq, Prod.mk.injEq] at field
    rw [← field.1]
    exact ⟨holds.low, holds.high⟩
  · cases field

/-- The parser returns on every body, well-formed or not, with an id that is an `int32`. -/
theorem parses_any (lawful : runtime.Lawful) (body : List UInt8) :
    ∃ msg valid, MsgData.parseFromString runtime body = some (msg, valid) ∧ HoldsInt msg := by
  obtain ⟨⟨msg, ended⟩, returned⟩ := internalParse_returns lawful (shortens_switch lawful) body .clear
  have parsed := returned (body.length + 1) (Nat.lt_succ_self _)
  have cleared : HoldsInt .clear := ⟨by simp [MsgData.clear], by simp [MsgData.clear]⟩
  refine ⟨msg, ended == .endOfStream, ?_, internalParse_invariant holdsInt_of_switch parsed cleared⟩
  rw [MsgData.parseFromString, MsgData.internalParse, parsed]
  rfl

section LastRecord

variable {records : List Record}

end LastRecord

section Records

variable {msg to_msg : MsgData}

/-- The records of a message. -/
def records (short : msg.data.length ≤ maxSize) : List Record :=
  (if msg.id ≠ 0 then [int32Record known_one msg.id] else []) ++
    if msg.data ≠ [] then [stringRecord known_two short] else []

theorem bytes_records (short : msg.data.length ≤ maxSize) :
    (records short).flatMap Record.bytes = msg.internalSerialize := by
  have id : (int32Record known_one msg.id).bytes = writeInt32ToArray 1 msg.id := rfl
  have data : (stringRecord known_two short).bytes = writeString 2 msg.data := (List.append_assoc ..).symm
  rw [records, MsgData.internalSerialize, List.flatMap_append]
  congr 1
  · split_ifs
    · rw [List.flatMap_singleton, id]
    · rfl
  · split_ifs
    · rw [List.flatMap_singleton, data]
    · rfl

/-- What is serialized is a sequence of records, which merge the message into another one and are
refused at the end when the text is. -/
theorem records_of_serialized (low : -2147483648 ≤ msg.id) (high : msg.id < 2147483648)
    (short : msg.data.length ≤ maxSize) (to_msg : MsgData) :
    interpret (applyRecord runtime) to_msg (records short) = (to_msg.mergeImpl msg,
      if msg.data = [] ∨ runtime.verifyUtf8 msg.data = true then .endOfStream else .failure) := by
  have number : applyRecord runtime (int32Record known_one msg.id) to_msg = some (setId msg.id to_msg, true) :=
    apply_int32Record known_one setId low high to_msg
  have text (msg' : MsgData) : applyRecord runtime (stringRecord known_two short) msg' =
      some (setData msg.data msg', runtime.verifyUtf8 msg.data) := rfl
  rw [records, interpret_append (interpret_optional number _), interpret_last (text _)]
  congr 1
  · simp only [MsgData.mergeImpl, setId, setData]
    split_ifs <;> rfl
  · simp only [ne_eq, Decidable.or_iff_not_imp_left]

theorem merges_msgData (sendable : Sendable runtime msg) :
    Merges (applyRecord runtime) MsgData.internalSerialize MsgData.mergeImpl msg := by
  intro to_msg
  have merged := @records_of_serialized runtime _ sendable.low sendable.high sendable.short to_msg
  rw [if_pos (Decidable.or_iff_not_imp_left.mpr sendable.valid)] at merged
  exact ⟨_, (bytes_records sendable.short).symm, merged⟩

end Records

/-- What is parsed from serialized messages behind each other is their merge. -/
theorem parses_concatenation (lawful : runtime.Lawful) {msgs : List MsgData}
    (sendable : ∀ msg ∈ msgs, Sendable runtime msg) (to_msg : MsgData) {fuel : ℕ}
    (enough : (msgs.flatMap MsgData.internalSerialize).length < fuel) :
    MsgData.internalParse runtime fuel to_msg (msgs.flatMap MsgData.internalSerialize) =
      some (msgs.foldl MsgData.mergeImpl to_msg, .endOfStream) :=
  internalParse_concatenation lawful (interprets_switch lawful)
    (fun msg member => merges_msgData (sendable msg member)) to_msg enough

/-- Another text replaces the first one, and no id leaves the first one. -/
def twoMessages : List MsgData := [⟨7, [65]⟩, ⟨0, [66]⟩]

theorem bytes_twoMessages : twoMessages.flatMap MsgData.internalSerialize = [8, 7, 18, 1, 65, 18, 1, 66] := by
  simp [twoMessages, MsgData.internalSerialize, writeInt32ToArray, writeString, varint_of_lt, toSizeT]

theorem parses_concatenation_twoMessages :
    MsgData.internalParse plain 9 .clear [8, 7, 18, 1, 65, 18, 1, 66] = some (⟨7, [66]⟩, .endOfStream) := by
  have sendable : ∀ msg ∈ twoMessages, Sendable plain msg := by
    intro msg member
    simp only [twoMessages, List.mem_cons, List.not_mem_nil, or_false] at member
    obtain rfl | rfl := member
    · exact ⟨by decide, by decide, by decide, by decide⟩
    · exact ⟨by decide, by decide, by decide, by decide⟩
  have parsed := @parses_concatenation _ lawful_plain _ sendable .clear 9 (by rw [bytes_twoMessages]; decide)
  rwa [bytes_twoMessages] at parsed

/-- A message is read back as it was, and the parser succeeds exactly when its text is valid. -/
theorem parses_serialized (lawful : runtime.Lawful) {msg : MsgData} (low : -2147483648 ≤ msg.id)
    (high : msg.id < 2147483648) (short : msg.data.length ≤ maxSize) :
    MsgData.parseFromString runtime msg.internalSerialize =
      some (msg, decide (msg.data = [] ∨ runtime.verifyUtf8 msg.data = true)) := by
  have merged := @records_of_serialized runtime _ low high short .clear
  have fewer := length_records_le (records short)
  have same : MsgData.mergeImpl .clear msg = msg := by
    obtain ⟨id, data⟩ := msg
    simp only [MsgData.mergeImpl, MsgData.clear]
    split_ifs <;> simp_all
  rw [MsgData.parseFromString, ← bytes_records short, MsgData.internalParse,
    internalParse_records lawful (interprets_switch lawful) (records short) .clear (by omega), merged, same]
  by_cases valid : msg.data = [] ∨ runtime.verifyUtf8 msg.data = true
  · simp only [if_pos valid, Option.map_some, decide_eq_true valid]
    rfl
  · simp only [if_neg valid, Option.map_some, decide_eq_false valid]
    rfl

end BoostLearn.Soundness.AsyncServerUseProtobuf
