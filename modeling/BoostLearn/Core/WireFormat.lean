import BoostLearn.Core.CInt
import BoostLearn.Core.Varint
import Mathlib.Tactic.SplitIfs

/-! # The wire format of protocol buffers

A message is a sequence of records: a tag, which holds the number of a field and the type of its
payload, and the payload. Generated code reads them in a loop around a switch over the tag; a record
that the switch does not know is skipped. The readers are a runtime library. On the bytes of records,
with readers that invert the encoding, the loop interprets the records one after the other.
-/

namespace BoostLearn.WireFormat

open CInt

/-- The largest size that the runtime reads: it refuses those within 16 bytes of `INT_MAX`. -/
def maxSize : ℕ := 2147483631

inductive Payload where
  | number (value : ℕ)
  | fixed64 (bytes : List UInt8)
  | text (bytes : List UInt8)
  | fixed32 (bytes : List UInt8)
deriving DecidableEq, Repr

namespace Payload

def wireType : Payload → ℕ
  | .number _ => 0
  | .fixed64 _ => 1
  | .text _ => 2
  | .fixed32 _ => 5

def bytes : Payload → List UInt8
  | .number value => varint value
  | .fixed64 bytes => bytes
  | .text bytes => varint bytes.length ++ bytes
  | .fixed32 bytes => bytes

/-- The sizes that the format allows, and the runtime reads. -/
def Fits : Payload → Prop
  | .number value => value < 2 ^ 64
  | .fixed64 bytes => bytes.length = 8
  | .text bytes => bytes.length ≤ maxSize
  | .fixed32 bytes => bytes.length = 4

/-- A number that has been extended to 64 bits. -/
theorem fits_toSizeT (value : ℤ) : (number (toSizeT value)).Fits := by
  simp only [Fits, toSizeT]
  omega

end Payload

/-- The numbers that a field can have. -/
structure Known (field : ℕ) : Prop where
  positive : 0 < field
  bounded : field < 2 ^ 29

theorem known_one : Known 1 := ⟨by decide, by decide⟩

theorem known_two : Known 2 := ⟨by decide, by decide⟩

theorem known_three : Known 3 := ⟨by decide, by decide⟩

structure Record where
  field : ℕ
  payload : Payload
  known : Known field
  fits : payload.Fits

namespace Record

def tag (record : Record) : ℕ := 8 * record.field + record.payload.wireType

def bytes (record : Record) : List UInt8 := varint record.tag ++ record.payload.bytes

theorem tag_lt (record : Record) : record.tag < 2 ^ 32 := by
  have bounded := record.known.bounded
  rw [tag]
  cases record.payload <;> simp only [Payload.wireType] <;> omega

theorem tag_div (record : Record) : record.tag / 8 = record.field := by
  rw [tag]
  cases record.payload <;> simp only [Payload.wireType] <;> omega

/-- No record has the tag that ends a message or a group. -/
theorem tag_ne (record : Record) : ¬ (record.tag = 0 ∨ record.tag % 8 = 4) := by
  have positive := record.known.positive
  rw [tag]
  cases record.payload <;> simp only [Payload.wireType] <;> omega

end Record

/-- The runtime that generated code calls. A tag that cannot be read leaves no pointer and the tag
zero; the other readers may also leave a value behind when they fail. -/
structure Runtime where
  readTag : List UInt8 → Option (ℕ × List UInt8)
  readVarint32 : List UInt8 → ℕ × Option (List UInt8)
  stringParser : List UInt8 → List UInt8 × Option (List UInt8)
  unalignedLoad : List UInt8 → List UInt8 × Option (List UInt8)
  unknownFieldParse : ℕ → List UInt8 → Option (List UInt8)
  verifyUtf8 : List UInt8 → Bool

/-- The readers invert the encoding, and do not read behind the end. -/
structure Runtime.Lawful (runtime : Runtime) : Prop where
  readTag : ∀ tag rest, tag < 2 ^ 32 → runtime.readTag (varint tag ++ rest) = some (tag, rest)
  readVarint32 : ∀ value rest, value < 2 ^ 64 →
    runtime.readVarint32 (varint value ++ rest) = (value % 2 ^ 32, some rest)
  stringParser : ∀ text rest, text.length ≤ maxSize →
    runtime.stringParser (varint text.length ++ text ++ rest) = (text, some rest)
  unalignedLoad : ∀ bytes rest, bytes.length = 4 → runtime.unalignedLoad (bytes ++ rest) = (bytes, some rest)
  unknownFieldParse : ∀ (record : Record) rest,
    runtime.unknownFieldParse record.tag (record.payload.bytes ++ rest) = some rest
  readTag_shorter : ∀ {bytes tag rest}, runtime.readTag bytes = some (tag, rest) →
    rest.length < bytes.length
  readVarint32_shorter : ∀ {bytes rest}, (runtime.readVarint32 bytes).2 = some rest →
    rest.length ≤ bytes.length
  stringParser_shorter : ∀ {bytes rest}, (runtime.stringParser bytes).2 = some rest →
    rest.length ≤ bytes.length
  unalignedLoad_shorter : ∀ {bytes rest}, (runtime.unalignedLoad bytes).2 = some rest →
    rest.length ≤ bytes.length
  unknownFieldParse_shorter : ∀ {tag bytes rest}, runtime.unknownFieldParse tag bytes = some rest →
    rest.length ≤ bytes.length

/-- How a message ends: with its bytes, before them at a tag that ends it, or with an error. -/
inductive Ended where
  | endOfStream
  | lastTag (tag : ℕ)
  | failure
deriving DecidableEq, Repr

/-- What a switch over the tag leaves: the message, and the pointer unless the field has failed. It
leaves nothing where generated code goes to `handle_unusual`. -/
abbrev Switch (μ : Type*) := ℕ → μ → List UInt8 → Option (μ × Option (List UInt8))

section Plain

/-- A number, as its lowest 32 bits. -/
def plainVarint32 (bytes : List UInt8) : ℕ × Option (List UInt8) :=
  match readVarint 10 bytes with
  | some (value, rest) => (value % 2 ^ 32, some rest)
  | none => (0, none)

def plainString (bytes : List UInt8) : List UInt8 × Option (List UInt8) :=
  match readVarint 5 bytes with
  | some (size, rest) => if size ≤ rest.length then (rest.take size, some (rest.drop size)) else ([], none)
  | none => ([], none)

def plainSkip (size : ℕ) (bytes : List UInt8) : Option (List UInt8) :=
  if size ≤ bytes.length then some (bytes.drop size) else none

/-- Readers without the buffers of the runtime; they take ASCII only, and no groups. -/
def plain : Runtime where
  readTag := readVarint 5
  readVarint32 := plainVarint32
  stringParser := plainString
  unalignedLoad bytes := (bytes.take 4, plainSkip 4 bytes)
  unknownFieldParse tag bytes :=
    match tag % 8 with
    | 0 => (plainVarint32 bytes).2
    | 1 => plainSkip 8 bytes
    | 2 => (plainString bytes).2
    | 5 => plainSkip 4 bytes
    | _ => none
  verifyUtf8 bytes := bytes.all (· < 128)

theorem plainVarint32_varint {value : ℕ} (fits : value < 2 ^ 64) (rest : List UInt8) :
    plainVarint32 (varint value ++ rest) = (value % 2 ^ 32, some rest) := by
  rw [plainVarint32, readVarint_varint (by omega)]

theorem plainString_text {text : List UInt8} (fits : text.length ≤ maxSize) (rest : List UInt8) :
    plainString (varint text.length ++ text ++ rest) = (text, some rest) := by
  rw [maxSize] at fits
  rw [plainString, List.append_assoc, readVarint_varint (by omega)]
  dsimp only
  rw [if_pos (by rw [List.length_append]; omega), List.take_left' rfl, List.drop_left' rfl]

theorem plainSkip_append {bytes : List UInt8} {size : ℕ} (whole : bytes.length = size)
    (rest : List UInt8) : plainSkip size (bytes ++ rest) = some rest := by
  rw [plainSkip, if_pos (by rw [List.length_append]; omega), List.drop_left' whole]

theorem plainVarint32_shorter {bytes rest : List UInt8} (read : (plainVarint32 bytes).2 = some rest) :
    rest.length ≤ bytes.length := by
  rw [plainVarint32] at read
  split at read
  · next value left found =>
    cases read
    exact Nat.le_of_lt (readVarint_shorter found)
  · cases read

theorem plainString_shorter {bytes rest : List UInt8} (read : (plainString bytes).2 = some rest) :
    rest.length ≤ bytes.length := by
  rw [plainString] at read
  split at read
  · next size left found =>
    have shorter := readVarint_shorter found
    split_ifs at read with enough
    cases read
    rw [List.length_drop]
    omega
  · cases read

theorem plainSkip_shorter {size : ℕ} {bytes rest : List UInt8} (skipped : plainSkip size bytes = some rest) :
    rest.length ≤ bytes.length := by
  rw [plainSkip] at skipped
  split_ifs at skipped
  cases skipped
  rw [List.length_drop]
  omega

theorem lawful_plain : plain.Lawful where
  readTag tag rest bounded := readVarint_varint (by omega) rest
  readVarint32 value rest fits := plainVarint32_varint fits rest
  stringParser text rest fits := plainString_text fits rest
  unalignedLoad bytes rest whole := by
    simp only [plain, plainSkip_append whole, List.take_left' whole]
  unknownFieldParse record rest := by
    have fits := record.fits
    simp only [plain, Record.tag]
    cases payload : record.payload with
    | number value =>
      rw [payload] at fits
      rw [Payload.wireType, show (8 * record.field + 0) % 8 = 0 by omega]
      exact congrArg Prod.snd (plainVarint32_varint fits rest)
    | fixed64 bytes =>
      rw [payload] at fits
      rw [Payload.wireType, show (8 * record.field + 1) % 8 = 1 by omega]
      exact plainSkip_append fits rest
    | text bytes =>
      rw [payload] at fits
      rw [Payload.wireType, show (8 * record.field + 2) % 8 = 2 by omega]
      exact congrArg Prod.snd (plainString_text fits rest)
    | fixed32 bytes =>
      rw [payload] at fits
      rw [Payload.wireType, show (8 * record.field + 5) % 8 = 5 by omega]
      exact plainSkip_append fits rest
  readTag_shorter read := readVarint_shorter read
  readVarint32_shorter read := plainVarint32_shorter read
  stringParser_shorter read := plainString_shorter read
  unalignedLoad_shorter read := plainSkip_shorter read
  unknownFieldParse_shorter skipped := by
    simp only [plain] at skipped
    split at skipped
    · exact plainVarint32_shorter skipped
    · exact plainSkip_shorter skipped
    · exact plainString_shorter skipped
    · exact plainSkip_shorter skipped
    · cases skipped

end Plain

variable {μ : Type*} {runtime : Runtime} {switch : Switch μ}

/-- The loop of the generated `_InternalParse`. -/
def internalParse (runtime : Runtime) (switch : Switch μ) : ℕ → μ → List UInt8 → Option (μ × Ended)
  | 0, _, _ => none
  | fuel + 1, msg, bytes =>
    if bytes = [] then some (msg, .endOfStream)
    else
      match runtime.readTag bytes with
      | none => some (msg, .failure)
      | some (tag, ptr) =>
        match switch tag msg ptr with
        | some (msg, none) => some (msg, .failure)
        | some (msg, some ptr) => internalParse runtime switch fuel msg ptr
        | none =>
          if tag = 0 ∨ tag % 8 = 4 then some (msg, .lastTag tag)
          else
            match runtime.unknownFieldParse tag ptr with
            | none => some (msg, .failure)
            | some ptr => internalParse runtime switch fuel msg ptr

/-- A record changes a message, and may be refused after that; an unknown one does neither. -/
def interpret (apply : Record → μ → Option (μ × Bool)) : μ → List Record → μ × Ended
  | msg, [] => (msg, .endOfStream)
  | msg, record :: rest =>
    match apply record msg with
    | none => interpret apply msg rest
    | some (msg, true) => interpret apply msg rest
    | some (msg, false) => (msg, .failure)

/-- On a record, the switch does what is said about the record. -/
def Interprets (switch : Switch μ) (apply : Record → μ → Option (μ × Bool)) : Prop :=
  ∀ record msg rest, switch record.tag msg (record.payload.bytes ++ rest) =
    (apply record msg).map fun (msg, accepted) => (msg, if accepted then some rest else none)

section Fields

/-! The cases of a switch, the records that they read, and what such a record says. A field is set with the
value of its record; the number of the field is small enough for a tag of one byte. -/

/-- The case of an `int32`: the lowest 32 bits of a varint. -/
def int32Case (runtime : Runtime) (field : ℕ) (set : ℤ → μ → μ) : Switch μ := fun tag msg ptr =>
  if tag % 256 = 8 * field then
    let (value, ptr) := runtime.readVarint32 ptr
    some (set (toInt value) msg, ptr)
  else none

/-- The case of a string, which is set also when it is refused. -/
def stringCase (runtime : Runtime) (field : ℕ) (set : List UInt8 → μ → μ) : Switch μ := fun tag msg ptr =>
  if tag % 256 = 8 * field + 2 then
    let (str, ptr) := runtime.stringParser ptr
    some (set str msg, ptr.bind fun ptr => if runtime.verifyUtf8 str then some ptr else none)
  else none

/-- The case of a float, as its four bytes. -/
def floatCase (runtime : Runtime) (field : ℕ) (set : List UInt8 → μ → μ) : Switch μ := fun tag msg ptr =>
  if tag % 256 = 8 * field + 5 then
    let (value, ptr) := runtime.unalignedLoad ptr
    some (set value msg, ptr)
  else none

def applyInt32 (set : ℤ → μ → μ) (record : Record) (msg : μ) : Option (μ × Bool) :=
  match record.payload with
  | .number value => some (set (toInt (value % 2 ^ 32 : ℕ)) msg, true)
  | _ => none

def applyString (runtime : Runtime) (set : List UInt8 → μ → μ) (record : Record) (msg : μ) : Option (μ × Bool) :=
  match record.payload with
  | .text text => some (set text msg, runtime.verifyUtf8 text)
  | _ => none

def applyFloat (set : List UInt8 → μ → μ) (record : Record) (msg : μ) : Option (μ × Bool) :=
  match record.payload with
  | .fixed32 bytes => some (set bytes msg, true)
  | _ => none

variable {field : ℕ} {record : Record}

theorem Record.tag_of_small (at_ : record.field = field) (small : field < 31) :
    record.tag % 256 = 8 * field + record.payload.wireType := by
  rw [Record.tag, at_]
  cases record.payload <;> simp only [Payload.wireType] <;> omega

theorem interprets_int32 (lawful : runtime.Lawful) (at_ : record.field = field) (small : field < 31)
    (set : ℤ → μ → μ) (msg : μ) (rest : List UInt8) :
    int32Case runtime field set record.tag msg (record.payload.bytes ++ rest) =
      (applyInt32 set record msg).map fun (msg, accepted) => (msg, if accepted then some rest else none) := by
  have fits := record.fits
  rw [int32Case, record.tag_of_small at_ small, applyInt32]
  cases payload : record.payload with
  | number value =>
    rw [payload] at fits
    rw [Payload.wireType, Nat.add_zero, if_pos rfl, Payload.bytes, lawful.readVarint32 value rest fits]
    rfl
  | fixed64 _ | text _ | fixed32 _ => exact if_neg (by simp only [Payload.wireType]; omega)

theorem interprets_string (lawful : runtime.Lawful) (at_ : record.field = field) (small : field < 31)
    (set : List UInt8 → μ → μ) (msg : μ) (rest : List UInt8) :
    stringCase runtime field set record.tag msg (record.payload.bytes ++ rest) =
      (applyString runtime set record msg).map fun (msg, accepted) =>
        (msg, if accepted then some rest else none) := by
  have fits := record.fits
  rw [stringCase, record.tag_of_small at_ small, applyString]
  cases payload : record.payload with
  | text text =>
    rw [payload] at fits
    rw [Payload.wireType, if_pos rfl, Payload.bytes, lawful.stringParser text rest fits]
    rfl
  | number _ | fixed64 _ | fixed32 _ => exact if_neg (by simp only [Payload.wireType]; omega)

theorem interprets_float (lawful : runtime.Lawful) (at_ : record.field = field) (small : field < 31)
    (set : List UInt8 → μ → μ) (msg : μ) (rest : List UInt8) :
    floatCase runtime field set record.tag msg (record.payload.bytes ++ rest) =
      (applyFloat set record msg).map fun (msg, accepted) => (msg, if accepted then some rest else none) := by
  have fits := record.fits
  rw [floatCase, record.tag_of_small at_ small, applyFloat]
  cases payload : record.payload with
  | fixed32 bytes =>
    rw [payload] at fits
    rw [Payload.wireType, if_pos rfl, Payload.bytes, lawful.unalignedLoad bytes rest fits]
    rfl
  | number _ | fixed64 _ | text _ => exact if_neg (by simp only [Payload.wireType]; omega)

/-- The record of an `int32`. -/
def int32Record (known : Known field) (value : ℤ) : Record where
  field := field
  payload := .number (toSizeT value)
  known := known
  fits := Payload.fits_toSizeT value

/-- The record of a string. -/
def stringRecord (known : Known field) {text : List UInt8} (short : text.length ≤ maxSize) : Record where
  field := field
  payload := .text text
  known := known
  fits := short

/-- The record of a float. -/
def floatRecord (known : Known field) {bytes : List UInt8} (four : bytes.length = 4) : Record where
  field := field
  payload := .fixed32 bytes
  known := known
  fits := four

/-- An `int32` survives the extension to 64 bits. -/
theorem apply_int32Record (known : Known field) (set : ℤ → μ → μ) {value : ℤ} (low : -2147483648 ≤ value)
    (high : value < 2147483648) (msg : μ) :
    applyInt32 set (int32Record known value) msg = some (set value msg, true) := by
  have same : toInt ((toSizeT value % 2 ^ 32 : ℕ) : ℤ) = value := by
    simp only [toInt, toSizeT]
    omega
  have applied : applyInt32 set (int32Record known value) msg =
      some (set (toInt (toSizeT value % 2 ^ 32 : ℕ)) msg, true) := rfl
  rw [applied, same]

end Fields

theorem bytes_ne_nil (record : Record) (rest : List UInt8) : record.bytes ++ rest ≠ [] := by
  have := length_varint_pos record.tag
  apply List.ne_nil_of_length_pos
  rw [Record.bytes, List.length_append, List.length_append]
  omega

theorem length_bytes_pos (record : Record) : 0 < record.bytes.length := by
  have := length_varint_pos record.tag
  rw [Record.bytes, List.length_append]
  omega

/-- Records are not longer than their bytes. -/
theorem length_records_le (records : List Record) :
    records.length ≤ (records.flatMap Record.bytes).length := by
  induction records with
  | nil => exact Nat.zero_le _
  | cons record rest ih =>
    have := length_bytes_pos record
    rw [List.flatMap_cons, List.length_append, List.length_cons]
    omega

/-- The loop interprets the records that it reads. -/
theorem internalParse_records (lawful : runtime.Lawful) {apply : Record → μ → Option (μ × Bool)}
    (interprets : Interprets switch apply) (records : List Record) (msg : μ) {fuel : ℕ}
    (enough : records.length < fuel) :
    internalParse runtime switch fuel msg (records.flatMap Record.bytes) =
      some (interpret apply msg records) := by
  induction records generalizing msg fuel with
  | nil =>
    obtain ⟨fuel, rfl⟩ : ∃ less, fuel = less + 1 := ⟨fuel - 1, by simp only [List.length_nil] at enough; omega⟩
    rfl
  | cons record rest ih =>
    rw [List.length_cons] at enough
    obtain ⟨fuel, rfl⟩ : ∃ less, fuel = less + 1 := ⟨fuel - 1, by omega⟩
    have tag : runtime.readTag (record.bytes ++ rest.flatMap Record.bytes) =
        some (record.tag, record.payload.bytes ++ rest.flatMap Record.bytes) := by
      rw [Record.bytes, List.append_assoc]
      exact lawful.readTag _ _ record.tag_lt
    have said := interprets record msg (rest.flatMap Record.bytes)
    rw [List.flatMap_cons, internalParse, if_neg (bytes_ne_nil record _), tag, interpret]
    dsimp only
    rw [said]
    cases apply record msg with
    | none =>
      simp only [Option.map_none]
      rw [if_neg record.tag_ne, lawful.unknownFieldParse]
      exact ih msg (by omega)
    | some result =>
      obtain ⟨next, accepted⟩ := result
      cases accepted with
      | false => rfl
      | true => exact ih next (by omega)

/-- The readers that a switch calls do not read behind the end. -/
def Switch.Shortens (switch : Switch μ) : Prop :=
  ∀ {tag : ℕ} {msg next : μ} {bytes rest : List UInt8},
    switch tag msg bytes = some (next, some rest) → rest.length ≤ bytes.length

/-- The loop ends on every input, with the same result for every fuel above its length. -/
theorem internalParse_returns (lawful : runtime.Lawful) (shorter : switch.Shortens)
    (bytes : List UInt8) (msg : μ) :
    ∃ result, ∀ fuel, bytes.length < fuel → internalParse runtime switch fuel msg bytes = some result := by
  induction size : bytes.length using Nat.strongRecOn generalizing bytes msg with
  | _ bound ih =>
    by_cases empty : bytes = []
    · refine ⟨(msg, .endOfStream), fun fuel enough => ?_⟩
      obtain ⟨fuel, rfl⟩ : ∃ less, fuel = less + 1 := ⟨fuel - 1, by omega⟩
      rw [internalParse, if_pos empty]
    have unrolled (fuel : ℕ) : internalParse runtime switch (fuel + 1) msg bytes =
        match runtime.readTag bytes with
        | none => some (msg, .failure)
        | some (tag, ptr) =>
          match switch tag msg ptr with
          | some (msg, none) => some (msg, .failure)
          | some (msg, some ptr) => internalParse runtime switch fuel msg ptr
          | none =>
            if tag = 0 ∨ tag % 8 = 4 then some (msg, .lastTag tag)
            else
              match runtime.unknownFieldParse tag ptr with
              | none => some (msg, .failure)
              | some ptr => internalParse runtime switch fuel msg ptr := by
      rw [internalParse, if_neg empty]
    have stops (result : μ × Ended)
        (last : ∀ fuel, internalParse runtime switch (fuel + 1) msg bytes = some result) :
        ∃ result, ∀ fuel, bound < fuel → internalParse runtime switch fuel msg bytes = some result := by
      refine ⟨result, fun fuel enough => ?_⟩
      obtain ⟨fuel, rfl⟩ : ∃ less, fuel = less + 1 := ⟨fuel - 1, by omega⟩
      exact last fuel
    have goesOn (next : μ) (ptr : List UInt8) (less : ptr.length < bytes.length)
        (onward : ∀ fuel, internalParse runtime switch (fuel + 1) msg bytes =
          internalParse runtime switch fuel next ptr) :
        ∃ result, ∀ fuel, bound < fuel → internalParse runtime switch fuel msg bytes = some result := by
      obtain ⟨result, returned⟩ := ih ptr.length (by omega) ptr next rfl
      refine ⟨result, fun fuel enough => ?_⟩
      obtain ⟨fuel, rfl⟩ : ∃ less, fuel = less + 1 := ⟨fuel - 1, by omega⟩
      exact (onward fuel).trans (returned fuel (by omega))
    cases read : runtime.readTag bytes with
    | none => exact stops (msg, .failure) fun fuel => by rw [unrolled, read]
    | some tagged =>
      obtain ⟨tag, ptr⟩ := tagged
      have fewer := lawful.readTag_shorter read
      cases field : switch tag msg ptr with
      | some done =>
        obtain ⟨next, rest⟩ := done
        cases rest with
        | none => exact stops (next, .failure) fun fuel => by simp only [unrolled, read, field]
        | some rest =>
          have less := shorter field
          exact goesOn next rest (by omega) fun fuel => by simp only [unrolled, read, field]
      | none =>
        by_cases last : tag = 0 ∨ tag % 8 = 4
        · exact stops (msg, .lastTag tag) fun fuel => by simp only [unrolled, read, field, if_pos last]
        · cases skipped : runtime.unknownFieldParse tag ptr with
          | none =>
            exact stops (msg, .failure) fun fuel => by
              simp only [unrolled, read, field, if_neg last, skipped]
          | some rest =>
            have less := lawful.unknownFieldParse_shorter skipped
            exact goesOn msg rest (by omega) fun fuel => by
              simp only [unrolled, read, field, if_neg last, skipped]

/-- What every case of the switch keeps, the loop keeps, also where it fails. -/
theorem internalParse_invariant {Inv : μ → Prop}
    (kept : ∀ {tag : ℕ} {msg next : μ} {bytes : List UInt8} {ptr : Option (List UInt8)},
      switch tag msg bytes = some (next, ptr) → Inv msg → Inv next)
    {fuel : ℕ} {bytes : List UInt8} {msg next : μ} {ended : Ended}
    (parsed : internalParse runtime switch fuel msg bytes = some (next, ended)) (inv : Inv msg) :
    Inv next := by
  induction fuel generalizing msg bytes with
  | zero => cases parsed
  | succ fuel ih =>
    rw [internalParse] at parsed
    split at parsed
    · cases parsed
      exact inv
    split at parsed
    · cases parsed
      exact inv
    split at parsed
    · next field =>
      cases parsed
      exact kept field inv
    · next field => exact ih parsed (kept field inv)
    · split at parsed
      · cases parsed
        exact inv
      split at parsed
      · cases parsed
        exact inv
      · exact ih parsed inv

section LastValue

variable {apply : Record → μ → Option (μ × Bool)}

/-- A message behind a record. -/
def behind (apply : Record → μ → Option (μ × Bool)) (msg : μ) (record : Record) : μ :=
  ((apply record msg).map Prod.fst).getD msg

end LastValue

/-- Records that are all accepted are interpreted in front of what follows. -/
theorem interpret_append {apply : Record → μ → Option (μ × Bool)} {msg next : μ} {first : List Record}
    (accepted : interpret apply msg first = (next, .endOfStream)) (second : List Record) :
    interpret apply msg (first ++ second) = interpret apply next second := by
  induction first generalizing msg with
  | nil =>
    cases accepted
    rfl
  | cons record rest ih =>
    rw [List.cons_append, interpret]
    rw [interpret] at accepted
    cases applied : apply record msg with
    | none =>
      rw [applied] at accepted
      exact ih accepted
    | some result =>
      obtain ⟨after, kept⟩ := result
      rw [applied] at accepted
      cases kept with
      | false => cases accepted
      | true => exact ih accepted

/-- A record that is only there under a condition. -/
theorem interpret_optional {apply : Record → μ → Option (μ × Bool)} {record : Record} {msg next : μ}
    (applied : apply record msg = some (next, true)) (present : Prop) [Decidable present] :
    interpret apply msg (if present then [record] else []) = (if present then next else msg, .endOfStream) := by
  split_ifs
  · rw [interpret, applied]
    rfl
  · rfl

/-- The last record of a message may be refused. -/
theorem interpret_last {apply : Record → μ → Option (μ × Bool)} {record : Record} {msg next : μ}
    {accepted : Bool} (applied : apply record msg = some (next, accepted)) (present : Prop) [Decidable present] :
    interpret apply msg (if present then [record] else []) =
      (if present then next else msg, if present → accepted = true then .endOfStream else .failure) := by
  by_cases there : present
  · simp only [there, if_true, forall_const, interpret, applied]
    cases accepted <;> rfl
  · simp only [there, if_false, if_true, false_implies, interpret]

section Concatenation

variable {ν : Type*} {serialize : ν → List UInt8} {merge : μ → ν → μ} {msgs : List ν}
    {apply : Record → μ → Option (μ × Bool)}

/-- The bytes of a message are records that merge it into another one. -/
def Merges (apply : Record → μ → Option (μ × Bool)) (serialize : ν → List UInt8) (merge : μ → ν → μ)
    (from_msg : ν) : Prop :=
  ∀ to_msg, ∃ records : List Record, serialize from_msg = records.flatMap Record.bytes ∧
    interpret apply to_msg records = (merge to_msg from_msg, .endOfStream)

theorem records_of_concatenation (merges : ∀ msg ∈ msgs, Merges apply serialize merge msg) (to_msg : μ) :
    ∃ records : List Record, msgs.flatMap serialize = records.flatMap Record.bytes ∧
      interpret apply to_msg records = (msgs.foldl merge to_msg, .endOfStream) := by
  induction msgs generalizing to_msg with
  | nil => exact ⟨[], rfl, rfl⟩
  | cons msg rest ih =>
    obtain ⟨first, serialized, merged⟩ := merges msg (.head _) to_msg
    obtain ⟨later, others, all⟩ := ih (fun other member => merges other (.tail _ member)) (merge to_msg msg)
    refine ⟨first ++ later, ?_, (interpret_append merged later).trans all⟩
    rw [List.flatMap_cons, List.flatMap_append, serialized, others]

/-- Messages that are serialized behind each other are merged one after the other. -/
theorem internalParse_concatenation (lawful : runtime.Lawful) (interprets : Interprets switch apply)
    (merges : ∀ msg ∈ msgs, Merges apply serialize merge msg) (to_msg : μ) {fuel : ℕ}
    (enough : (msgs.flatMap serialize).length < fuel) :
    internalParse runtime switch fuel to_msg (msgs.flatMap serialize) =
      some (msgs.foldl merge to_msg, .endOfStream) := by
  obtain ⟨records, serialized, merged⟩ := records_of_concatenation merges to_msg
  have fewer := length_records_le records
  rw [serialized] at enough ⊢
  rw [internalParse_records lawful interprets records to_msg (by omega), merged]

end Concatenation

end BoostLearn.WireFormat
