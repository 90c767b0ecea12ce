import BoostLearn.Core.CInt
import Mathlib.Data.List.Basic
import Mathlib.Data.List.ReduceOption

/-! # Storage with bounds and indeterminate bytes

An allocation is the list of its bytes; a byte nothing has been written to yet is `none`. Every
access states its range and faults when the range leaves the allocation, so that a computation
which does not fault has touched only its own storage. An array of negative size cannot be
allocated: that is an exception the program may catch, unlike the other faults.
-/

namespace BoostLearn.Memory

/-- The bytes of one allocation; `none` has an indeterminate value. -/
abbrev Cells := List (Option UInt8)

inductive Fault where
  | badArrayNewLength
  | outOfBounds
  | indeterminate
deriving DecidableEq, Repr

/-- `new char[size]`. -/
def newChar (size : ℤ) : Except Fault Cells :=
  if size < 0 then .error .badArrayNewLength else .ok (List.replicate size.toNat none)

/-- `cells[index] = value`. -/
def store (cells : Cells) (index : ℤ) (value : UInt8) : Except Fault Cells :=
  if 0 ≤ index ∧ index < cells.length then .ok (cells.set index.toNat (some value))
  else .error .outOfBounds

/-- `memcpy(target + targetAt, source + sourceAt, count)`. -/
def memcpy (target : Cells) (targetAt : ℤ) (source : Cells) (sourceAt : ℤ) (count : ℕ) :
    Except Fault Cells :=
  if 0 ≤ targetAt ∧ targetAt + count ≤ target.length ∧
      0 ≤ sourceAt ∧ sourceAt + count ≤ source.length then
    .ok (target.take targetAt.toNat ++ (source.drop sourceAt.toNat).take count ++
      target.drop (targetAt.toNat + count))
  else .error .outOfBounds

/-- `memset(cells, value, count)`. -/
def memset (cells : Cells) (value : UInt8) (count : ℕ) : Except Fault Cells :=
  if count ≤ cells.length then
    .ok (List.replicate count (some value) ++ cells.drop count)
  else .error .outOfBounds

/-- `std::string(cells, count)`. -/
def readString (cells : Cells) (count : ℕ) : Except Fault (List UInt8) :=
  if count ≤ cells.length then
    if (cells.take count).all Option.isSome then .ok ((cells.take count).reduceOption)
    else .error .indeterminate
  else .error .outOfBounds

theorem bind_of_ok {ε α β : Type} {first : Except ε α} {value : α} (done : first = .ok value)
    (next : α → Except ε β) : (first >>= next) = next value := by
  rw [done]
  rfl

theorem bind_of_error {ε α β : Type} {first : Except ε α} {error : ε} (failed : first = .error error)
    (next : α → Except ε β) : (first >>= next) = .error error := by
  rw [failed]
  rfl

/-- A sequence that ends well has done its first step. -/
theorem ok_of_bind {ε α β : Type} {first : Except ε α} {next : α → Except ε β} {result : β}
    (done : (first >>= next) = .ok result) : ∃ value, first = .ok value ∧ next value = .ok result := by
  cases first with
  | error fault => contradiction
  | ok value => exact ⟨value, rfl, done⟩

theorem newChar_of_nonneg {size : ℤ} (nonneg : 0 ≤ size) :
    newChar size = .ok (List.replicate size.toNat none) := by
  rw [newChar, if_neg (by omega)]

theorem newChar_of_negative {size : ℤ} (negative : size < 0) :
    newChar size = .error .badArrayNewLength := if_pos negative

theorem store_of_range {cells : Cells} {index : ℕ} (bound : index < cells.length) (value : UInt8) :
    store cells index value = .ok (cells.set index (some value)) := by
  rw [store, if_pos (by omega), Int.toNat_natCast]

/-- A store at or past the end, like one before the start, is refused. -/
theorem store_outside {cells : Cells} {index : ℤ} (outside : index < 0 ∨ cells.length ≤ index)
    (value : UInt8) : store cells index value = .error .outOfBounds := by
  rw [store, if_neg (by omega)]

/-- Copying received bytes behind the ones an allocation already holds extends what it holds. -/
theorem memcpy_append {held bytes : List UInt8} {room before after : Cells}
    (fits : bytes.length ≤ room.length) :
    memcpy (held.map some ++ room) held.length (before ++ (bytes.map some ++ after)) before.length
      bytes.length = .ok ((held ++ bytes).map some ++ room.drop bytes.length) := by
  have target : (held.map some ++ room).take held.length = held.map some :=
    List.take_left' (List.length_map _)
  have source : ((before ++ (bytes.map some ++ after)).drop before.length).take bytes.length =
      bytes.map some := by
    rw [List.drop_left' rfl, List.take_left' (List.length_map _)]
  have rest : (held.map some ++ room).drop (held.length + bytes.length) = room.drop bytes.length := by
    rw [List.drop_append, List.drop_eq_nil_of_le (by simp), List.nil_append, List.length_map]
    congr 1
    omega
  rw [memcpy, if_pos (by simp only [List.length_append, List.length_map]; omega), Int.toNat_natCast,
    Int.toNat_natCast, target, source, rest, List.map_append]

/-- The same from the start of the source. -/
theorem memcpy_prefix (held bytes rest : List UInt8) (room : Cells)
    (fits : bytes.length ≤ room.length) :
    memcpy (held.map some ++ room) held.length ((bytes ++ rest).map some) 0 bytes.length =
      .ok ((held ++ bytes).map some ++ room.drop bytes.length) := by
  have copied := @memcpy_append held bytes room [] (rest.map some) fits
  rwa [List.nil_append, ← List.map_append] at copied

/-- A copy needs room for all of it. -/
theorem memcpy_outside {target source : Cells} {targetAt sourceAt : ℤ} {count : ℕ}
    (outside : (target.length : ℤ) < targetAt + count) :
    memcpy target targetAt source sourceAt count = .error .outOfBounds := by
  rw [memcpy, if_neg (by omega)]

/-- A copy leaves the size of its target as it is. -/
theorem memcpy_length {target source copied : Cells} {targetAt sourceAt : ℤ} {count : ℕ}
    (done : memcpy target targetAt source sourceAt count = .ok copied) :
    copied.length = target.length := by
  rw [memcpy] at done
  split_ifs at done with fits
  cases done
  simp only [List.length_append, List.length_take, List.length_drop]
  omega

/-- Terminating a filled allocation overwrites its last byte. -/
theorem store_last (held : List UInt8) (last : Option UInt8) (value : UInt8) :
    store (held.map some ++ [last]) held.length value = .ok (held.map some ++ [some value]) := by
  rw [store_of_range (by simp)]
  simp

theorem readString_map (bytes : List UInt8) (rest : Cells) :
    readString (bytes.map some ++ rest) bytes.length = .ok bytes := by
  have held : (bytes.map some ++ rest).take bytes.length = bytes.map some := by
    rw [List.take_left' (List.length_map _)]
  rw [readString, if_pos (by simp), held, if_pos (by simp), List.reduceOption]
  simp

/-- A string has as many letters as were asked for. -/
theorem length_of_readString {cells : Cells} {count : ℕ} {bytes : List UInt8}
    (read : readString cells count = .ok bytes) : bytes.length = count := by
  rw [readString] at read
  split_ifs at read with fits whole
  cases read
  rw [List.reduceOption_length_eq_iff.mpr (fun cell member => List.all_eq_true.mp whole cell member),
    List.length_take_of_le fits]

end BoostLearn.Memory
