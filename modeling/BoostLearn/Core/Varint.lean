import Mathlib.Algebra.Group.Nat.Defs
import Mathlib.Data.List.Basic

/-! # Base-128 numbers

A varint holds a number seven bits at a time, the low ones first; every byte but the last one has
its high bit set. A number takes as many bytes as it has digits to the base 128, and at least one.
-/

namespace BoostLearn

def varint (value : ℕ) : List UInt8 :=
  if value < 128 then [UInt8.ofNat value]
  else UInt8.ofNat (value % 128 + 128) :: varint (value / 128)
termination_by value
decreasing_by omega

theorem varint_of_lt {value : ℕ} (small : value < 128) : varint value = [UInt8.ofNat value] := by
  rw [varint, if_pos small]

theorem varint_of_le {value : ℕ} (large : 128 ≤ value) :
    varint value = UInt8.ofNat (value % 128 + 128) :: varint (value / 128) := by
  rw [varint, if_neg (Nat.not_lt.mpr large)]

theorem length_varint_pos (value : ℕ) : 0 < (varint value).length := by
  rw [varint]
  split_ifs
  · exact Nat.one_pos
  · exact Nat.succ_pos _

/-- A varint fits a number of bytes exactly when the number fits as many digits. -/
theorem length_varint_le_iff (value count : ℕ) :
    (varint value).length ≤ count + 1 ↔ value < 128 ^ (count + 1) := by
  induction count generalizing value with
  | zero =>
    by_cases small : value < 128
    · rw [varint_of_lt small]
      exact iff_of_true (Nat.le_refl 1) small
    · rw [varint_of_le (Nat.not_lt.mp small)]
      have := length_varint_pos (value / 128)
      exact iff_of_false (by rw [List.length_cons]; omega) small
  | succ count ih =>
    by_cases small : value < 128
    · rw [varint_of_lt small]
      have power : 128 ^ 1 ≤ 128 ^ (count + 1 + 1) := Nat.pow_le_pow_right (by decide) (by omega)
      exact iff_of_true (by rw [List.length_singleton]; omega) (by omega)
    · rw [varint_of_le (Nat.not_lt.mp small), List.length_cons, Nat.add_le_add_iff_right, ih,
        Nat.div_lt_iff_lt_mul (by decide), ← Nat.pow_succ]

/-- The exact size of a number between two powers. -/
theorem length_varint_eq {value count : ℕ} (low : 128 ^ (count + 1) ≤ value)
    (high : value < 128 ^ (count + 2)) : (varint value).length = count + 2 := by
  have upper := (length_varint_le_iff value (count + 1)).mpr high
  have lower := mt (length_varint_le_iff value count).mp (Nat.not_lt.mpr low)
  omega

/-- The number at the front of some bytes, of at most `count` bytes, and what follows it. -/
def readVarint : ℕ → List UInt8 → Option (ℕ × List UInt8)
  | 0, _ => none
  | _ + 1, [] => none
  | count + 1, byte :: rest =>
    if byte.toNat < 128 then some (byte.toNat, rest)
    else (readVarint count rest).map fun (value, rest) => (byte.toNat % 128 + 128 * value, rest)

theorem readVarint_varint {value count : ℕ} (fits : value < 128 ^ (count + 1)) (rest : List UInt8) :
    readVarint (count + 1) (varint value ++ rest) = some (value, rest) := by
  induction count generalizing value with
  | zero =>
    have byte : (UInt8.ofNat value).toNat = value := by
      rw [UInt8.toNat_ofNat']
      omega
    rw [varint_of_lt (by omega), List.singleton_append, readVarint, byte, if_pos (by omega)]
  | succ count ih =>
    by_cases small : value < 128
    · have byte : (UInt8.ofNat value).toNat = value := by
        rw [UInt8.toNat_ofNat']
        omega
      rw [varint_of_lt small, List.singleton_append, readVarint, byte, if_pos small]
    · have byte : (UInt8.ofNat (value % 128 + 128)).toNat = value % 128 + 128 := by
        rw [UInt8.toNat_ofNat']
        omega
      have less : value / 128 < 128 ^ (count + 1) := by
        rw [Nat.div_lt_iff_lt_mul (by decide), ← Nat.pow_succ]
        exact fits
      rw [varint_of_le (Nat.not_lt.mp small), List.cons_append, readVarint, byte, if_neg (by omega), ih less]
      simp only [Option.map_some, Option.some.injEq, Prod.mk.injEq, and_true]
      omega

/-- A number takes at least one byte. -/
theorem readVarint_shorter {count value : ℕ} {bytes rest : List UInt8}
    (read : readVarint count bytes = some (value, rest)) : rest.length < bytes.length := by
  induction count generalizing bytes value with
  | zero => cases read
  | succ count ih =>
    cases bytes with
    | nil => cases read
    | cons byte more =>
      rw [readVarint] at read
      split_ifs at read
      · cases read
        exact Nat.lt_succ_self _
      · obtain ⟨⟨higher, later⟩, found, same⟩ := Option.map_eq_some_iff.mp read
        cases same
        exact Nat.lt_succ_of_lt (ih found)

end BoostLearn
