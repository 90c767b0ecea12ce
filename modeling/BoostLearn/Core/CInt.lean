import Mathlib.Data.Int.Notation
import Mathlib.Data.Nat.Notation

/-! # Conversions between the C++ integer types

A value of a signed type is the integer it denotes and a `size_t` is a natural number. A
conversion keeps the value modulo the width of the target, which is what C++ prescribes for a
two's complement machine with a 16-bit `short`, a 32-bit `int` and a 64-bit `size_t`. Each
conversion is the identity on the range of its target, and sends a negative number to a
`size_t` no buffer can have.
-/

namespace BoostLearn.CInt

/-- Conversion to a 16-bit `short`. -/
def toShort (value : ℤ) : ℤ := (value + 32768) % 65536 - 32768

/-- Conversion to a 32-bit `int`. -/
def toInt (value : ℤ) : ℤ := (value + 2147483648) % 4294967296 - 2147483648

/-- Conversion to a 64-bit `size_t`. -/
def toSizeT (value : ℤ) : ℕ := (value % 18446744073709551616).toNat

theorem toShort_of_range {value : ℤ} (low : -32768 ≤ value) (high : value < 32768) :
    toShort value = value := by
  simp only [toShort]
  omega

theorem toShort_range (value : ℤ) : -32768 ≤ toShort value ∧ toShort value < 32768 := by
  simp only [toShort]
  omega

theorem toInt_of_range {value : ℤ} (low : -2147483648 ≤ value) (high : value < 2147483648) :
    toInt value = value := by
  simp only [toInt]
  omega

theorem toInt_range (value : ℤ) : -2147483648 ≤ toInt value ∧ toInt value < 2147483648 := by
  simp only [toInt]
  omega

theorem toSizeT_of_range {value : ℤ} (low : 0 ≤ value) (high : value < 18446744073709551616) :
    toSizeT value = value.toNat := by
  simp only [toSizeT]
  omega

theorem toSizeT_natCast {value : ℕ} (high : value < 18446744073709551616) :
    toSizeT value = value := by
  rw [toSizeT_of_range (by omega) (by omega), Int.toNat_natCast]

/-- A negative length turns into a size beyond every object. -/
theorem toSizeT_of_negative {value : ℤ} (low : -9223372036854775808 ≤ value) (negative : value < 0) :
    9223372036854775808 ≤ toSizeT value := by
  simp only [toSizeT]
  omega

/-- So a length that has passed a comparison with a size is not negative. -/
theorem nonneg_of_toSizeT {value : ℤ} (low : -9223372036854775808 ≤ value)
    (small : toSizeT value < 9223372036854775808) : 0 ≤ value := by
  apply Int.not_lt.mp
  intro negative
  have huge := toSizeT_of_negative low negative
  omega

end BoostLearn.CInt
