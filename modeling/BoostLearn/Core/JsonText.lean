import Mathlib.Data.List.Basic

/-! # Texts that are one JSON object

The brackets of a text, outside of its strings, say where its first object ends. A text is one
object when nothing but white space stands before and behind it, so a text that goes on with a
second object is not one.
-/

namespace BoostLearn.JsonText

/-- How far a scan has come: before the object, inside it with the brackets it still awaits, or
behind it. -/
inductive Place where
  | before
  | inside (awaited : List UInt8)
  | quoted (awaited : List UInt8)
  | escaped (awaited : List UInt8)
  | behind
  | wrong
deriving DecidableEq, Repr

/-- Space, tab, line feed and carriage return. -/
def IsBlank (letter : UInt8) : Prop := letter = 32 ∨ letter = 9 ∨ letter = 10 ∨ letter = 13

instance (letter : UInt8) : Decidable (IsBlank letter) :=
  inferInstanceAs (Decidable (letter = 32 ∨ letter = 9 ∨ letter = 10 ∨ letter = 13))

/-- A closing bracket has to be the one that is awaited. -/
def close (letter : UInt8) : List UInt8 → Place
  | [] => .wrong
  | last :: outer => if letter ≠ last then .wrong else if outer = [] then .behind else .inside outer

/-- Scan one letter: 34 is the quotation mark and 92 the backslash, 123 and 125 are the brackets of
an object, 91 and 93 those of an array. -/
def Place.next : Place → UInt8 → Place
  | .before, letter =>
    if letter = 123 then .inside [125] else if IsBlank letter then .before else .wrong
  | .inside awaited, letter =>
    if letter = 34 then .quoted awaited
    else if letter = 123 then .inside (125 :: awaited)
    else if letter = 91 then .inside (93 :: awaited)
    else if letter = 125 ∨ letter = 93 then close letter awaited
    else .inside awaited
  | .quoted awaited, letter =>
    if letter = 34 then .inside awaited
    else if letter = 92 then .escaped awaited
    else .quoted awaited
  | .escaped awaited, _ => .quoted awaited
  | .behind, letter => if IsBlank letter then .behind else .wrong
  | .wrong, _ => .wrong

def scan (place : Place) (text : List UInt8) : Place := text.foldl Place.next place

/-- The text is one object, as far as its brackets tell. -/
def OneObject (text : List UInt8) : Prop := scan .before text = .behind

instance (text : List UInt8) : Decidable (OneObject text) :=
  inferInstanceAs (Decidable (scan .before text = .behind))

theorem scan_append (place : Place) (first second : List UInt8) :
    scan place (first ++ second) = scan (scan place first) second := List.foldl_append

/-- A scan that has gone wrong stays wrong. -/
theorem scan_wrong (text : List UInt8) : scan .wrong text = .wrong := by
  induction text with
  | nil => rfl
  | cons letter rest ih => exact ih

/-- What may follow an object contains none. -/
theorem scan_before_of_behind {text : List UInt8} (followed : scan .behind text = .behind) :
    scan .before text = .before := by
  induction text with
  | nil => rfl
  | cons letter rest ih =>
    change scan (Place.next .behind letter) rest = .behind at followed
    change scan (Place.next .before letter) rest = .before
    by_cases blank : IsBlank letter
    · have other : letter ≠ 123 := by
        rintro rfl
        exact absurd blank (by decide)
      rw [Place.next, if_pos blank] at followed
      rw [Place.next, if_neg other, if_pos blank]
      exact ih followed
    · rw [Place.next, if_neg blank, scan_wrong] at followed
      cases followed

/-- Two objects, one after the other, are not one. -/
theorem not_oneObject_append {first second : List UInt8} (one : OneObject first)
    (other : OneObject second) : ¬ OneObject (first ++ second) := by
  intro both
  rw [OneObject, scan_append, one] at both
  have nothing := scan_before_of_behind both
  rw [other] at nothing
  cases nothing

end BoostLearn.JsonText
