import BoostLearn.Core.CInt
import Mathlib.Data.List.Basic
import Mathlib.Data.Rat.Init

/-! # JSON values

What the servers use of `Json::Value`: a value throws when it is accessed as a shape it does not
have. Reading a text, and writing a number or a value as a text, are left to the library.
-/

namespace BoostLearn.Model

/-- A `std::string`. -/
abbrev Text := List UInt8

def ascii (text : String) : Text := text.toList.map fun letter => UInt8.ofNat letter.toNat

namespace Json

/-- `Json::Value`. A double is a rational number or, as `none`, an infinity. -/
inductive Value where
  | null
  | int (value : ℤ)
  | uint (value : ℕ)
  | real (value : Option ℚ)
  | string (value : Text)
  | boolean (value : Bool)
  | array (elements : List Value)
  | object (members : List (Text × Value))

/-- `Json::LogicError`. -/
inductive LogicError where
  | notConvertible
  | outOfRange
  | notAnObject
deriving DecidableEq, Repr

/-- The parts of JsonCpp that turn texts into values and back. -/
structure JsonCpp where
  /-- `Reader::parse`, with the root it leaves. -/
  parse : Text → Bool × Value
  /-- How a number or a boolean is written. -/
  valueToString : Value → Text
  toStyledString : Value → Text

/-- Put a member into its place in the order of the keys. -/
def insert (key : Text) (value : Value) : List (Text × Value) → List (Text × Value)
  | [] => [(key, value)]
  | (other, held) :: rest =>
    if key = other then (key, value) :: rest
    else if key < other then (key, value) :: (other, held) :: rest
    else (other, held) :: insert key value rest

/-- A missing member counts as null. -/
def member (key : Text) (members : List (Text × Value)) : Value := (members.lookup key).getD .null

/-- The members with the one that `operator[]` adds when it is missing. -/
def touch (key : Text) (members : List (Text × Value)) : List (Text × Value) :=
  match members.lookup key with
  | some _ => members
  | none => insert key .null members

/-- The members of a null value or an object. -/
def Value.members : Value → Except LogicError (List (Text × Value))
  | .null => return []
  | .object members => return members
  | _ => throw .notAnObject

/-- `operator[](key)`: the value as it is after the access, and the member. -/
def Value.subscript (root : Value) (key : Text) : Except LogicError (Value × Value) := do
  let members ← root.members
  return (.object (touch key members), member key members)

/-- `operator[](key) = value`. -/
def Value.assign (root : Value) (key : Text) (value : Value) : Except LogicError Value := do
  let members ← root.members
  return .object (insert key value members)

/-- `asInt`. -/
def Value.asInt : Value → Except LogicError ℤ
  | .null => return 0
  | .boolean value => return if value then 1 else 0
  | .int value => if -2147483648 ≤ value ∧ value ≤ 2147483647 then return value else throw .outOfRange
  | .uint value => if value ≤ 2147483647 then return value else throw .outOfRange
  | .real (some value) =>
    if -2147483648 ≤ value ∧ value ≤ 2147483647 then return value.num.tdiv value.den
    else throw .outOfRange
  | .real none => throw .outOfRange
  | _ => throw .notConvertible

/-- `asString`. -/
def Value.asString (json : JsonCpp) : Value → Except LogicError Text
  | .null => return []
  | .string value => return value
  | .array _ => throw .notConvertible
  | .object _ => throw .notConvertible
  | value => return json.valueToString value

theorem lookup_insert_self (key : Text) (value : Value) (members : List (Text × Value)) :
    (insert key value members).lookup key = some value := by
  induction members with
  | nil => simp [insert]
  | cons head rest ih =>
    obtain ⟨other, held⟩ := head
    rw [insert]
    split_ifs with same smaller
    · simp
    · simp
    · rw [List.lookup_cons, beq_false_of_ne same]
      exact ih

theorem lookup_insert_ne {key other : Text} (different : other ≠ key) (value : Value)
    (members : List (Text × Value)) :
    (insert key value members).lookup other = members.lookup other := by
  induction members with
  | nil => simp [insert, different]
  | cons head rest ih =>
    obtain ⟨first, held⟩ := head
    rw [insert]
    split_ifs with same smaller
    · subst same
      simp only [List.lookup_cons, beq_false_of_ne different]
    · simp only [List.lookup_cons, beq_false_of_ne different]
    · simp only [List.lookup_cons, ih]

theorem insert_insert (key : Text) (old value : Value) (members : List (Text × Value)) :
    insert key value (insert key old members) = insert key value members := by
  induction members with
  | nil => simp [insert]
  | cons head rest ih =>
    obtain ⟨other, held⟩ := head
    simp only [insert]
    split_ifs with same smaller
    · simp [insert]
    · simp [insert]
    · simp [insert, same, smaller, ih]

theorem insert_touch (key : Text) (value : Value) (members : List (Text × Value)) :
    insert key value (touch key members) = insert key value members := by
  rw [touch]
  split
  · rfl
  · exact insert_insert key .null value members

@[simp] theorem member_insert_self (key : Text) (value : Value) (members : List (Text × Value)) :
    member key (insert key value members) = value := by
  rw [member, lookup_insert_self]
  rfl

theorem member_insert_ne {key other : Text} (different : other ≠ key) (value : Value)
    (members : List (Text × Value)) : member other (insert key value members) = member other members := by
  rw [member, lookup_insert_ne different, member]

/-- An access changes no member. -/
@[simp] theorem member_touch (key other : Text) (members : List (Text × Value)) :
    member other (touch key members) = member other members := by
  rw [touch]
  split
  · rfl
  · next missing =>
    by_cases same : other = key
    · rw [same, member_insert_self, member, missing]
      rfl
    · exact member_insert_ne same .null members

end Json

end BoostLearn.Model
