import BoostLearn.Model.HelloWorld

/-! # Requests the callback can answer

A request is a text whose root is null or an object, whose id converts to an `int` and whose data
converts to a string. Its answer is the same object with the server's words in front of the data.
-/

namespace BoostLearn.Spec.HelloWorld

open CInt Model Model.Json Model.LogicSystem

/-- Null, a boolean or a number in the range of `int`. -/
def HasInt : Value → Prop
  | .null => True
  | .boolean _ => True
  | .int value => -2147483648 ≤ value ∧ value ≤ 2147483647
  | .uint value => value ≤ 2147483647
  | .real (some value) => -2147483648 ≤ value ∧ value ≤ 2147483647
  | _ => False

/-- Neither an array nor an object. -/
def HasText : Value → Prop
  | .array _ => False
  | .object _ => False
  | _ => True

def text (json : JsonCpp) : Value → Text
  | .null => []
  | .string value => value
  | value => json.valueToString value

/-- The answer to a request with the given members. -/
def answer (server : Server) (json : JsonCpp) (members : List (Text × Value)) : Text :=
  let words := server.greeting ++ text json (member (ascii "data") members)
  json.toStyledString (.object (insert (ascii "data") (.string words) (touch (ascii "id") members)))

/-- The queue is full, or a node can hold a message of the given length behind its header. -/
def Fits (server : Server) (queued length : ℕ) : Prop :=
  match server with
  | .asyncServer => AsyncServer.maxSendque < toInt queued ∨ length + headTotalLen < 32768
  | .coroutineService =>
    maxLength < queued ∨ 0 ≤ toShort length ∧ toShort length + headTotalLen < 32768

/-- The data is a request, whether or not it parses, and there is a node for its answer. -/
def Answerable (server : Server) (json : JsonCpp) (data : Text) (queued : ℕ) : Prop :=
  ∃ members, (json.parse data).2.members = .ok members ∧ HasInt (member (ascii "id") members) ∧
    HasText (member (ascii "data") members) ∧ Fits server queued (answer server json members).length

theorem asInt_of_hasInt {value : Value} (convertible : HasInt value) :
    ∃ number, value.asInt = .ok number := by
  cases value with
  | int value => exact ⟨value, if_pos convertible⟩
  | uint value => exact ⟨value, if_pos convertible⟩
  | real value =>
    cases value with
    | none => contradiction
    | some value => exact ⟨value.num.tdiv value.den, if_pos convertible⟩
  | string _ => contradiction
  | array _ => contradiction
  | object _ => contradiction
  | _ => exact ⟨_, rfl⟩

theorem asInt_of_not_hasInt {value : Value} (convertible : ¬ HasInt value) :
    ∃ error, value.asInt = .error error := by
  cases value with
  | null => exact absurd trivial convertible
  | boolean _ => exact absurd trivial convertible
  | int value => exact ⟨.outOfRange, if_neg convertible⟩
  | uint value => exact ⟨.outOfRange, if_neg convertible⟩
  | real value =>
    cases value with
    | none => exact ⟨.outOfRange, rfl⟩
    | some value => exact ⟨.outOfRange, if_neg convertible⟩
  | _ => exact ⟨.notConvertible, rfl⟩

theorem asString_of_hasText (json : JsonCpp) {value : Value} (convertible : HasText value) :
    value.asString json = .ok (text json value) := by
  cases value with
  | array _ => contradiction
  | object _ => contradiction
  | _ => rfl

theorem asString_of_not_hasText (json : JsonCpp) {value : Value} (convertible : ¬ HasText value) :
    value.asString json = .error .notConvertible := by
  cases value with
  | array _ => rfl
  | object _ => rfl
  | _ => exact absurd trivial convertible

end BoostLearn.Spec.HelloWorld
