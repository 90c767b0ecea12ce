import BoostLearn.Model.AsyncServerUseProtobuf.Client
import BoostLearn.Soundness.AsyncServerUseProtobuf.Parsing
import Mathlib.Data.List.Forall2

/-! # What SyncClient_useProtobuf gets back

On the generated parser the fields that the replies are made of are those of the request, and they are
found again in the reply. Nothing of this needs a valid request: the server does not look at the result
of the parser, and answers with what was set before an error.
-/

namespace BoostLearn.Soundness.AsyncServerUseProtobuf

open CInt Memory Framing Framing.Format WireFormat Model Model.Wire Model.HandleRead Model.AsyncServerUseProtobuf Spec

variable {runtime : Runtime}

theorem onRuntime_of_parsed {body : List UInt8} {msg : MsgData} {valid : Bool}
    (parsed : MsgData.parseFromString runtime body = some (msg, valid)) :
    (onRuntime runtime).parseFromString body = msg := by
  have read : (onRuntime runtime).parseFromString body =
      ((MsgData.parseFromString runtime body).map Prod.fst).getD .clear := rfl
  rw [read, parsed]
  rfl

/-- What the generated parser makes of a body, as a varint and a string. -/
def fieldsOf (runtime : Runtime) (body : List UInt8) : ℕ × List UInt8 :=
  let msg := (onRuntime runtime).parseFromString body
  (toSizeT msg.id, msg.data)

/-- The parser is a case of the arbitrary one. -/
theorem onRuntime_eq (lawful : runtime.Lawful) : onRuntime runtime = generated (fieldsOf runtime) := by
  rw [generated]
  have parsed (body : List UInt8) : (onRuntime runtime).parseFromString body =
      ⟨toInt (fieldsOf runtime body).1, (fieldsOf runtime body).2⟩ := by
    obtain ⟨msg, valid, found, low, high⟩ := parses_any lawful body
    have same := onRuntime_of_parsed found
    have id : toInt (toSizeT msg.id) = msg.id := by
      simp only [toInt, toSizeT]
      omega
    rw [fieldsOf, same, id]
  exact congrArg (Protobuf.mk · MsgData.internalSerialize) (funext parsed)

/-- The reply is framed, received, and parsed into the id of what was asked and its data behind the
text. -/
def Understood (runtime : Runtime) (asked : MsgData) (out : List UInt8) : Prop :=
  ∃ frame valid, sent out = .ok frame ∧ SyncClientUseProtobuf.received frame = .ok out ∧
    MsgData.parseFromString runtime out = some (⟨asked.id, replyPrefix ++ asked.data⟩, valid)

/-- A message that leaves room for the text of its reply. -/
def LeavesRoom (msg : MsgData) : Prop := msg.data.length + idSize msg.id ≤ 2008

theorem understood_reply (lawful : runtime.Lawful) {body : List UInt8} {asked : MsgData} {valid : Bool}
    (parsed : MsgData.parseFromString runtime body = some (asked, valid)) (range : HoldsInt asked)
    (room : LeavesRoom asked) : Understood runtime asked (reply (onRuntime runtime) body) := by
  have same := onRuntime_of_parsed parsed
  have replied : reply (onRuntime runtime) body =
      MsgData.internalSerialize ⟨asked.id, replyPrefix ++ asked.data⟩ := by
    rw [← same]
    rfl
  have id : toInt (toSizeT asked.id) = asked.id := by
    have low := range.low
    have high := range.high
    simp only [toInt, toSizeT]
    omega
  have limit : (reply (onRuntime runtime) body).length ≤ maxLength := by
    rw [onRuntime_eq lawful]
    apply (reply_length_iff (fieldsOf runtime) body).mpr
    rw [fieldsOf, same, id]
    exact room
  have fits := fits_of_limit limit
  have short : (replyPrefix ++ asked.data).length ≤ maxSize := by
    have text : (replyPrefix ++ asked.data).length = 37 + asked.data.length := by
      rw [List.length_append]
      rfl
    rw [LeavesRoom] at room
    rw [text, maxSize]
    omega
  have again := @parses_serialized _ lawful ⟨asked.id, replyPrefix ++ asked.data⟩ range.low range.high short
  rw [← replied] at again
  exact ⟨_, _, fits.framed, fits.received, again⟩

section Example

/-- The id 7 and the letter `A`. -/
def letter : MsgData := ⟨7, [65]⟩

def letterRequest : Request := ⟨[8, 7, 18, 1, 65], by decide⟩

end Example

end BoostLearn.Soundness.AsyncServerUseProtobuf
