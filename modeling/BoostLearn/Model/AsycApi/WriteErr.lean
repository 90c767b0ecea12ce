import BoostLearn.Model.AsycApi.Session

/-! # The writer of AsycApi without a queue

One message is copied into a node and offered to the socket; the callback of a write that took less
than what is left of the node moves its cursor and offers the rest. Until a second call replaces
it, `_send_node` is the node that the callback is bound to.
-/

namespace BoostLearn.Model.AsycApi

open CInt Memory

/-- The node of the message, the buffer of the outstanding write, and the bytes the socket has
taken. -/
structure ErrWriter where
  sendNode : MsgNode
  offered : Option (List UInt8)
  written : List UInt8
deriving DecidableEq, Repr

namespace ErrWriter

/-- `Session::writeToSocketErr`, in a session without an outstanding write. -/
def writeToSocketErr (buf : List UInt8) : Except Fault ErrWriter := do
  let sendNode ← MsgNode.ofBytes buf (toInt buf.length)
  let buffer ← readString sendNode.msg (toSizeT sendNode.totalLen)
  return ⟨sendNode, some buffer, []⟩

/-- Move the cursor and offer the rest of the node. -/
def offerRest (writer : ErrWriter) (bytesTransferred : ℕ) : Except Fault ErrWriter := do
  let sendNode := { writer.sendNode with
    curLen := toInt (writer.sendNode.curLen + bytesTransferred) }
  let buffer ← sendNode.remaining
  return { writer with sendNode, offered := some buffer }

/-- `Session::writeCallBackErr`, which ignores the error; the sum and the comparison are unsigned. -/
def writeCallBackErr (writer : ErrWriter) (bytesTransferred : ℕ) : Except Fault ErrWriter :=
  if toSizeT (bytesTransferred + writer.sendNode.curLen) < toSizeT writer.sendNode.totalLen then
    writer.offerRest bytesTransferred
  else return writer

/-- The outstanding write takes bytes from the front of its buffer, and its callback runs. -/
def complete (writer : ErrWriter) (count : ℕ) : Option (Except Fault ErrWriter) :=
  writer.offered.bind fun buffer =>
    if count ≤ buffer.length ∧ (0 < count ∨ buffer = []) then
      some (writeCallBackErr { writer with
        offered := none
        written := writer.written ++ buffer.take count } count)
    else none

/-- A write completes without an error and reports this many bytes; nothing goes on behind a fault. -/
def step : Except Fault ErrWriter → ℕ → Option (Except Fault ErrWriter)
  | .error _, _ => none
  | .ok writer, count => writer.complete count

theorem step_ok {writer : ErrWriter} {count : ℕ} {target : Except Fault ErrWriter}
    (taken : step (.ok writer) count = some target) :
    ∃ buffer, writer.offered = some buffer ∧ count ≤ buffer.length ∧ (0 < count ∨ buffer = []) ∧
      target = writeCallBackErr { writer with
        offered := none
        written := writer.written ++ buffer.take count } count := by
  obtain ⟨buffer, offered, taken⟩ := Option.bind_eq_some_iff.mp taken
  split_ifs at taken with reported
  exact ⟨buffer, offered, reported.1, reported.2, (Option.some.inj taken).symm⟩

end ErrWriter

end BoostLearn.Model.AsycApi
