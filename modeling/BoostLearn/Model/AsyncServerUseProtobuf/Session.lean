import BoostLearn.Model.HandleRead

/-! # Receiving in AsyncServer_useProtobuf

A body that is complete in the read of its header is parsed and answered; a body completed by a
later read is sent back as it came. The node of a received body is built without a terminator.
The line that prints a continued body is not modelled.
-/

namespace BoostLearn.Model.AsyncServerUseProtobuf

open CInt Memory Wire HandleRead

def headLength : ℕ := 2

structure MsgData where
  id : ℤ
  data : List UInt8
deriving DecidableEq, Repr

/-- The two calls into protobuf. Parsing also leaves a value when it fails. -/
structure Protobuf where
  parseFromString : List UInt8 → MsgData
  serializeToString : MsgData → List UInt8

/-- `MsgNode::MsgNode(short)`, the constructor for received messages. -/
def newMsgNode (maxLen : ℤ) : Except Fault MsgNode := do
  let data ← newChar (maxLen + 1)
  return ⟨0, maxLen, data⟩

/-- The session after `Session::start`, which builds the head node. -/
def startedSession : Except Fault (Session Unit) := do
  let head ← newMsgNode headLength
  return ⟨head, false, none⟩

def header (cells : Cells) : Except Fault (Option (Unit × ℤ)) := do
  let dataLen := toShort (networkToHostShort (← loadShort cells 0))
  if dataLen > maxLength then return none
  return some ((), dataLen)

/-- `"server has received msg, msg data is "`. -/
def replyPrefix : List UInt8 :=
  "server has received msg, msg data is ".toList.map (UInt8.ofNat ·.toNat)

/-- The reply to a parsed body. -/
def reply (protobuf : Protobuf) (body : List UInt8) : List UInt8 :=
  let msgdata := protobuf.parseFromString body
  protobuf.serializeToString ⟨msgdata.id, replyPrefix ++ msgdata.data⟩

/-- The string handed to `Send` when the body came with its header. -/
def complete (protobuf : Protobuf) (node : RecvNode Unit) : Except Fault (List UInt8) := do
  let body ← readString node.data (toSizeT node.maxLen)
  return reply protobuf body

/-- The bytes handed to `Send` when a later read completed the body. -/
def continued (node : RecvNode Unit) : Except Fault (List UInt8) :=
  readString node.data (toSizeT node.maxLen)

def codec (protobuf : Protobuf) : Codec Unit (List UInt8) where
  headLen := headLength
  narrow := toInt
  header := header
  newNode := newMsgNode
  complete := complete protobuf
  continued := continued

theorem startedSession_eq :
    startedSession = .ok ⟨⟨0, 2, List.replicate 2 none ++ [none]⟩, false, none⟩ := rfl

theorem newMsgNode_of_nonneg (length : ℕ) :
    newMsgNode length = .ok ⟨0, length, List.replicate length none ++ [none]⟩ := by
  have allocated : newChar ((length : ℤ) + 1) = .ok (List.replicate (length + 1) none) :=
    newChar_of_nonneg (by omega)
  simp only [newMsgNode, allocated, bind, Except.bind, List.replicate_succ']
  rfl

/-- A node for the length `-1` is still allocated, without any room. -/
theorem newMsgNode_of_negative {length : ℤ} (lowest : length < -1) :
    newMsgNode length = .error .badArrayNewLength := by
  simp only [newMsgNode, newChar_of_negative (by omega : length + 1 < 0), bind, Except.bind]

theorem continued_of_body {body : List UInt8} (limit : body.length ≤ maxLength) (rest : Cells) :
    continued ⟨⟨body.length, body.length, body.map some ++ rest⟩, ()⟩ = .ok body := by
  rw [continued, toSizeT_of_limit limit, readString_map]

theorem complete_of_body (protobuf : Protobuf) {body : List UInt8} (limit : body.length ≤ maxLength)
    (rest : Cells) :
    complete protobuf ⟨⟨body.length, body.length, body.map some ++ rest⟩, ()⟩ =
      .ok (reply protobuf body) := by
  have read := continued_of_body limit rest
  rw [continued] at read
  simp only [complete, read, bind, Except.bind]
  rfl

private theorem header_of_load {cells : Cells} {field : ℤ} (dataLen : loadShort cells 0 = .ok field) :
    header cells =
      if toShort (networkToHostShort field) > maxLength then .ok none
      else .ok (some ((), toShort (networkToHostShort field))) := by
  rw [header, dataLen]
  simp only [bind, Except.bind, pure, Except.pure]

theorem header_of_field (lenHigh lenLow : UInt8) (rest : Cells) :
    header ([lenHigh, lenLow].map some ++ rest) =
      if bigEndianShort lenHigh lenLow > maxLength then .ok none
      else .ok (some ((), bigEndianShort lenHigh lenLow)) := by
  have dataLen : loadShort ([lenHigh, lenLow].map some ++ rest) 0 =
    .ok (toShort (lenHigh.toNat + 256 * lenLow.toNat)) := loadShort_of_bytes rfl rfl
  rw [header_of_load dataLen, networkToHostShort_load]

end BoostLearn.Model.AsyncServerUseProtobuf
