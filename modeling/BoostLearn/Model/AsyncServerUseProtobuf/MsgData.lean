import BoostLearn.Core.Varint
import BoostLearn.Model.AsyncServerUseProtobuf.Session

/-! # The replies of AsyncServer_useProtobuf on the wire

The generated `MsgData` writes its fields in the wire format of proto3 and leaves out those with
their default; what the parser gets out of a body is arbitrary. The serialized reply is copied
behind its length into the node that is sent, and SyncClient_useProtobuf reads it into an array of
a fixed size.
-/

namespace BoostLearn.Model

open CInt Memory Wire

namespace AsyncServerUseProtobuf

/-- `WireFormatLite::WriteInt32ToArray`: the tag with the wire type 0, and the value extended to 64
bits. -/
def writeInt32ToArray (field : ℕ) (value : ℤ) : List UInt8 :=
  varint (8 * field) ++ varint (toSizeT value)

/-- `WriteStringMaybeAliased`: the tag with the wire type 2, the length, and the string. -/
def writeString (field : ℕ) (value : List UInt8) : List UInt8 :=
  varint (8 * field + 2) ++ varint value.length ++ value

/-- `MsgData::_InternalSerialize`, without unknown fields. -/
def MsgData.internalSerialize (msg : MsgData) : List UInt8 :=
  (if msg.id ≠ 0 then writeInt32ToArray 1 msg.id else []) ++
    (if msg.data ≠ [] then writeString 2 msg.data else [])

/-- `MsgData::ByteSizeLong`, without unknown fields. -/
def MsgData.byteSizeLong (msg : MsgData) : ℕ :=
  let totalSize := 0
  let totalSize :=
    if msg.data ≠ [] then totalSize + (1 + ((varint msg.data.length).length + msg.data.length))
    else totalSize
  if msg.id ≠ 0 then totalSize + (1 + (varint (toSizeT msg.id)).length) else totalSize

/-- The calls of the generated code. `fields` is what is read of a body: the varint of the field 1,
which is stored as an `int32`, and the string of the field 2. -/
def generated (fields : List UInt8 → ℕ × List UInt8) : Protobuf where
  parseFromString body := ⟨toInt (fields body).1, (fields body).2⟩
  serializeToString := MsgData.internalSerialize

/-- `MsgNode::MsgNode(const char*, short)`, the constructor for messages to be sent. -/
def newSendNode (msg : List UInt8) (maxLen : ℤ) : Except Fault MsgNode := do
  let total := toInt (maxLen + headLength)
  let data ← newChar (total + 1)
  let data ← storeShort data 0 (toInt (hostToNetworkShort maxLen))
  let data ← memcpy data headLength (msg.map some) 0 (toSizeT maxLen)
  let data ← store data total 0
  return ⟨0, total, data⟩

/-- What `Session::Send(std::string)` hands to the write: `asio::buffer(_data, _max_len)` of a new
node. -/
def sent (msg : List UInt8) : Except Fault (List UInt8) := do
  let node ← newSendNode msg (toShort msg.length)
  readString node.data (toSizeT node.maxLen)

end AsyncServerUseProtobuf

namespace SyncClientUseProtobuf

/-- What `main` parses of the bytes it receives: the length in a head of two bytes, and then as many
bytes of `msg[MAX_LENGTH]`. The buffer that is read into is never larger than this array. -/
def received (bytes : List UInt8) : Except Fault (List UInt8) := do
  let msglen := toShort (networkToHostShort (← loadShort ((bytes.take 2).map some) 0))
  let msg := List.replicate maxLength (some 0)
  let msg ← memcpy msg 0 ((bytes.drop 2).map some) 0 (min maxLength (toSizeT msglen))
  readString msg (toSizeT msglen)

end SyncClientUseProtobuf

namespace AsyncServerUseProtobuf

/-- The serializer writes as many bytes as it has announced. -/
theorem MsgData.length_internalSerialize (msg : MsgData) :
    msg.internalSerialize.length = msg.byteSizeLong := by
  have tag {value : ℕ} (small : value < 128) : (varint value).length = 1 := by
    rw [varint_of_lt small, List.length_singleton]
  rw [MsgData.internalSerialize, MsgData.byteSizeLong, List.length_append]
  split_ifs with id data
  all_goals simp only [writeInt32ToArray, writeString, List.length_append, List.length_nil,
    tag (show 8 * 1 < 128 by decide), tag (show 8 * 2 + 2 < 128 by decide)]
  all_goals omega

/-- The `int` that holds the swapped length starts with the two bytes of a `short`. -/
theorem storeShort_int (cells : Cells) (position : ℕ) (value : ℤ) :
    storeShort cells position (toInt (hostToNetworkShort value)) =
      memcpy cells position ((bigEndianBytes value).map some) 0 2 := by
  have low : toInt (hostToNetworkShort value) % 65536 =
      toShort (hostToNetworkShort value) % 65536 := by
    simp only [toInt, toShort]
    omega
  rw [← storeShort_hostToNetworkShort]
  simp only [storeShort, low]

private theorem newSendNode_of_stores {msg : List UInt8} {maxLen total : ℤ} {count : ℕ}
    {room framed copied terminated : Cells} (size : toInt (maxLen + headLength) = total)
    (converted : toSizeT maxLen = count)
    (allocated : newChar (total + 1) = .ok room)
    (lenStored : storeShort room 0 (toInt (hostToNetworkShort maxLen)) = .ok framed)
    (msgStored : memcpy framed headLength (msg.map some) 0 count = .ok copied)
    (last : store copied total 0 = .ok terminated) :
    newSendNode msg maxLen = .ok ⟨0, total, terminated⟩ := by
  rw [newSendNode, size, converted, bind_of_ok allocated, bind_of_ok lenStored, bind_of_ok msgStored,
    bind_of_ok last]
  rfl

/-- A message of a size that the protocol allows is framed by its length. -/
theorem newSendNode_of_limit {msg : List UInt8} (limit : msg.length ≤ maxLength) :
    newSendNode msg msg.length =
      .ok ⟨0, (msg.length + 2 : ℕ), (bigEndianBytes msg.length ++ msg).map some ++ [some 0]⟩ := by
  have small : msg.length ≤ 2048 := limit
  have total : toInt ((msg.length : ℤ) + headLength) = (msg.length + 2 : ℕ) :=
    toInt_of_range (by omega) (by simp only [headLength]; omega)
  let room : Cells := List.replicate (msg.length + 3) none
  have size : room.length = msg.length + 3 := List.length_replicate
  have allocated : newChar (((msg.length + 2 : ℕ) : ℤ) + 1) = .ok room :=
    newChar_of_nonneg (by omega)
  have lenStored := memcpy_prefix [] (bigEndianBytes msg.length) [] room
    (by rw [size]; exact Nat.le_add_left 2 (msg.length + 1))
  have msgStored := memcpy_prefix (bigEndianBytes msg.length) msg [] (room.drop 2)
    (by rw [List.length_drop, size]; omega)
  have rest : (room.drop 2).drop msg.length = [none] := by
    rw [List.drop_drop, List.drop_replicate, show msg.length + 3 - (2 + msg.length) = 1 by omega]
    rfl
  have length : ((bigEndianBytes msg.length ++ msg).length : ℤ) = (msg.length + 2 : ℕ) := by
    rw [List.length_append, Nat.add_comm]
    rfl
  have last := store_last (bigEndianBytes msg.length ++ msg) none 0
  rw [List.append_nil] at lenStored msgStored
  rw [rest] at msgStored
  rw [length] at last
  exact newSendNode_of_stores total (toSizeT_of_limit limit) allocated
    ((storeShort_int ..).trans lenStored) msgStored last

theorem sent_of_limit {msg : List UInt8} (limit : msg.length ≤ maxLength) :
    sent msg = .ok (bigEndianBytes msg.length ++ msg) := by
  have small : msg.length ≤ 2048 := limit
  have length : (bigEndianBytes msg.length ++ msg).length = msg.length + 2 := by
    rw [List.length_append, Nat.add_comm]
    rfl
  have read := readString_map (bigEndianBytes msg.length ++ msg) [some 0]
  rw [length] at read
  rw [sent, toShort_of_limit limit, bind_of_ok (newSendNode_of_limit limit), toSizeT_natCast (by omega), read]

/-- The client reads what has been framed. -/
theorem received_of_limit {msg : List UInt8} (limit : msg.length ≤ maxLength) :
    SyncClientUseProtobuf.received (bigEndianBytes msg.length ++ msg) = .ok msg := by
  have small : msg.length ≤ 2048 := limit
  obtain ⟨high, low, bytes, field⟩ := bigEndianShort_bytes msg.length
  rw [toShort_of_limit limit] at field
  have loaded : loadShort ([high, low].map some) 0 = .ok (toShort (high.toNat + 256 * low.toNat)) :=
    loadShort_of_bytes rfl rfl
  have copied : memcpy (List.replicate maxLength (some 0)) 0 (msg.map some) 0 msg.length =
      .ok (msg.map some ++ (List.replicate maxLength (some 0)).drop msg.length) := by
    have whole := memcpy_prefix [] msg [] (List.replicate maxLength (some 0))
      (by rwa [List.length_replicate])
    rwa [List.append_nil] at whole
  have read := readString_map msg ((List.replicate maxLength (some 0)).drop msg.length)
  rw [SyncClientUseProtobuf.received, bytes]
  change (do
    let field ← loadShort ([high, low].map some) 0
    let cells ← memcpy (List.replicate maxLength (some 0)) 0 (msg.map some) 0
      (min maxLength (toSizeT (toShort (networkToHostShort field))))
    readString cells (toSizeT (toShort (networkToHostShort field)))) = .ok msg
  rw [bind_of_ok loaded, networkToHostShort_load, field, toSizeT_of_limit limit,
    Nat.min_eq_right limit, bind_of_ok copied]
  exact read

end AsyncServerUseProtobuf

end BoostLearn.Model
