import BoostLearn.Model.Wire

/-! # Message nodes

A node is an allocation with two cursors, both of a type the source narrows to. AsyncServer and
CoroutineService build their nodes with the same two constructors; a constructor that throws or
leaves its allocation is a fault.
-/

namespace BoostLearn.Model

open CInt Memory Wire

def maxLength : ℕ := 2048

def headTotalLen : ℕ := 4

section Limit

variable {length : ℕ}

/-- A length that the protocol allows survives every conversion. -/
theorem toShort_of_limit (limit : length ≤ maxLength) : toShort length = length := by
  simp only [maxLength] at limit
  exact toShort_of_range (by omega) (by omega)

theorem toInt_of_limit (limit : length ≤ maxLength) : toInt length = length := by
  simp only [maxLength] at limit
  exact toInt_of_range (by omega) (by omega)

theorem toSizeT_of_limit (limit : length ≤ maxLength) : toSizeT length = length := by
  simp only [maxLength] at limit
  exact toSizeT_natCast (by omega)

end Limit

structure MsgNode where
  curLen : ℤ
  maxLen : ℤ
  data : Cells
deriving DecidableEq, Repr

/-- `MsgNode::MsgNode(short)`. -/
def MsgNode.new (maxLen : ℤ) : Except Fault MsgNode := do
  let data ← newChar (maxLen + 1)
  let data ← store data maxLen 0
  return ⟨0, maxLen, data⟩

/-- `MsgNode::Clear`. -/
def MsgNode.clear (node : MsgNode) : Except Fault MsgNode := do
  let data ← memset node.data 0 (toSizeT node.maxLen)
  return { node with data, curLen := 0 }

/-- A body node, tagged with what its header said besides the length. -/
structure RecvNode (τ : Type) extends MsgNode where
  msgId : τ
deriving DecidableEq, Repr

structure SendNode extends MsgNode where
  msgId : ℤ
deriving DecidableEq, Repr

/-- `SendNode::SendNode`, on a message of which `msgLen` bytes are to be copied. -/
def SendNode.new (msg : List UInt8) (msgLen : ℕ) (msgId : ℤ) : Except Fault SendNode := do
  let node ← MsgNode.new (toShort (msgLen + headTotalLen))
  let data ← storeShort node.data 0 (toShort (hostToNetworkShort msgId))
  let data ← storeShort data 2 (toShort (hostToNetworkShort msgLen))
  let data ← memcpy data headTotalLen (msg.map some) 0 msgLen
  return { node with data, msgId }

/-- What a write sends of a node: `asio::buffer(_data, _max_len)`. -/
def SendNode.written (node : SendNode) : Except Fault (List UInt8) :=
  readString node.data (toSizeT node.maxLen)

theorem MsgNode.new_of_nonneg (length : ℕ) :
    MsgNode.new length = .ok ⟨0, length, List.replicate length none ++ [some 0]⟩ := by
  have allocated : newChar ((length : ℤ) + 1) = .ok (List.replicate (length + 1) none) :=
    newChar_of_nonneg (by omega)
  have stored : store (List.replicate (length + 1) none) (length : ℤ) 0 =
      .ok (List.replicate length none ++ [some 0]) := by
    rw [store_of_range (by rw [List.length_replicate]; omega), List.replicate_succ']
    simp
  simp only [MsgNode.new, allocated, stored, bind, Except.bind]
  rfl

/-- No node is built for a negative length: the array or its terminator is out of range. -/
theorem MsgNode.new_of_negative {length : ℤ} (negative : length < 0) :
    ∃ fault, MsgNode.new length = .error fault := by
  by_cases lowest : length + 1 < 0
  · refine ⟨.badArrayNewLength, ?_⟩
    simp only [MsgNode.new, newChar_of_negative lowest, bind, Except.bind]
  · refine ⟨.outOfBounds, ?_⟩
    simp only [MsgNode.new, newChar_of_nonneg (by omega : 0 ≤ length + 1),
      store_outside (Or.inl negative), bind, Except.bind]

private theorem storeShort_behind (held : List UInt8) (room : Cells) (fits : 2 ≤ room.length)
    (value : ℤ) :
    storeShort (held.map some ++ room) held.length (toShort (hostToNetworkShort value)) =
      .ok ((held ++ bigEndianBytes value).map some ++ room.drop 2) := by
  have stored := memcpy_prefix held (bigEndianBytes value) [] room fits
  rw [List.append_nil] at stored
  rw [storeShort_hostToNetworkShort]
  exact stored

private theorem SendNode.new_of_stores {msg : List UInt8} {msgLen : ℕ} {msgId : ℤ} {node : MsgNode}
    {withId withLen filled : Cells} (allocated : MsgNode.new (toShort (msgLen + headTotalLen)) = .ok node)
    (idStored : storeShort node.data 0 (toShort (hostToNetworkShort msgId)) = .ok withId)
    (lenStored : storeShort withId 2 (toShort (hostToNetworkShort msgLen)) = .ok withLen)
    (msgStored : memcpy withLen headTotalLen (msg.map some) 0 msgLen = .ok filled) :
    SendNode.new msg msgLen msgId = .ok { node with data := filled, msgId } := by
  rw [SendNode.new, bind_of_ok allocated, bind_of_ok idStored, bind_of_ok lenStored,
    bind_of_ok msgStored]
  rfl

/-- A message that fits behind its header becomes a frame with a terminator. -/
theorem SendNode.new_of_fits {msg : List UInt8} {msgLen : ℕ} (source : msgLen ≤ msg.length)
    (fits : msgLen + headTotalLen < 32768) (msgId : ℤ) :
    SendNode.new msg msgLen msgId = .ok {
      curLen := 0
      maxLen := (msgLen + headTotalLen : ℕ)
      data := (bigEndianBytes msgId ++ bigEndianBytes msgLen ++ msg.take msgLen).map some ++ [some 0]
      msgId } := by
  have short : toShort ((msgLen : ℤ) + headTotalLen) = (msgLen + headTotalLen : ℕ) := by
    rw [toShort_of_range (by omega) (by omega), Int.natCast_add]
  let room : Cells := List.replicate (msgLen + headTotalLen) none ++ [some 0]
  have allocated : MsgNode.new (toShort (msgLen + headTotalLen)) =
      .ok ⟨0, (msgLen + headTotalLen : ℕ), room⟩ := by
    rw [short, MsgNode.new_of_nonneg]
  have size : room.length = msgLen + 5 := by
    simp only [room, List.length_append, List.length_replicate, List.length_singleton, headTotalLen]
  have last : ((room.drop 2).drop 2).drop msgLen = [some 0] := by
    rw [List.drop_drop, List.drop_drop]
    exact List.drop_left' (by rw [List.length_replicate, headTotalLen]; omega)
  have taken : (msg.take msgLen).length = msgLen := List.length_take_of_le source
  have idStored := storeShort_behind [] room (by omega) msgId
  have lenStored := storeShort_behind (bigEndianBytes msgId) (room.drop 2)
    (by rw [List.length_drop]; omega) msgLen
  have msgStored := memcpy_prefix (bigEndianBytes msgId ++ bigEndianBytes msgLen) (msg.take msgLen)
    (msg.drop msgLen) ((room.drop 2).drop 2)
    (by rw [taken, List.length_drop, List.length_drop]; omega)
  rw [List.take_append_drop, taken, last] at msgStored
  exact SendNode.new_of_stores allocated idStored lenStored msgStored

/-- All of a frame but its terminator is sent. -/
theorem SendNode.written_of_fits {msg : List UInt8} {msgLen : ℕ} (source : msgLen ≤ msg.length)
    (fits : msgLen + headTotalLen < 32768) (msgId : ℤ) :
    ∃ node, SendNode.new msg msgLen msgId = .ok node ∧
      node.written = .ok (bigEndianBytes msgId ++ bigEndianBytes msgLen ++ msg.take msgLen) := by
  have size : (bigEndianBytes msgId ++ bigEndianBytes msgLen ++ msg.take msgLen).length =
      msgLen + headTotalLen := by
    simp only [List.length_append, List.length_take_of_le source, bigEndianBytes, List.length_cons,
      List.length_nil, headTotalLen]
    omega
  refine ⟨_, SendNode.new_of_fits source fits msgId, ?_⟩
  rw [SendNode.written, toSizeT_natCast (by omega), ← size]
  exact readString_map _ _

/-- A node that was built has room for its cursor's type and a terminator. -/
theorem MsgNode.new_length {maxLen : ℤ} {node : MsgNode} (built : MsgNode.new maxLen = .ok node) :
    (node.data.length : ℤ) = maxLen + 1 := by
  cases maxLen with
  | ofNat length =>
    cases (MsgNode.new_of_nonneg length).symm.trans built
    simp
  | negSucc _ =>
    obtain ⟨fault, failed⟩ := MsgNode.new_of_negative (Int.negSucc_lt_zero _)
    rw [failed] at built
    contradiction

/-- A message too long for the type of the cursors overflows its allocation, or gets none. -/
theorem SendNode.new_of_long {msgLen : ℕ} (long : 32768 ≤ msgLen + headTotalLen) (msg : List UInt8)
    (msgId : ℤ) : ∃ fault, SendNode.new msg msgLen msgId = .error fault := by
  cases built : SendNode.new msg msgLen msgId with
  | error fault => exact ⟨fault, rfl⟩
  | ok node =>
    exfalso
    obtain ⟨allocated, new, built⟩ := ok_of_bind built
    obtain ⟨withId, idStored, built⟩ := ok_of_bind built
    obtain ⟨withLen, lenStored, built⟩ := ok_of_bind built
    obtain ⟨filled, msgStored, -⟩ := ok_of_bind built
    have size := MsgNode.new_length new
    have room : withLen.length = allocated.data.length :=
      (storeShort_length lenStored).trans (storeShort_length idStored)
    have overflow : (withLen.length : ℤ) < headTotalLen + msgLen := by
      rw [room, size, toShort]
      omega
    rw [memcpy_outside overflow] at msgStored
    cases msgStored

end BoostLearn.Model
