import BoostLearn.Core.Memory
import BoostLearn.Core.Replay

/-! # The session of AsycApi

The queued writer copies every message into a node and offers the buffer of the call, or a node of
the queue, to the socket. The reader fills one node of a fixed size; its bytes are gone when the
session drops the node, also under a read that is still outstanding. An operation on the socket
reports how many bytes it moved, and an empty write succeeds at once.
-/

namespace BoostLearn.Model.AsycApi

open CInt Memory

def recvSize : ℕ := 1024

structure MsgNode where
  msg : Cells
  totalLen : ℤ
  curLen : ℤ
deriving DecidableEq, Repr

/-- `MsgNode::MsgNode(const char*, int)`; the array has the same size for every message. -/
def MsgNode.ofBytes (msg : List UInt8) (totalLen : ℤ) : Except Fault MsgNode := do
  let cells ← newChar recvSize
  let cells ← memcpy cells 0 (msg.map some) 0 (toSizeT totalLen)
  return ⟨cells, totalLen, 0⟩

/-- `MsgNode::MsgNode(int)`. -/
def MsgNode.ofSize (totalLen : ℤ) : Except Fault MsgNode := do
  let cells ← newChar totalLen
  return ⟨cells, totalLen, 0⟩

/-- The bytes of `asio::buffer(_msg + _cur_len, _total_len - _cur_len)`. -/
def MsgNode.remaining (node : MsgNode) : Except Fault (List UInt8) :=
  readString (node.msg.drop node.curLen.toNat) (toSizeT (node.totalLen - node.curLen))

theorem MsgNode.ofBytes_of_fits {msg : List UInt8} {totalLen : ℤ} (nonneg : 0 ≤ totalLen)
    (fits : totalLen ≤ recvSize) (source : totalLen ≤ msg.length) :
    ∃ node, MsgNode.ofBytes msg totalLen = .ok node := by
  simp only [recvSize] at fits
  have allocated : newChar (recvSize : ℤ) = .ok (List.replicate recvSize none) :=
    newChar_of_nonneg (by omega)
  have size : toSizeT totalLen = totalLen.toNat := toSizeT_of_range nonneg (by omega)
  rw [MsgNode.ofBytes, bind_of_ok allocated, size, memcpy, if_pos]
  · exact ⟨_, rfl⟩
  · simp only [List.length_replicate, List.length_map, recvSize]
    omega

theorem MsgNode.fits_of_ofBytes {msg : List UInt8} {totalLen : ℤ} {node : MsgNode}
    (range : -2147483648 ≤ totalLen ∧ totalLen < 2147483648) (built : MsgNode.ofBytes msg totalLen = .ok node) :
    0 ≤ totalLen ∧ totalLen ≤ recvSize := by
  obtain ⟨cells, allocated, built⟩ := ok_of_bind built
  obtain ⟨copied, done, -⟩ := ok_of_bind built
  cases (newChar_of_nonneg (Int.natCast_nonneg recvSize)).symm.trans allocated
  rw [memcpy] at done
  split_ifs at done with fits
  simp only [List.length_replicate, Int.toNat_natCast, recvSize] at fits
  have nonneg : 0 ≤ totalLen := nonneg_of_toSizeT (by omega) (by omega)
  rw [toSizeT_of_range nonneg (by omega)] at fits
  simp only [recvSize]
  omega

/-- The callbacks that the queued writers could hand to the socket. -/
inductive WriteCallBack where
  | writeCallBack
  | writeAllCallBack
deriving DecidableEq, Repr

/-- An outstanding write: the bytes offered, and what it calls. -/
structure Write where
  buffer : List UInt8
  callBack : WriteCallBack
deriving DecidableEq, Repr

/-- The members that the queued writers use, the outstanding writes, and the history. -/
structure Sender where
  sendQueue : List MsgNode
  sendPending : Bool
  writes : List Write
  submitted : List (List UInt8)
  written : List UInt8
  poppedEmpty : Bool
  fault : Option Fault
deriving DecidableEq, Repr

namespace Sender

/-- `Session::Session`. -/
def opened : Sender := ⟨[], false, [], [], [], false, none⟩

/-- `async_write_some` and `async_send` both go on with `writeCallBack`. The first write refers to the string
of the caller, which is taken to live and stay as it is until the write completes. -/
def offer (sender : Sender) (buffer : List UInt8) : Sender :=
  { sender with writes := sender.writes ++ [⟨buffer, .writeCallBack⟩] }

/-- The queued writers behind the construction of the node. -/
def emplace (sender : Sender) (buf : List UInt8) : Except Fault MsgNode → Sender
  | .error fault => { sender with fault := some fault }
  | .ok node =>
    let sender := { sender with
      sendQueue := sender.sendQueue ++ [node]
      submitted := sender.submitted ++ [buf] }
    if sender.sendPending then sender
    else { sender.offer buf with sendPending := false }

/-- The body of both queued writers. -/
def submit (sender : Sender) (buf : List UInt8) : Sender :=
  sender.emplace buf (MsgNode.ofBytes buf (toInt buf.length))

def writeToSocket : Sender → List UInt8 → Sender := submit

def writeAllToSocket : Sender → List UInt8 → Sender := submit

/-- The body of both callbacks behind the test of the error. -/
def next (sender : Sender) : Sender :=
  match sender.sendQueue with
  | [] => { sender with poppedEmpty := true }
  | _ :: sendQueue =>
    let sender := { sender with sendQueue }
    match sendQueue with
    | [] => { sender with sendPending := false }
    | sendData :: _ =>
      match sendData.remaining with
      | .error fault => { sender with fault := some fault }
      | .ok buffer => sender.offer buffer

/-- `Session::writeCallBack`, which ignores the count. -/
def writeCallBack (sender : Sender) (ec : Bool) : Sender := if ec then sender else sender.next

/-- `Session::writeAllCallBack`, which no write is started with. -/
def writeAllCallBack (sender : Sender) (ec : Bool) : Sender := if ec then sender else sender.next

def callBack (sender : Sender) : WriteCallBack → Bool → Sender
  | .writeCallBack => sender.writeCallBack
  | .writeAllCallBack => sender.writeAllCallBack

theorem submit_of_fault {sender : Sender} {buf : List UInt8} {fault : Fault}
    (failed : MsgNode.ofBytes buf (toInt buf.length) = .error fault) :
    sender.submit buf = { sender with fault := some fault } := by
  rw [submit, failed, emplace]

/-- While the flag is clear, a call starts a write, whatever is outstanding. -/
theorem submit_of_clear {sender : Sender} {buf : List UInt8} {node : MsgNode}
    (built : MsgNode.ofBytes buf (toInt buf.length) = .ok node) (clear : sender.sendPending = false) :
    sender.submit buf =
      { sender with
        sendQueue := sender.sendQueue ++ [node]
        sendPending := false
        writes := sender.writes ++ [⟨buf, .writeCallBack⟩]
        submitted := sender.submitted ++ [buf] } := by
  rw [submit, built]
  simp only [emplace, clear, Bool.false_eq_true, if_false, offer]

inductive Action where
  | writeToSocket (buf : List UInt8)
  | writeAllToSocket (buf : List UInt8)
  /-- A write completes without an error. -/
  | written (index count : ℕ)
  | failed (index : ℕ)

/-- A write leaves the outstanding ones and calls back. -/
def complete (sender : Sender) (index : ℕ) (write : Write) (count : ℕ) (ec : Bool) : Sender :=
  callBack { sender with
    writes := sender.writes.eraseIdx index
    written := sender.written ++ write.buffer.take count } write.callBack ec

def act (sender : Sender) : Action → Option Sender
  | .writeToSocket buf => some (sender.writeToSocket buf)
  | .writeAllToSocket buf => some (sender.writeAllToSocket buf)
  | .written index count =>
    sender.writes[index]?.bind fun write =>
      if count ≤ write.buffer.length ∧ (0 < count ∨ write.buffer = []) then
        some (sender.complete index write count false)
      else none
  | .failed index =>
    sender.writes[index]?.bind fun write =>
      if write.buffer = [] then none else some (sender.complete index write 0 true)

/-- Nothing goes on behind a fault or a pop of the empty queue. -/
def step (sender : Sender) (action : Action) : Option Sender :=
  if sender.poppedEmpty ∨ sender.fault.isSome then none else sender.act action

/-- What a step can be, and when. -/
theorem step_cases {sender target : Sender} {action : Action} (taken : sender.step action = some target) :
    (∃ buf, (action = .writeToSocket buf ∨ action = .writeAllToSocket buf) ∧
      target = sender.submit buf) ∨
    (∃ index count write, action = .written index count ∧ sender.writes[index]? = some write ∧
      count ≤ write.buffer.length ∧ target = sender.complete index write count false) ∨
    ∃ index write, action = .failed index ∧ sender.writes[index]? = some write ∧
      write.buffer ≠ [] ∧ target = sender.complete index write 0 true := by
  simp only [step] at taken
  split_ifs at taken
  cases action with
  | writeToSocket buf => exact .inl ⟨buf, .inl rfl, (Option.some.inj taken).symm⟩
  | writeAllToSocket buf => exact .inl ⟨buf, .inr rfl, (Option.some.inj taken).symm⟩
  | written index count =>
    obtain ⟨write, outstanding, taken⟩ := Option.bind_eq_some_iff.mp taken
    split_ifs at taken with reported
    cases taken
    exact .inr (.inl ⟨index, count, write, rfl, outstanding, reported.1, rfl⟩)
  | failed index =>
    obtain ⟨write, outstanding, taken⟩ := Option.bind_eq_some_iff.mp taken
    split_ifs at taken with empty
    cases taken
    exact .inr (.inr ⟨index, write, rfl, outstanding, empty, rfl⟩)

end Sender

/-- The two pairs of a reading call and its callback. -/
inductive ReadPair where
  | read
  | readAll
deriving DecidableEq, Repr

/-- An outstanding read: the array it fills, and the part of it that was offered. -/
structure Read where
  array : ℕ
  offset : ℤ
  size : ℤ
deriving DecidableEq, Repr

/-- The members that the reading calls use; `_recv_node` with the number of its array. Beside
them, the outstanding reads, how many arrays there have been, what has arrived for the last one,
and the bytes of the last node that a read has filled. -/
structure Receiver where
  recvPending : Bool
  recvNode : Option (ℕ × MsgNode)
  reads : List Read
  arrays : ℕ
  arrived : List UInt8
  stored : Cells
  fault : Option Fault
deriving DecidableEq, Repr

namespace Receiver

/-- A session whose `_recv_pending` is clear. -/
def opened : Receiver := ⟨false, none, [], 0, [], [], none⟩

/-- A reading call behind the construction of the node. -/
def offer (receiver : Receiver) : Except Fault MsgNode → Receiver
  | .error fault => { receiver with fault := some fault }
  | .ok node =>
    { receiver with
      recvNode := some (receiver.arrays, node)
      reads := receiver.reads ++ [⟨receiver.arrays, 0, node.totalLen⟩]
      arrays := receiver.arrays + 1
      arrived := []
      recvPending := true }

/-- The body of both reading calls. -/
def start (receiver : Receiver) : Receiver :=
  if receiver.recvPending then receiver else receiver.offer (MsgNode.ofSize recvSize)

def readFromSocket : Receiver → Receiver := start

def readAllFromSocket : Receiver → Receiver := start

def call (receiver : Receiver) : ReadPair → Receiver
  | .read => receiver.readFromSocket
  | .readAll => receiver.readAllFromSocket

/-- Ask for the rest of the node. -/
def offerRest (receiver : Receiver) (array : ℕ) (node : MsgNode) : Receiver :=
  { receiver with
    reads := receiver.reads ++ [⟨array, node.curLen, node.totalLen - node.curLen⟩] }

/-- `_recv_pending = false; _recv_node = nullptr;` -/
def reset (receiver : Receiver) : Receiver := { receiver with recvPending := false, recvNode := none }

/-- `Session::readCallBack`, on the live node and its array. -/
def readCallBack (receiver : Receiver) (array : ℕ) (node : MsgNode) (bytesTransferred : ℕ) : Receiver :=
  let node := { node with curLen := toInt (node.curLen + bytesTransferred) }
  let receiver := { receiver with recvNode := some (array, node) }
  let receiver := if node.curLen < node.totalLen then receiver.offerRest array node else receiver
  receiver.reset

/-- `Session::readAllCallBack`, on the live node and its array. -/
def readAllCallBack (receiver : Receiver) (array : ℕ) (node : MsgNode) (bytesTransferred : ℕ) :
    Receiver :=
  let node := { node with curLen := toInt (node.curLen + bytesTransferred) }
  let receiver := { receiver with recvNode := some (array, node) }
  if node.curLen < node.totalLen then (receiver.offerRest array node).reset else receiver

def callBack (receiver : Receiver) : ReadPair → ℕ → MsgNode → ℕ → Receiver
  | .read => receiver.readCallBack
  | .readAll => receiver.readAllCallBack

/-- The bytes of a completion go into the live node, whose callback then runs; the array of a node
that has been dropped is gone, and so is the node that the callback would use. -/
def fill (receiver : Receiver) (pair : ReadPair) (read : Read) (bytes : List UInt8) : Receiver :=
  match receiver.recvNode with
  | none => { receiver with fault := some .outOfBounds }
  | some (array, node) =>
    if array = read.array then
      match memcpy node.msg read.offset (bytes.map some) 0 bytes.length with
      | .error fault => { receiver with fault := some fault }
      | .ok msg =>
        callBack { receiver with arrived := receiver.arrived ++ bytes, stored := msg } pair array
          { node with msg } bytes.length
    else { receiver with fault := some .outOfBounds }

inductive Action where
  | call
  /-- A read completes without an error. -/
  | completed (index : ℕ) (bytes : List UInt8)

def act (pair : ReadPair) (receiver : Receiver) : Action → Option Receiver
  | .call => some (receiver.call pair)
  | .completed index bytes =>
    receiver.reads[index]?.bind fun read =>
      if 0 < bytes.length ∧ bytes.length ≤ read.size then
        some (fill { receiver with reads := receiver.reads.eraseIdx index } pair read bytes)
      else none

/-- Nothing goes on behind a fault. -/
def step (pair : ReadPair) (receiver : Receiver) (action : Action) : Option Receiver :=
  if receiver.fault.isSome then none else receiver.act pair action

theorem fill_of_live {pair : ReadPair} {receiver : Receiver} {read : Read} {bytes : List UInt8}
    {node : MsgNode} {msg : Cells} (live : receiver.recvNode = some (read.array, node))
    (copied : memcpy node.msg read.offset (bytes.map some) 0 bytes.length = .ok msg) :
    receiver.fill pair read bytes =
      callBack { receiver with arrived := receiver.arrived ++ bytes, stored := msg } pair read.array
        { node with msg } bytes.length := by
  simp only [fill, live, if_true, copied]

/-- What a step can be, and when. -/
theorem step_cases {pair : ReadPair} {receiver target : Receiver} {action : Action}
    (taken : receiver.step pair action = some target) :
    (action = .call ∧ target = receiver.start) ∨
    ∃ index bytes read, action = .completed index bytes ∧ receiver.reads[index]? = some read ∧
      0 < bytes.length ∧ bytes.length ≤ read.size ∧
      target = fill { receiver with reads := receiver.reads.eraseIdx index } pair read bytes := by
  simp only [step] at taken
  split_ifs at taken
  cases action with
  | call =>
    have called : receiver.call pair = receiver.start := by cases pair <;> rfl
    exact .inl ⟨rfl, ((Option.some.inj taken).symm).trans called⟩
  | completed index bytes =>
    obtain ⟨read, outstanding, taken⟩ := Option.bind_eq_some_iff.mp taken
    split_ifs at taken with reported
    exact .inr ⟨index, bytes, read, rfl, outstanding, reported.1, reported.2,
      (Option.some.inj taken).symm⟩

end Receiver

end BoostLearn.Model.AsycApi
