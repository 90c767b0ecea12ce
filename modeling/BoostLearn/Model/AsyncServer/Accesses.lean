import BoostLearn.Model.AsyncServer.Session

/-! # What `Session::handle_read` of AsyncServer touches

An iteration of the receive loop copies out of the receive buffer into a node, builds body nodes
and terminates them. The accesses of an iteration are listed with the sizes that the code computes,
before a copy converts its own to a `size_t`. Nothing follows an access that has failed.
-/

namespace BoostLearn.Model.AsyncServer

open CInt Memory HandleRead

inductive Access where
  /-- `memcpy(_recv_head_node->_data + target, _data + source, size)` -/
  | head (target source size : ℤ)
  /-- `memcpy(_recv_msg_node->_data + target, _data + source, size)` -/
  | body (maxLen target source size : ℤ)
  /-- `new char[size]`, for a `RecvNode` -/
  | newChar (size : ℤ)
  /-- `_data[index] = '\0'`, in an array of this size -/
  | terminator (index size : ℤ)
deriving DecidableEq, Repr

/-- A copy from what has been received into an area with this much room. -/
def CopyInRange (room received target source size : ℤ) : Prop :=
  0 ≤ size ∧ (0 ≤ source ∧ source + size ≤ received) ∧ 0 ≤ target ∧ target + size ≤ room

/-- The access stays in its area, when this many bytes have been received. -/
def Access.InRange (received : ℕ) : Access → Prop
  | .head target source size => CopyInRange headTotalLen received target source size
  | .body maxLen target source size => CopyInRange maxLen received target source size
  | .newChar size => 1 ≤ size
  | .terminator index size => 0 ≤ index ∧ index < size

abbrev ReceiveLoop : Type := Loop ℤ (ℤ × List UInt8)

/-- `RecvNode::RecvNode`: an array, and its terminator unless `new` has thrown. -/
def newNodeAccesses (msgLen : ℤ) : List Access :=
  if msgLen + 1 < 0 then [.newChar (msgLen + 1)]
  else [.newChar (msgLen + 1), .terminator msgLen (msgLen + 1)]

/-- The copy into a new node, and the terminator of a body that is complete. -/
def fillAccesses (loop : ReceiveLoop) (msgLen : ℤ) : Except Fault MsgNode → List Access
  | .error _ => []
  | .ok node =>
    if loop.byteTransfered < toSizeT msgLen then
      [.body node.maxLen node.curLen loop.copyLen loop.byteTransfered]
    else
      [.body node.maxLen node.curLen loop.copyLen msgLen,
        .terminator node.maxLen node.data.length]

/-- The loop body after an accepted header. -/
def startBodyAccesses (loop : ReceiveLoop) (msgLen : ℤ) : List Access :=
  newNodeAccesses msgLen ++ fillAccesses loop msgLen (MsgNode.new msgLen)

/-- The loop body after a complete header. -/
def headerAccesses (loop : ReceiveLoop) : Except Fault (Option (ℤ × ℤ)) → List Access
  | .ok (some (_, msgLen)) => startBodyAccesses loop msgLen
  | _ => []

/-- The loop body while `_b_head_parse` is false. -/
def startFrameAccesses (data : Cells) (loop : ReceiveLoop) : List Access :=
  let head := loop.session.recvHeadNode
  if toSizeT (loop.byteTransfered + head.curLen) < toSizeT headTotalLen then
    [.head head.curLen loop.copyLen loop.byteTransfered]
  else
    let headRemind := headTotalLen - head.curLen
    .head head.curLen loop.copyLen headRemind ::
      headerAccesses
        { loop with
          byteTransfered := toSizeT (loop.byteTransfered - headRemind)
          copyLen := loop.copyLen + headRemind }
        (memcpy head.data head.curLen data loop.copyLen (toSizeT headRemind) >>= header)

/-- The loop body while `_b_head_parse` is true; it writes no terminator. -/
def continueBodyAccesses (loop : ReceiveLoop) (node : RecvNode ℤ) : List Access :=
  let remindMsg := node.maxLen - node.curLen
  if loop.byteTransfered < toSizeT remindMsg then
    [.body node.maxLen node.curLen loop.copyLen loop.byteTransfered]
  else
    [.body node.maxLen node.curLen loop.copyLen remindMsg]

/-- One iteration of the `while` loop. -/
def iterationAccesses (data : Cells) (loop : ReceiveLoop) : List Access :=
  if loop.session.bHeadParse then
    match loop.session.recvMsgNode with
    | some node => continueBodyAccesses loop node
    | none => []
  else startFrameAccesses data loop

/-- The accesses of the first iterations of a handler, as many as the fuel allows. -/
def runAccesses (data : Cells) : ℕ → ReceiveLoop → List Access
  | 0, _ => []
  | fuel + 1, loop =>
    if loop.byteTransfered > 0 then
      iterationAccesses data loop ++
        match codec.iteration data loop with
        | .ok (.again next) => runAccesses data fuel next
        | _ => []
    else []

/-- Every access of the handler of a completion stays in range, however long the handler runs. -/
def SafeRead (session : Session ℤ) (completion : Completion) : Prop :=
  ∀ fuel, ∀ access ∈ runAccesses (Codec.receiveBuffer completion.bytes) fuel
    ⟨session, completion.bytes.length, 0, []⟩, access.InRange completion.bytes.length

/-- The same for completions one after the other, as long as each handler arms the next read. -/
def Safe : Session ℤ → List Completion → Prop
  | _, [] => True
  | session, completion :: rest =>
    SafeRead session completion ∧
      ∀ fuel next, codec.handleRead fuel session (some completion.bytes) = some (.ok next) →
        next.reading = true → Safe next.session rest

end BoostLearn.Model.AsyncServer
