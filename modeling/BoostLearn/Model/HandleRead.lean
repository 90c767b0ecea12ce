import BoostLearn.Model.MsgNode

/-! # The receive loop of `Session::handle_read`

AsyncServer and AsyncServer_useProtobuf run the same loop over the bytes of one read completion.
They differ in the size and the checks of the header, in the constructor of a body node, and in
what they do with a body that completes in the read of its header and with one that completes in
a later read; a codec supplies these. Every copy names its ranges in the receive buffer and in
the node, so that a copy out of bounds is a fault of the model.

A handler that returns has armed at most one new read or removed the session. The loop is run
with fuel, and a handler that needs more than every amount of fuel never returns.
-/

namespace BoostLearn.Model.HandleRead

open CInt Memory

/-- The members of `Session` that receiving uses; `_recv_msg_node` starts as a null pointer. -/
structure Session (τ : Type) where
  recvHeadNode : MsgNode
  bHeadParse : Bool
  recvMsgNode : Option (RecvNode τ)
deriving DecidableEq, Repr

/-- What a completed frame leaves behind: the flag, the head cursor and the body's last byte. -/
structure FrameEnd where
  bHeadParse : Bool
  headCursor : ℤ
  terminator : Option UInt8
deriving DecidableEq, Repr

def Session.frameEnd {τ : Type} (session : Session τ) (node : MsgNode) : FrameEnd where
  bHeadParse := session.bHeadParse
  headCursor := session.recvHeadNode.curLen
  terminator := node.data[node.maxLen.toNat]?.join

/-- The calls out of a handler. An `emit` also records the state its frame leaves behind. -/
inductive Effect (ε : Type) where
  | emit (out : ε) (after : FrameEnd)
  | asyncReadSome
  | clearServer
deriving DecidableEq, Repr

structure Codec (τ ε : Type) where
  headLen : ℤ
  /-- The conversion to the type of `_cur_len`. -/
  narrow : ℤ → ℤ
  /-- The fields of a complete header, or `none` when its checks reject it. -/
  header : Cells → Except Fault (Option (τ × ℤ))
  newNode : ℤ → Except Fault MsgNode
  /-- A body that was complete in the read of its header. -/
  complete : RecvNode τ → Except Fault ε
  /-- A body completed by a later read. -/
  continued : RecvNode τ → Except Fault ε

/-- The members and locals at the top of the `while` loop, and the calls made so far. -/
structure Loop (τ ε : Type) where
  session : Session τ
  byteTransfered : ℕ
  copyLen : ℤ
  effects : List (Effect ε)

structure Done (τ ε : Type) where
  session : Session τ
  effects : List (Effect ε)
deriving DecidableEq, Repr

/-- An iteration goes round the loop again or returns from the handler. -/
inductive Next (τ ε : Type) where
  | again (loop : Loop τ ε)
  | returned (done : Done τ ε)

variable {τ ε : Type}

/-- `memset(_data, 0, MAX_LENGTH); _socket.async_read_some(..); return;` -/
def Loop.rearm (loop : Loop τ ε) : Next τ ε :=
  .returned ⟨loop.session, loop.effects ++ [.asyncReadSome]⟩

/-- `_server->ClearServer(_uuid); return;` -/
def Loop.clearServer (loop : Loop τ ε) : Next τ ε :=
  .returned ⟨loop.session, loop.effects ++ [.clearServer]⟩

/-- The end of both completion branches: re-arm when nothing is left, `continue` otherwise. -/
def Loop.frameDone (loop : Loop τ ε) : Next τ ε :=
  if loop.byteTransfered ≤ 0 then loop.rearm else .again loop

namespace Codec

variable (codec : Codec τ ε)

/-- The loop body after an accepted header. -/
def startBody (data : Cells) (loop : Loop τ ε) (msgId : τ) (msgLen : ℤ) :
    Except Fault (Next τ ε) := do
  let node : RecvNode τ := { (← codec.newNode msgLen) with msgId }
  if loop.byteTransfered < toSizeT msgLen then
    let filled ← memcpy node.data node.curLen data loop.copyLen loop.byteTransfered
    let node := { node with
      data := filled, curLen := codec.narrow (node.curLen + loop.byteTransfered) }
    return { loop with
      session := { loop.session with recvMsgNode := some node, bHeadParse := true } }.rearm
  let filled ← memcpy node.data node.curLen data loop.copyLen (toSizeT msgLen)
  let filled ← store filled node.maxLen 0
  let node := { node with data := filled, curLen := codec.narrow (node.curLen + msgLen) }
  let out ← codec.complete node
  let head ← loop.session.recvHeadNode.clear
  let session : Session τ := ⟨head, false, some node⟩
  return Loop.frameDone {
    session
    byteTransfered := toSizeT (loop.byteTransfered - msgLen)
    copyLen := loop.copyLen + msgLen
    effects := loop.effects ++ [.emit out (session.frameEnd node.toMsgNode)] }

/-- The loop body while `_b_head_parse` is false. -/
def startFrame (data : Cells) (loop : Loop τ ε) : Except Fault (Next τ ε) := do
  let head := loop.session.recvHeadNode
  if toSizeT (loop.byteTransfered + head.curLen) < toSizeT codec.headLen then
    let filled ← memcpy head.data head.curLen data loop.copyLen loop.byteTransfered
    let head := { head with
      data := filled, curLen := codec.narrow (head.curLen + loop.byteTransfered) }
    return { loop with session := { loop.session with recvHeadNode := head } }.rearm
  let headRemind := codec.headLen - head.curLen
  -- The source copies the rest of the header without advancing the head cursor.
  let filled ← memcpy head.data head.curLen data loop.copyLen (toSizeT headRemind)
  let loop := { loop with
    session := { loop.session with recvHeadNode := { head with data := filled } }
    byteTransfered := toSizeT (loop.byteTransfered - headRemind)
    copyLen := loop.copyLen + headRemind }
  match ← codec.header filled with
  | none => return loop.clearServer
  | some (msgId, msgLen) => codec.startBody data loop msgId msgLen

/-- The loop body while `_b_head_parse` is true: neither the flag nor the head node is reset. -/
def continueBody (data : Cells) (loop : Loop τ ε) (node : RecvNode τ) :
    Except Fault (Next τ ε) := do
  let remindMsg := node.maxLen - node.curLen
  if loop.byteTransfered < toSizeT remindMsg then
    let filled ← memcpy node.data node.curLen data loop.copyLen loop.byteTransfered
    let node := { node with
      data := filled, curLen := codec.narrow (node.curLen + loop.byteTransfered) }
    return { loop with session := { loop.session with recvMsgNode := some node } }.rearm
  let filled ← memcpy node.data node.curLen data loop.copyLen (toSizeT remindMsg)
  let node := { node with data := filled, curLen := codec.narrow (node.curLen + remindMsg) }
  let out ← codec.continued node
  let session := { loop.session with recvMsgNode := some node }
  return Loop.frameDone {
    session
    byteTransfered := toSizeT (loop.byteTransfered - remindMsg)
    copyLen := loop.copyLen + remindMsg
    effects := loop.effects ++ [.emit out (session.frameEnd node.toMsgNode)] }

/-- One iteration of the `while` loop. -/
def iteration (data : Cells) (loop : Loop τ ε) : Except Fault (Next τ ε) :=
  if loop.session.bHeadParse then
    match loop.session.recvMsgNode with
    | some node => codec.continueBody data loop node
    | none => .error .outOfBounds
  else codec.startFrame data loop

/-- `while (byte_transfered > 0)`; leaving the loop by its condition arms nothing. -/
def runLoop (data : Cells) : ℕ → Loop τ ε → Option (Except Fault (Done τ ε))
  | 0, _ => none
  | fuel + 1, loop =>
    if loop.byteTransfered > 0 then
      match codec.iteration data loop with
      | .error fault => some (.error fault)
      | .ok (.returned done) => some (.ok done)
      | .ok (.again next) => runLoop data fuel next
    else some (.ok ⟨loop.session, loop.effects⟩)

/-- `_data` when a read completes: the bytes received, in an array cleared before the read. -/
def receiveBuffer (bytes : List UInt8) : Cells :=
  bytes.map some ++ List.replicate (maxLength - bytes.length) (some 0)

/-- `Session::handle_read` on a completion with these bytes, or with an error. -/
def handleRead (fuel : ℕ) (session : Session τ) :
    Option (List UInt8) → Option (Except Fault (Done τ ε))
  | some bytes => codec.runLoop (receiveBuffer bytes) fuel ⟨session, bytes.length, 0, []⟩
  | none => some (.ok ⟨session, [.clearServer]⟩)

/-- What the first iterations of a loop have called, also when it goes on or has failed. -/
def calls (data : Cells) : ℕ → Loop τ ε → List (Effect ε)
  | 0, loop => loop.effects
  | fuel + 1, loop =>
    if loop.byteTransfered > 0 then
      match codec.iteration data loop with
      | .error _ => loop.effects
      | .ok (.returned done) => done.effects
      | .ok (.again next) => calls data fuel next
    else loop.effects

/-- What `Session::handle_read` has called after this many iterations. -/
def handleReadCalls (fuel : ℕ) (session : Session τ) : Option (List UInt8) → List (Effect ε)
  | some bytes => codec.calls (receiveBuffer bytes) fuel ⟨session, bytes.length, 0, []⟩
  | none => [.clearServer]

end Codec

/-- The bytes of a successful read completion: at least one, and no more than the buffer holds. -/
structure Completion where
  bytes : List UInt8
  nonempty : 0 < bytes.length
  bounded : bytes.length ≤ maxLength

/-- The stream that a sequence of completions cuts. -/
def stream (completions : List Completion) : List UInt8 :=
  completions.flatMap Completion.bytes

def Effect.out? : Effect ε → Option ε
  | .emit out _ => some out
  | _ => none

def Effect.frameEnd? : Effect ε → Option FrameEnd
  | .emit _ after => some after
  | _ => none

def Effect.isRead : Effect ε → Bool
  | .asyncReadSome => true
  | _ => false

def Effect.isClear : Effect ε → Bool
  | .clearServer => true
  | _ => false

/-- Whether the handler armed the next read. -/
def Done.reading (done : Done τ ε) : Bool := done.effects.any Effect.isRead

/-- Whether the handler removed the session. -/
def Done.cleared (done : Done τ ε) : Bool := done.effects.any Effect.isClear

/-- Deliver completions one after the other, as long as each handler arms the next read. -/
def Codec.deliver (codec : Codec τ ε) (fuel : ℕ) :
    Done τ ε → List Completion → Option (Except Fault (Done τ ε))
  | done, [] => some (.ok done)
  | done, completion :: rest =>
    match codec.handleRead fuel done.session (some completion.bytes) with
    | none => none
    | some (.error fault) => some (.error fault)
    | some (.ok next) =>
      let total : Done τ ε := ⟨next.session, done.effects ++ next.effects⟩
      if next.reading then deliver codec fuel total rest else some (.ok total)

end BoostLearn.Model.HandleRead
