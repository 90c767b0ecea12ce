import BoostLearn.Model.MsgNode

/-! # The receive coroutine of CoroutineService

`asio::async_read` completes with exactly the size of its buffer or throws, and completes at once
on an empty buffer. The input of a run is everything the peer sends before it closes. An array of
negative size is an exception that the coroutine catches; every other fault leaves its control.
-/

namespace BoostLearn.Model.CoroutineService

open CInt Memory Wire

/-- The members of `CSession` that the coroutine uses. -/
structure CSession where
  recvHeadNode : MsgNode
  recvMsgNode : Option (RecvNode ℤ)
  bClose : Bool
deriving DecidableEq, Repr

/-- `CSession::CSession`. -/
def newSession : Except Fault CSession := do
  let head ← MsgNode.new headTotalLen
  return ⟨head, none, false⟩

/-- `CSession::Close`. -/
def CSession.close (session : CSession) : CSession := { session with bClose := true }

/-- How the coroutine ends. -/
inductive Exit where
  /-- The loop condition saw `_b_close`. -/
  | closed
  /-- A branch that reports a closed peer: the session is removed and closed. -/
  | peerClosed
  /-- The length check: the session is removed. -/
  | invalidLength
  /-- An exception is caught: the session is closed and removed. -/
  | thrown (badArrayNewLength : Bool)
deriving DecidableEq, Repr

/-- An iteration posts a message and goes on with the remaining input, or ends the coroutine. -/
inductive Next where
  | again (session : CSession) (message : ℤ × List UInt8) (input : List UInt8)
  | ended (session : CSession) (exit : Exit)
deriving DecidableEq, Repr

/-- `co_await asio::async_read(..)`: the filled buffer, the count and the remaining input, or
`none` when it throws at the end of the stream. -/
def asyncRead (cells : Cells) (size : ℕ) (input : List UInt8) :
    Except Fault (Option (Cells × ℕ × List UInt8)) :=
  if cells.length < size then .error .outOfBounds
  else if input.length < size then .ok none
  else .ok (some ((input.take size).map some ++ cells.drop size, size, input.drop size))

/-- The header fields. -/
def header (cells : Cells) : Except Fault (ℤ × ℤ) := do
  let msgId ← loadShort cells 0
  let msgLen ← loadShort cells 2
  return (toShort (networkToHostShort msgId), toShort (networkToHostShort msgLen))

/-- The payload that the worker reads out of a posted node. -/
def message (node : RecvNode ℤ) : Except Fault (ℤ × List UInt8) := do
  let payload ← readString node.data (toSizeT node.maxLen)
  return (node.msgId, payload)

/-- The loop body from the construction of the body node on. -/
def readBody (session : CSession) (msgId msgLen : ℤ) (input : List UInt8) : Except Fault Next :=
  match MsgNode.new msgLen with
  | .error .badArrayNewLength => return .ended session.close (.thrown true)
  | .error fault => .error fault
  | .ok node => do
    match ← asyncRead node.data (toSizeT node.maxLen) input with
    | none =>
      return .ended { session with recvMsgNode := some { node with msgId } }.close (.thrown false)
    | some (data, n, input) =>
      let node : RecvNode ℤ := { node with data, msgId }
      let session := { session with recvMsgNode := some node }
      if n = 0 then return .ended session.close .peerClosed
      let data ← store node.data node.maxLen 0
      let node := { node with data }
      return .again { session with recvMsgNode := some node } (← message node) input

/-- The loop body. -/
def iteration (session : CSession) (input : List UInt8) : Except Fault Next := do
  let head ← session.recvHeadNode.clear
  let session := { session with recvHeadNode := head }
  if session.bClose then return .ended session.close .peerClosed
  match ← asyncRead head.data (toSizeT head.maxLen) input with
  | none => return .ended session.close (.thrown false)
  | some (data, n, input) =>
    let session := { session with recvHeadNode := { head with data } }
    if n = 0 then return .ended session.close .peerClosed
    let (msgId, msgLen) ← header data
    if msgLen > maxLength then return .ended session .invalidLength
    readBody session msgId msgLen input

/-- The coroutine's session, what it has posted and how it ended. -/
structure Ended where
  session : CSession
  posted : List (ℤ × List UInt8)
  exit : Exit
deriving DecidableEq, Repr

/-- The coroutine of `CSession::start`, on everything that is left to read. -/
def start : ℕ → CSession → List (ℤ × List UInt8) → List UInt8 → Option (Except Fault Ended)
  | 0, _, _, _ => none
  | fuel + 1, session, posted, input =>
    if session.bClose then some (.ok ⟨session, posted, .closed⟩)
    else
      match iteration session input with
      | .error fault => some (.error fault)
      | .ok (.ended session exit) => some (.ok ⟨session, posted, exit⟩)
      | .ok (.again session message input) => start fuel session (posted ++ [message]) input

theorem newSession_eq :
    newSession = .ok ⟨⟨0, 4, List.replicate 4 none ++ [some 0]⟩, none, false⟩ := rfl

theorem asyncRead_eof {cells : Cells} {size : ℕ} {input : List UInt8} (fits : size ≤ cells.length)
    (short : input.length < size) : asyncRead cells size input = .ok none := by
  rw [asyncRead, if_neg (by omega), if_pos short]

theorem asyncRead_whole {cells : Cells} {bytes : List UInt8} (fits : bytes.length ≤ cells.length)
    (rest : List UInt8) :
    asyncRead cells bytes.length (bytes ++ rest) =
      .ok (some (bytes.map some ++ cells.drop bytes.length, bytes.length, rest)) := by
  rw [asyncRead, if_neg (by omega), if_neg (by rw [List.length_append]; omega),
    List.take_left' rfl, List.drop_left' rfl]

private theorem header_of_loads {cells : Cells} {first second : ℤ}
    (msgId : loadShort cells 0 = .ok first) (msgLen : loadShort cells 2 = .ok second) :
    header cells =
      .ok (toShort (networkToHostShort first), toShort (networkToHostShort second)) := by
  rw [header, msgId]
  simp only [msgLen, bind, Except.bind, pure, Except.pure]

theorem header_of_fields (idHigh idLow lenHigh lenLow : UInt8) (rest : Cells) :
    header ([idHigh, idLow, lenHigh, lenLow].map some ++ rest) =
      .ok (bigEndianShort idHigh idLow, bigEndianShort lenHigh lenLow) := by
  have msgId : loadShort ([idHigh, idLow, lenHigh, lenLow].map some ++ rest) 0 =
    .ok (toShort (idHigh.toNat + 256 * idLow.toNat)) := loadShort_of_bytes rfl rfl
  have msgLen : loadShort ([idHigh, idLow, lenHigh, lenLow].map some ++ rest) 2 =
    .ok (toShort (lenHigh.toNat + 256 * lenLow.toNat)) := loadShort_of_bytes rfl rfl
  rw [header_of_loads msgId msgLen, networkToHostShort_load, networkToHostShort_load]

theorem message_of_body (tag cursor : ℤ) {body : List UInt8} (limit : body.length ≤ maxLength)
    (rest : Cells) :
    message ⟨⟨cursor, body.length, body.map some ++ rest⟩, tag⟩ = .ok (tag, body) := by
  rw [message, toSizeT_of_limit limit, bind_of_ok (readString_map body rest)]
  rfl

end BoostLearn.Model.CoroutineService
