import BoostLearn.Model.CoroutineService.CSession
import BoostLearn.Model.CoroutineService.SendPipeline
import Mathlib.Logic.Function.Basic

/-! # Accepting and removing sessions in CoroutineService

One thread runs the handlers: the coroutine of every session from one suspension to the next,
`HandleWrite` and `handle_accept`, which starts the coroutine before it inserts the session. The
coroutine may run up to its first suspension inside `start`, or be left to the `io_context`. A read
completes with any bytes that fit its buffer, with none, or by throwing.
-/

namespace BoostLearn.Model.CoroutineService

open CInt Memory

/-- Where the coroutine is suspended, or how it has ended. A store out of bounds is not an end. -/
inductive Phase where
  | spawned
  | readingHead
  | readingBody
  | returned (exit : Exit)
  | faulted (fault : Fault)
deriving DecidableEq, Repr

/-- A `CSession` that has been started, with the history of its coroutine: how many header reads it
has started, the nodes it has posted, and both numbers at the first `Close`. -/
structure Started (τ : Type) where
  session : CSession
  phase : Phase
  sending : SendPipeline τ SendNode
  headReads : ℕ
  posted : List (RecvNode ℤ)
  closedAt : Option (ℕ × ℕ)

namespace Started

variable {τ : Type}

/-- A session whose coroutine has not run yet. -/
def spawn (session : CSession) : Started τ := ⟨session, .spawned, .opened, 0, [], none⟩

/-- `CSession::Close`. -/
def close (started : Started τ) : Started τ :=
  { started with
    session := started.session.close
    closedAt := some (started.closedAt.getD (started.headReads, started.posted.length)) }

/-- `co_return`, or the end of the coroutine behind its loop or its `catch`. -/
def leave (started : Started τ) (exit : Exit) : Started τ := { started with phase := .returned exit }

def fail (started : Started τ) (fault : Fault) : Started τ := { started with phase := .faulted fault }

/-- The read of a header, behind `_recv_head_node->Clear()`. -/
def readHead (started : Started τ) : Except Fault MsgNode → Started τ
  | .error fault => started.fail fault
  | .ok head =>
    { started with
      session := { started.session with recvHeadNode := head }
      phase := .readingHead
      headReads := started.headReads + 1 }

/-- The loop condition, and the loop body up to its first suspension; the flag is tested twice in
between and cannot change. -/
def loopTop (started : Started τ) : Started τ :=
  if started.session.bClose then started.leave .closed
  else started.readHead started.session.recvHeadNode.clear

/-- The `catch` of the coroutine; like the other handlers, also whether it calls `ClearServer`. -/
def caught (started : Started τ) (badArrayNewLength : Bool) : Started τ × Bool :=
  (started.close.leave (.thrown badArrayNewLength), true)

/-- The branches that report a closed peer. -/
def peerClosed (started : Started τ) : Started τ × Bool := (started.close.leave .peerClosed, true)

/-- The read of a body, behind the construction of its node. -/
def readBody (started : Started τ) (msgId : ℤ) : Except Fault MsgNode → Started τ × Bool
  | .error .badArrayNewLength => started.caught true
  | .error fault => (started.fail fault, false)
  | .ok node =>
    ({ started with
      session := { started.session with recvMsgNode := some { node with msgId } }
      phase := .readingBody }, false)

/-- The coroutine behind its header. -/
def checkHeader (started : Started τ) : Except Fault (ℤ × ℤ) → Started τ × Bool
  | .error fault => (started.fail fault, false)
  | .ok (msgId, msgLen) =>
    if msgLen > maxLength then (started.leave .invalidLength, true)
    else started.readBody msgId (MsgNode.new msgLen)

def fillHead (started : Started τ) (bytes : List UInt8) : Started τ :=
  let head := started.session.recvHeadNode
  let head := { head with data := bytes.map some ++ head.data.drop bytes.length }
  { started with session := { started.session with recvHeadNode := head } }

/-- The coroutine behind the read of a header, which has thrown or filled the front of the node. -/
def onHead (started : Started τ) : Option (List UInt8) → Started τ × Bool
  | none => started.caught false
  | some bytes =>
    if bytes.length = 0 then started.peerClosed
    else
      let started := started.fillHead bytes
      started.checkHeader (header started.session.recvHeadNode.data)

/-- The post of a body behind its terminator, and the next iteration. -/
def post (started : Started τ) (node : RecvNode ℤ) : Except Fault Cells → Started τ × Bool
  | .error fault => (started.fail fault, false)
  | .ok data =>
    let node := { node with data }
    let started := { started with
      session := { started.session with recvMsgNode := some node }
      posted := started.posted ++ [node] }
    (started.loopTop, false)

/-- The coroutine behind the read of a body. -/
def onBody (started : Started τ) (node : RecvNode ℤ) : Option (List UInt8) → Started τ × Bool
  | none => started.caught false
  | some bytes =>
    if bytes.length = 0 then started.peerClosed
    else started.post node (store (bytes.map some ++ node.data.drop bytes.length) node.maxLen 0)

end Started

/-- What happens to a session that has been started. -/
inductive Event (τ : Type) where
  /-- The coroutine runs for the first time. -/
  | resume
  /-- The read the coroutine waits for completes, or throws. -/
  | read (result : Option (List UInt8))
  /-- A thread inside `Send`, or `HandleWrite`. -/
  | sending (action : SendPipeline.Action τ (List UInt8 × ℤ))

/-- The node that `CSession::Send` pushes. -/
def newSendNode (message : List UInt8 × ℤ) : Option SendNode :=
  (SendNode.new message.1 (toSizeT (toShort message.1.length)) message.2).toOption

/-- A read fills no more than its buffer. -/
def Fits (node : MsgNode) (result : Option (List UInt8)) : Prop :=
  ∀ bytes ∈ result, bytes.length ≤ toSizeT node.maxLen

instance (node : MsgNode) (result : Option (List UInt8)) : Decidable (Fits node result) :=
  inferInstanceAs (Decidable (∀ bytes ∈ result, bytes.length ≤ toSizeT node.maxLen))

/-- `HandleWrite` closes and removes its session on an error. -/
def Started.handleWrite {τ : Type} (started : Started τ) :
    SendPipeline.Action τ (List UInt8 × ℤ) → Started τ × Bool
  | .written _ false => (started.close, true)
  | _ => (started, false)

/-- What a handler leaves behind, and whether it calls `ClearServer`. -/
def Event.apply {τ : Type} [DecidableEq τ] (started : Started τ) : Event τ → Option (Started τ × Bool)
  | .resume => if started.phase = .spawned then some (started.loopTop, false) else none
  | .read result =>
    match started.phase, started.session.recvMsgNode with
    | .readingHead, _ =>
      if Fits started.session.recvHeadNode result then some (started.onHead result) else none
    | .readingBody, some node =>
      if Fits node.toMsgNode result then some (started.onBody node result) else none
    | _, _ => none
  | .sending action =>
    (started.sending.step newSendNode action).map fun sending =>
      { started with sending }.handleWrite action

/-- The keys of `_sessions`, and the sessions that have been started. -/
structure CServer (σ τ : Type) where
  sessions : List σ
  started : σ → Option (Started τ)

namespace CServer

variable {σ τ : Type} [DecidableEq σ] [DecidableEq τ]

def listening : CServer σ τ := ⟨[], fun _ => none⟩

/-- `CServer::handle_accept` without an error. -/
def accept (server : CServer σ τ) (uuid : σ) (session : CSession) (dispatched : Bool) : CServer σ τ :=
  let spawned : Started τ := .spawn session
  { sessions := server.sessions.insert uuid
    started := Function.update server.started uuid
      (some (if dispatched then spawned.loopTop else spawned)) }

/-- `CServer::ClearServer`. -/
def clearServer (sessions : List σ) (uuid : σ) : List σ := sessions.filter (· ≠ uuid)

/-- A handler of a session runs, and removes the session if it calls `ClearServer`. -/
def handle (server : CServer σ τ) (uuid : σ) (started : Started τ) (clears : Bool) : CServer σ τ :=
  { sessions := if clears then clearServer server.sessions uuid else server.sessions
    started := Function.update server.started uuid (some started) }

inductive Action (σ τ : Type) where
  | accept (uuid : σ) (dispatched : Bool)
  | acceptError
  | session (uuid : σ) (event : Event τ)

/-- Every session has an uuid of its own. -/
def step (server : CServer σ τ) : Action σ τ → Option (CServer σ τ)
  | .accept uuid dispatched =>
    match server.started uuid with
    | none => newSession.toOption.map fun session => server.accept uuid session dispatched
    | some _ => none
  | .acceptError => some server
  | .session uuid event =>
    (server.started uuid).bind fun started =>
      (event.apply started).map fun (started, clears) => server.handle uuid started clears

end CServer

end BoostLearn.Model.CoroutineService
