import BoostLearn.Model.AsyncServer.SendPipeline
import BoostLearn.Model.Json
import BoostLearn.Model.LogicSystem

/-! # The callback and the worker that runs it

`HelloWorldCallBack` ignores what `parse` returns, and catches nothing; neither does `DealMsg`.
What leaves a callback ends the worker and with it the program. A reply goes into the send queue
of its session, whose size at that time is up to the rest of the program.
-/

namespace BoostLearn.Model

open CInt Memory Json LogicSystem

/-- What can leave the callback: an exception of JsonCpp, or a node that cannot be built. -/
inductive Escape where
  | json (error : LogicError)
  | node (fault : Fault)
deriving DecidableEq, Repr

/-- What the servers write in front of the data. -/
def LogicSystem.Server.greeting : Server → Text
  | .asyncServer => ascii "server has received, msg data is "
  | .coroutineService => ascii "server is received msg ,msg data is "

/-- `Send(std::string, short)` up to the push of the node, unless the queue is full. In
CoroutineService the length passes through a `short`. -/
def LogicSystem.Server.send (server : Server) (queued : ℕ) (msg : Text) (msgId : ℤ) :
    Except Fault (Option SendNode) :=
  match server with
  | .asyncServer =>
    if toInt queued > AsyncServer.maxSendque then return none
    else do return some (← SendNode.new msg msg.length msgId)
  | .coroutineService =>
    if queued > maxLength then return none
    else do return some (← SendNode.new msg (toSizeT (toShort msg.length)) msgId)

/-- `LogicSystem::HelloWorldCallBack` up to the call of `Send`: the reply and its id. -/
def LogicSystem.Server.reply (server : Server) (json : JsonCpp) (data : Text) :
    Except LogicError (Text × ℤ) := do
  let (_, root) := json.parse data
  let (root, id) ← root.subscript (ascii "id")
  let _ ← id.asInt
  let (root, value) ← root.subscript (ascii "data")
  let _ ← value.asString json
  let (root, value) ← root.subscript (ascii "data")
  let root ← root.assign (ascii "data") (.string (server.greeting ++ (← value.asString json)))
  let returnStr := json.toStyledString root
  let (_, id) ← root.subscript (ascii "id")
  return (returnStr, toShort (← id.asInt))

/-- `LogicSystem::HelloWorldCallBack`; its own id is not used. -/
def LogicSystem.Server.helloWorldCallBack (server : Server) (json : JsonCpp) (data : Text)
    (queued : ℕ) : Except Escape (Option SendNode) := do
  let (returnStr, msgId) ← (server.reply json data).mapError .json
  (server.send queued returnStr msgId).mapError .node

/-- A message as a handler posts it: the cursors are of type `short` and at the end. -/
structure Message (σ : Type) where
  session : σ
  msgId : ℤ
  payload : Text
  short : payload.length < 32768

def Message.node {σ : Type} (message : Message σ) : LogicNode σ where
  session := message.session
  recvNode := {
    curLen := message.payload.length
    maxLen := message.payload.length
    data := message.payload.map some ++ [some 0]
    msgId := message.msgId }

/-- The worker reads back what a message was posted with. -/
theorem arguments_node {σ : Type} (server : Server) (message : Message σ) :
    server.arguments message.node = (message.session, .ok (message.msgId, message.payload)) := by
  have short := message.short
  have size : toSizeT (message.payload.length : ℤ) = message.payload.length :=
    toSizeT_natCast (by omega)
  have read := readString_map message.payload [some 0]
  cases server with
  | asyncServer =>
    simp only [Server.arguments, AsyncServer.message, Message.node, size, bind_of_ok read]
    rfl
  | coroutineService =>
    simp only [Server.arguments, CoroutineService.message, Message.node, size, bind_of_ok read]
    rfl

/-- The logic system, and what has left a callback. -/
structure Worker (σ : Type) where
  system : LogicSystem σ
  escaped : Option Escape

namespace Worker

variable {σ : Type}

def created : Worker σ := ⟨.created, none⟩

/-- A step of the logic system; where a callback runs, also the size of the send queue it finds. -/
inductive Action (σ : Type) where
  | lock (message : Message σ)
  | push
  | notify
  | unlock
  | dealMsg (queued : ℕ)
  | wake
  | setStop
  | endDestructor

def Action.act : Action σ → LogicSystem.Action σ
  | .lock message => .lock message.node
  | .push => .push
  | .notify => .notify
  | .unlock => .unlock
  | .dealMsg _ => .dealMsg
  | .wake => .wake
  | .setStop => .setStop
  | .endDestructor => .endDestructor

/-- The data of the node that the worker is about to dispatch, if it has a callback. -/
def dispatched? (server : Server) (system : LogicSystem σ) : Option (Except Fault (ℤ × Text)) :=
  match system.control, system.msgQue with
  | .worker (.serving _), node :: _ =>
    if registered node then some (server.arguments node).2 else none
  | _, _ => none

/-- What leaves the callback that a step runs. -/
def escape (server : Server) (json : JsonCpp) (system : LogicSystem σ) : Action σ → Option Escape
  | .dealMsg queued =>
    match dispatched? server system with
    | none => none
    | some (.error fault) => some (.node fault)
    | some (.ok (_, data)) =>
      match server.helloWorldCallBack json data queued with
      | .error escaped => some escaped
      | .ok _ => none
  | _ => none

/-- A program that nothing has left goes on. -/
def step (server : Server) (json : JsonCpp) (worker : Worker σ) (action : Action σ) :
    Option (Worker σ) :=
  match worker.escaped with
  | some _ => none
  | none =>
    (LogicSystem.step server worker.system action.act).map fun system =>
      ⟨system, escape server json worker.system action⟩

end Worker

end BoostLearn.Model
