import BoostLearn.Model.CoroutineService.CServer
import BoostLearn.Model.HelloWorld

/-! # CoroutineService as a whole

The thread in `main` runs the handlers of all sessions, one at a time. A handler that has read a body
posts it to the logic system and holds the thread up until it has the mutex; what it does after that
touches nothing the worker looks at, and is part of the handler. The worker runs the callbacks, each
with a `Send` on the session of its node. What the peer of a session sends arrives in order. The
model follows the program until its `io_context` is stopped, or an exception or a fault ends it.
-/

namespace BoostLearn.Model.CoroutineService

open CInt Memory Json LogicSystem

/-- The node that the read the coroutine waits for fills. -/
def Started.filling {τ : Type} (started : Started τ) : Option MsgNode :=
  match started.phase with
  | .readingHead => some started.session.recvHeadNode
  | .readingBody => started.session.recvMsgNode.map RecvNode.toMsgNode
  | _ => none

/-- A store out of bounds. -/
def Phase.fault? : Phase → Option Fault
  | .faulted fault => some fault
  | _ => none

/-- `HelloWorldCallBack` on a posted node, on the session's queue as it is: what it calls `Send` with. -/
def callBack (json : JsonCpp) (node : RecvNode ℤ) (queued : ℕ) : Except Escape (Text × ℤ) := do
  let (_, data) ← (message node).mapError .node
  let reply ← (Server.coroutineService.reply json data).mapError .json
  let _ ← (Server.coroutineService.send queued reply.1 reply.2).mapError .node
  return reply

/-- The server, the bytes of each peer that have not been read, the logic system, the node with which
the thread in `main` is about to take its mutex, and what has ended the program; with every byte that
has arrived. -/
structure Service (σ : Type) where
  server : CServer σ Unit
  unread : σ → List UInt8
  logic : LogicSystem σ
  posting : Option (LogicNode σ)
  escaped : Option Escape
  arrived : σ → List UInt8

namespace Service

variable {σ : Type} [DecidableEq σ]

def main : Service σ := ⟨.listening, fun _ => [], .created, none, none, fun _ => []⟩

/-- The thread in `main` is between two handlers. -/
def free (service : Service σ) : Bool :=
  match service.posting, service.logic.control with
  | some _, _ => false
  | none, .poster _ _ => false
  | none, _ => true

/-- A handler of a session runs. -/
def handler (service : Service σ) (uuid : σ) (event : Event Unit) : Option (Service σ) :=
  if service.free then
    (service.server.started uuid).bind fun started =>
      (event.apply started).map fun (next, clears) =>
        { service with
          server := service.server.handle uuid next clears
          posting := (next.posted.drop started.posted.length).head?.map fun node => ⟨uuid, node⟩
          escaped := next.phase.fault?.map .node }
  else none

/-- A read throws, or completes with as many bytes of the peer as its buffer has room for. -/
def asyncRead (service : Service σ) (uuid : σ) (failed : Bool) : Option (Service σ) :=
  if failed then service.handler uuid (.read none)
  else
    ((service.server.started uuid).bind Started.filling).bind fun node =>
      let size := toSizeT node.maxLen
      let unread := service.unread uuid
      if size ≤ unread.length then
        { service with
          unread := Function.update service.unread uuid (unread.drop size)
        }.handler uuid (.read (some (unread.take size)))
      else none

/-- A step of the logic system that leaves the sessions alone. -/
def logicStep (service : Service σ) (action : LogicSystem.Action σ) : Option (Service σ) :=
  (service.logic.step .coroutineService action).map fun logic => { service with logic }

/-- The worker calls the callback of a node. -/
def dispatch (json : JsonCpp) (service : Service σ) (node : LogicNode σ) : Option (Service σ) :=
  (service.logicStep .dealMsg).bind fun next =>
    (service.server.started node.session).bind fun started =>
      match callBack json node.recvNode started.sending.sendQue.length with
      | .error escaped => some { next with escaped := some escaped }
      | .ok reply =>
        (service.server.step (.session node.session (.sending (.send () reply)))).map fun server =>
          { next with server }

/-- The worker has nothing to write on the session of the node it serves. -/
def returned (service : Service σ) (node : LogicNode σ) : Bool :=
  match service.server.started node.session with
  | none => true
  | some started => started.sending.deciding.isEmpty

/-- The next step of `DealMsg`, which goes on behind a callback when that has returned. -/
def dealMsg (json : JsonCpp) (service : Service σ) : Option (Service σ) :=
  match service.logic.control, service.logic.msgQue with
  | .worker (.serving _), node :: _ =>
    if registered node then service.dispatch json node else service.logicStep .dealMsg
  | .worker (.served _), node :: _ =>
    if service.returned node then service.logicStep .dealMsg else none
  | _, _ => service.logicStep .dealMsg

inductive Action (σ : Type) where
  /-- A peer has sent some bytes. -/
  | arrives (uuid : σ) (bytes : List UInt8)
  | accept (uuid : σ) (dispatched : Bool)
  | acceptError
  | resume (uuid : σ)
  | read (uuid : σ) (failed : Bool)
  | handleWrite (uuid : σ) (index : ℕ) (success : Bool)
  /-- The thread in `main` takes the mutex in `PostMsgToQue`. -/
  | lock
  | push
  | notify
  | unlock
  | dealMsg
  | wake
  /-- The worker starts a write, behind the locked section of `Send`. -/
  | asyncWrite (uuid : σ) (index : ℕ)

/-- One step of a program that nothing has ended. -/
def act (json : JsonCpp) (service : Service σ) : Action σ → Option (Service σ)
  | .arrives uuid bytes =>
    some { service with
      unread := Function.update service.unread uuid (service.unread uuid ++ bytes)
      arrived := Function.update service.arrived uuid (service.arrived uuid ++ bytes) }
  | .accept uuid dispatched =>
    if service.free then
      (service.server.step (.accept uuid dispatched)).map fun server => { service with server }
    else none
  | .acceptError => if service.free then some service else none
  | .resume uuid => service.handler uuid .resume
  | .read uuid failed => service.asyncRead uuid failed
  | .handleWrite uuid index success => service.handler uuid (.sending (.written index success))
  | .lock =>
    service.posting.bind fun node =>
      (service.logicStep (.lock node)).map fun next => { next with posting := none }
  | .push => service.logicStep .push
  | .notify => service.logicStep .notify
  | .unlock => service.logicStep .unlock
  | .dealMsg => service.dealMsg json
  | .wake => service.logicStep .wake
  | .asyncWrite uuid index =>
    (service.server.step (.session uuid (.sending (.start index)))).map fun server =>
      { service with server }

def step (json : JsonCpp) (service : Service σ) (action : Action σ) : Option (Service σ) :=
  match service.escaped with
  | some _ => none
  | none => service.act json action

end Service

end BoostLearn.Model.CoroutineService
