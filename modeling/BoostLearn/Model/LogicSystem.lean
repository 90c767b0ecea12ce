import BoostLearn.Core.Replay
import BoostLearn.Model.AsyncServer.Session
import BoostLearn.Model.CoroutineService.CSession

/-! # The logic system: one worker behind a mutex and a condition variable

AsyncServer and CoroutineService run the same dispatcher; they differ in the cursor that ends a
payload. The worker holds the mutex except in `wait`, also while a callback runs. A poster pushes,
notifies when the size became one, and unlocks. `wait` releases the mutex and blocks in one step,
and may wake without a notification. The stop flag is read and written without the mutex; the
destructor sets it and does nothing else. What a callback does is not part of this model.
-/

namespace BoostLearn.Model

open Memory

/-- A posted message, with the session it came from. -/
structure LogicNode (σ : Type) where
  session : σ
  recvNode : RecvNode ℤ
deriving DecidableEq, Repr

namespace LogicSystem

inductive Server where
  | asyncServer
  | coroutineService
deriving DecidableEq, Repr

/-- `MSG_HELLO_WORLD` and `MSG_HELLOWORLD`. -/
def msgHelloWorld : ℤ := 1001

/-- Whether `_fun_callbacks` has a callback for the node's id. -/
def registered {σ : Type} (node : LogicNode σ) : Bool := node.recvNode.msgId == msgHelloWorld

/-- What a callback is called with: the session, the id and the payload. -/
def Server.arguments {σ : Type} (server : Server) (node : LogicNode σ) :
    σ × Except Fault (ℤ × List UInt8) :=
  match server with
  | .asyncServer => (node.session, AsyncServer.message node.recvNode)
  | .coroutineService => (node.session, CoroutineService.message node.recvNode)

/-- The worker without the mutex. -/
inductive Released where
  | starting
  /-- Blocked in `_consumer.wait`. -/
  | waiting (notified : Bool)
  /-- Woken, and about to take the mutex again. -/
  | waking
  | exited
deriving DecidableEq, Repr

/-- The worker with the mutex; `drain` tells the loop that runs after the stop flag was seen. -/
inductive Locked where
  /-- At `while (_msg_que.empty() && !_b_stop)`. -/
  | testing
  /-- Between that test and the call of `wait`. -/
  | toWait
  /-- At `if (_b_stop)`. -/
  | branching
  /-- At the front of the queue. -/
  | serving (drain : Bool)
  /-- After the callback, before the pop. -/
  | served (drain : Bool)
  /-- At `while (!_msg_que.empty())`. -/
  | draining
deriving DecidableEq, Repr

/-- A thread inside `PostMsgToQue` that holds the mutex. -/
inductive Posting (σ : Type) where
  | locked (node : LogicNode σ)
  | notifying
  | leaving
deriving DecidableEq, Repr

/-- Who holds the mutex, and where the worker is. -/
inductive Control (σ : Type) where
  | free (worker : Released)
  | poster (phase : Posting σ) (worker : Released)
  | worker (at_ : Locked)
deriving DecidableEq, Repr

/-- Where `~LogicSystem` is, and what had been posted when it set the stop flag. When its body has
ended, the members go; one of them is the thread, which nobody joined. -/
inductive Destructor (σ : Type) where
  | notStarted
  | stopping (posted : List (LogicNode σ))
  | ended (posted : List (LogicNode σ))
deriving DecidableEq, Repr

end LogicSystem

open LogicSystem

structure LogicSystem (σ : Type) where
  control : Control σ
  msgQue : List (LogicNode σ)
  destructor : Destructor σ
  posted : List (LogicNode σ)
  processed : List (LogicNode σ)
  calls : List (σ × Except Fault (ℤ × List UInt8))

namespace LogicSystem

variable {σ : Type}

/-- The worker thread has been created and has not run yet. -/
def created : LogicSystem σ := ⟨.free .starting, [], .notStarted, [], [], []⟩

/-- What had been posted when the stop flag was set. -/
def Destructor.posted? : Destructor σ → Option (List (LogicNode σ))
  | .notStarted => none
  | .stopping posted => some posted
  | .ended posted => some posted

/-- `_b_stop` or `_b_close`, which only the destructor writes. -/
def bStop (system : LogicSystem σ) : Bool := system.destructor.posted?.isSome

/-- Blocked in `wait` and not notified. -/
def Released.blocked : Released → Bool
  | .waiting notified => !notified
  | _ => false

/-- The worker is blocked in `wait`, and nobody has notified it or is about to. -/
def Control.asleep : Control σ → Bool
  | .free released => released.blocked
  | .poster .notifying _ => false
  | .poster _ released => released.blocked
  | .worker _ => false

/-- The worker has left `DealMsg`. -/
def Control.exited : Control σ → Bool
  | .free .exited => true
  | .poster _ .exited => true
  | _ => false

/-- The node whose callback has been called and which is still in the queue. -/
def inService (system : LogicSystem σ) : List (LogicNode σ) :=
  match system.control with
  | .worker (.served _) => system.msgQue.take 1
  | _ => []

/-- `_msg_que.pop()`, and on with the loop. -/
def pop (system : LogicSystem σ) (drain : Bool) : LogicSystem σ :=
  { system with
    control := .worker (if drain then .draining else .testing)
    msgQue := system.msgQue.tail
    processed := system.processed ++ system.msgQue.take 1 }

/-- The next step of `DealMsg`. -/
def dealMsg (server : Server) (system : LogicSystem σ) : Option (LogicSystem σ) :=
  match system.control with
  | .free .starting => some { system with control := .worker .testing }
  | .free .waking => some { system with control := .worker .testing }
  | .worker .testing =>
    if system.msgQue.isEmpty && !system.bStop then some { system with control := .worker .toWait }
    else some { system with control := .worker .branching }
  | .worker .toWait => some { system with control := .free (.waiting false) }
  | .worker .branching =>
    if system.bStop then some { system with control := .worker .draining }
    else some { system with control := .worker (.serving false) }
  | .worker (.serving drain) =>
    match system.msgQue with
    | [] => none
    | msgNode :: _ =>
      if registered msgNode then
        some { system with
          control := .worker (.served drain)
          calls := system.calls ++ [server.arguments msgNode] }
      else some (system.pop drain)
  | .worker (.served drain) => some (system.pop drain)
  | .worker .draining =>
    if system.msgQue.isEmpty then some { system with control := .free .exited }
    else some { system with control := .worker (.serving true) }
  | _ => none

/-- `_msg_que.push(msg)` and the test of the size. -/
def push (system : LogicSystem σ) (node : LogicNode σ) (worker : Released) : LogicSystem σ :=
  let msgQue := system.msgQue ++ [node]
  { system with
    msgQue
    posted := system.posted ++ [node]
    control := .poster (if msgQue.length = 1 then .notifying else .leaving) worker }

/-- `_consumer.notify_one()`. -/
def Released.notify : Released → Released
  | .waiting _ => .waiting true
  | worker => worker

inductive Action (σ : Type) where
  /-- A thread takes the mutex in `PostMsgToQue`. -/
  | lock (node : LogicNode σ)
  | push
  | notify
  | unlock
  /-- The worker runs. -/
  | dealMsg
  /-- The worker leaves `wait`, notified or not. -/
  | wake
  /-- The destructor sets the stop flag. -/
  | setStop
  /-- The destructor ends. -/
  | endDestructor

/-- One step of some thread, in a program whose destructor has not ended. -/
def act (server : Server) (system : LogicSystem σ) : Action σ → Option (LogicSystem σ)
  | .lock node =>
    match system.control with
    | .free worker => some { system with control := .poster (.locked node) worker }
    | _ => none
  | .push =>
    match system.control with
    | .poster (.locked node) worker => some (system.push node worker)
    | _ => none
  | .notify =>
    match system.control with
    | .poster .notifying worker => some { system with control := .poster .leaving worker.notify }
    | _ => none
  | .unlock =>
    match system.control with
    | .poster .leaving worker => some { system with control := .free worker }
    | _ => none
  | .dealMsg => system.dealMsg server
  | .wake =>
    match system.control with
    | .free (.waiting _) => some { system with control := .free .waking }
    | .poster phase (.waiting _) => some { system with control := .poster phase .waking }
    | _ => none
  | .setStop =>
    match system.destructor with
    | .notStarted => some { system with destructor := .stopping system.posted }
    | _ => none
  | .endDestructor =>
    match system.destructor with
    | .stopping posted => some { system with destructor := .ended posted }
    | _ => none

/-- No thread takes a step after the end of the destructor: destroying a joinable thread ends the
program. -/
def step (server : Server) (system : LogicSystem σ) (action : Action σ) : Option (LogicSystem σ) :=
  match system.destructor with
  | .ended _ => none
  | _ => system.act server action

end LogicSystem

end BoostLearn.Model
