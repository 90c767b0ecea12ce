import BoostLearn.Model.AsyncServer.Server
import BoostLearn.Model.HelloWorld

/-! # AsyncServer as a whole

The threads of the pool run the handlers of all sessions at the same time, and the strand of a session keeps
its own apart. What a `handle_read` does besides posting is out of sight of the other threads, or one step on
the map, so it is taken at once; the nodes that it posts then enter the logic system one by one, each when its
thread gets the mutex. A loop that has not ended after one iteration for each byte and another one goes on
posting, and its strand is never free again. The worker runs the callbacks, each with a `Send` on the session
of its node, step by step beside the `handle_write` of that session. There is a thread for every handler. The
model follows the program until an exception or a fault ends it.
-/

namespace BoostLearn.Model.AsyncServer

open CInt Memory Json LogicSystem HandleRead

/-- A node as a handler posts it, with its cursor at the end of the payload. -/
def postedNode (out : ℤ × List UInt8) : RecvNode ℤ :=
  ⟨⟨out.2.length, out.2.length, out.2.map some ++ [some 0]⟩, out.1⟩

/-- `HelloWorldCallBack` on a posted node: what it calls `Send` with. -/
def callBack (json : JsonCpp) (node : RecvNode ℤ) : Except Escape (Text × ℤ) := do
  let (_, data) ← (message node).mapError .node
  (LogicSystem.Server.asyncServer.reply json data).mapError .json

/-- The handlers of a session: what the running one has still to post, whether it never ends, what its reads
have brought, and what they have posted of it. -/
structure Strand where
  posting : List (RecvNode ℤ)
  endless : Bool
  completions : List Completion
  posted : List (RecvNode ℤ)

namespace SendPipeline

variable {τ μ ν : Type}

/-- No thread is in `Send`. -/
def idle (pipeline : SendPipeline τ μ ν) : Bool := pipeline.waiting.isEmpty && pipeline.sendLock.isNone

/-- The next step of the only thread in `Send`. -/
def nextOfSend (pipeline : SendPipeline τ μ ν) : Option (Action τ μ) :=
  match pipeline.sendLock with
  | some (_, .tested _) => some .push
  | some (_, .pushed) => some .start
  | none => if pipeline.waiting.isEmpty then none else some (.test 0)

/-- What leaves the constructor of the node in that step. -/
def faultOfSend (pipeline : SendPipeline τ (List UInt8 × ℤ) ν) : Option Fault :=
  match pipeline.sendLock with
  | some (_, .tested message) =>
    match SendNode.new message.1 message.1.length message.2 with
    | .error fault => some fault
    | .ok _ => none
  | _ => none

end SendPipeline

/-- The server, the handlers of its sessions, the logic system, the session whose handler is in `PostMsgToQue`
with the mutex, and what has ended the program. -/
structure Program (σ : Type) where
  server : Server σ Unit
  strand : σ → Strand
  logic : LogicSystem σ
  poster : Option σ
  escaped : Option Escape

namespace Program

variable {σ : Type} [DecidableEq σ]

def main : Program σ := ⟨.listening, fun _ => ⟨[], false, [], []⟩, .created, none, none⟩

/-- No handler of the session is running. -/
def free (program : Program σ) (uuid : σ) : Bool :=
  let strand := program.strand uuid
  strand.posting.isEmpty && !strand.endless && program.poster != some uuid

/-- A handler of a session has made some calls, and goes on or not. -/
def handled (program : Program σ) (uuid : σ) (started : Started Unit) (completion : Option Completion)
    (effects : List (Effect (ℤ × List UInt8))) (endless : Bool) : Program σ :=
  let strand := program.strand uuid
  let nodes := (effects.filterMap Effect.out?).map postedNode
  { program with
    server := program.server.handle uuid started (effects.any Effect.isClear)
    strand := Function.update program.strand uuid {
      posting := strand.posting ++ nodes
      endless
      completions := strand.completions ++ completion.toList
      posted := strand.posted ++ nodes } }

/-- `Session::handle_read` on a completion with some bytes or with an error; `more` are the iterations that a
loop without an end has made. -/
def handleRead (program : Program σ) (uuid : σ) (started : Started Unit) (completion : Option Completion)
    (more : ℕ) : Program σ :=
  let bytes := completion.map (·.bytes)
  let iterations := (bytes.getD []).length + 1
  match codec.handleRead iterations started.receiving bytes with
  | some (.ok done) =>
    program.handled uuid { started with receiving := done.session, reading := done.reading } completion
      done.effects false
  | some (.error fault) => { program with escaped := some (.node fault) }
  | none =>
    program.handled uuid { started with reading := false } completion
      (codec.handleReadCalls (iterations + more) started.receiving bytes) true

/-- A step of the logic system that leaves the sessions alone. -/
def logicStep (program : Program σ) (action : LogicSystem.Action σ) : Option (Program σ) :=
  (program.logic.step .asyncServer action).map fun logic => { program with logic }

/-- A step of the server that leaves everything else alone. -/
def serverStep (program : Program σ) (action : Server.Action σ Unit) : Option (Program σ) :=
  (program.server.step action).map fun server => { program with server }

/-- A thread gets the mutex for the next node that it has to post. -/
def lock (program : Program σ) (uuid : σ) : Option (Program σ) :=
  match (program.strand uuid).posting with
  | [] => none
  | node :: rest =>
    (program.logicStep (.lock ⟨uuid, node⟩)).map fun next =>
      { next with
        strand := Function.update program.strand uuid { program.strand uuid with posting := rest }
        poster := some uuid }

/-- The worker calls the callback of a node, which resets the flag of the session before it waits for its lock. -/
def dispatch (json : JsonCpp) (program : Program σ) (node : LogicNode σ) : Option (Program σ) :=
  (program.logicStep .dealMsg).bind fun next =>
    match callBack json node.recvNode with
    | .error escaped => some { next with escaped := some escaped }
    | .ok reply => next.serverStep (.session node.session (.sending (.reset () reply)))

/-- The worker has left the callback of the node it serves. -/
def returned (program : Program σ) (node : LogicNode σ) : Bool :=
  match program.server.started node.session with
  | none => true
  | some started => started.sending.idle

/-- The next step of `DealMsg`, which goes on behind a callback when that has returned. -/
def dealMsg (json : JsonCpp) (program : Program σ) : Option (Program σ) :=
  match program.logic.control, program.logic.msgQue with
  | .worker (.serving _), node :: _ =>
    if registered node then program.dispatch json node else program.logicStep .dealMsg
  | .worker (.served _), node :: _ =>
    if program.returned node then program.logicStep .dealMsg else none
  | _, _ => program.logicStep .dealMsg

/-- The next step of the worker inside `Send`. -/
def send (program : Program σ) (uuid : σ) : Option (Program σ) :=
  (program.server.started uuid).bind fun started =>
    started.sending.nextOfSend.bind fun action =>
      (program.serverStep (.session uuid (.sending action))).map fun next =>
        { next with escaped := started.sending.faultOfSend.map .node }

inductive Action (σ : Type) where
  | start (uuid : σ) (sendPending : Bool)
  | insert
  | acceptError
  | read (uuid : σ) (completion : Option Completion) (more : ℕ)
  | handleWrite (uuid : σ) (index : ℕ) (success : Bool)
  | lock (uuid : σ)
  | push
  | notify
  | unlock
  | dealMsg
  | wake
  | send (uuid : σ)

/-- One step of a program that nothing has ended. -/
def act (json : JsonCpp) (program : Program σ) : Action σ → Option (Program σ)
  | .start uuid sendPending => program.serverStep (.start uuid sendPending)
  | .insert => program.serverStep .insert
  | .acceptError => program.serverStep .acceptError
  | .read uuid completion more =>
    (program.server.started uuid).bind fun started =>
      if started.reading && program.free uuid then some (program.handleRead uuid started completion more)
      else none
  | .handleWrite uuid index success =>
    if program.free uuid then
      program.serverStep (.session uuid (if success then .sending (.written index) else .writeError index))
    else none
  | .lock uuid => program.lock uuid
  | .push => program.logicStep .push
  | .notify => program.logicStep .notify
  | .unlock => (program.logicStep .unlock).map fun next => { next with poster := none }
  | .dealMsg => program.dealMsg json
  | .wake => program.logicStep .wake
  | .send uuid => program.send uuid

def step (json : JsonCpp) (program : Program σ) (action : Action σ) : Option (Program σ) :=
  match program.escaped with
  | some _ => none
  | none => program.act json action

end Program

end BoostLearn.Model.AsyncServer
