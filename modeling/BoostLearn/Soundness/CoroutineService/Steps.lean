import BoostLearn.Model.CoroutineService.Service
import BoostLearn.Soundness.LogicSystem.Routing

/-! # What a step of CoroutineService can do

A step is a handler of the thread in `main`, a move of the logic system, a callback with the locked
section of its `Send`, the start of a write, or something from outside. A handler changes one session
and posts at most one node.
-/

namespace BoostLearn.Soundness.CoroutineService

open CInt Memory Replay Model Model.Json Model.CoroutineService

variable {σ : Type} [DecidableEq σ] {json : JsonCpp} {service target : Service σ}

/-- The actions that run a handler of a session. -/
def handlesSession : Service.Action σ → Prop
  | .resume _ => True
  | .read _ _ => True
  | .handleWrite _ _ _ => True
  | _ => False

/-- The actions that are steps of the logic system and of nothing else. -/
def movesLogic : Service.Action σ → Option (LogicSystem.Action σ)
  | .push => some .push
  | .notify => some .notify
  | .unlock => some .unlock
  | .wake => some .wake
  | _ => none

omit [DecidableEq σ] in
/-- Only a poster, or a worker that waits, makes these. -/
theorem offDuty_of_movesLogic {action : Service.Action σ} {act : LogicSystem.Action σ}
    (moves : movesLogic action = some act) : LogicSystem.OffDuty act ∧ LogicSystem.brings act = [] := by
  cases action with
  | push | notify | unlock | wake =>
    cases moves
    exact ⟨trivial, rfl⟩
  | _ => contradiction

/-- What a handler is called with, and what it leaves of the bytes of the peers. -/
inductive Takes (service : Service σ) (uuid : σ) (started : Started Unit) :
    Event Unit → (σ → List UInt8) → Prop
  | resume : Takes service uuid started .resume service.unread
  | throws : Takes service uuid started (.read none) service.unread
  | reads {node : MsgNode} {bytes rest : List UInt8} (fills : started.filling = some node)
      (whole : bytes.length = toSizeT node.maxLen) (split : service.unread uuid = bytes ++ rest) :
      Takes service uuid started (.read (some bytes)) (Function.update service.unread uuid rest)
  | written {index : ℕ} {success : Bool} :
      Takes service uuid started (.sending (.written index success)) service.unread

/-- The service behind a handler. -/
def handled (service : Service σ) (uuid : σ) (started next : Started Unit) (clears : Bool)
    (unread : σ → List UInt8) : Service σ :=
  { service with
    unread
    server := service.server.handle uuid next clears
    posting := (next.posted.drop started.posted.length).head?.map fun node => ⟨uuid, node⟩
    escaped := next.phase.fault?.map .node }

/-- The service behind a change of what a session is sending. -/
def sends (service : Service σ) (uuid : σ) (started : Started Unit)
    (sending : SendPipeline Unit SendNode) : Service σ :=
  { service with server := service.server.handle uuid { started with sending } false }

/-- The transitions of the service. -/
inductive Passes (json : JsonCpp) (service : Service σ) : Service.Action σ → Service σ → Prop
  | arrives {uuid : σ} {bytes : List UInt8} :
      Passes json service (.arrives uuid bytes) { service with
        unread := Function.update service.unread uuid (service.unread uuid ++ bytes)
        arrived := Function.update service.arrived uuid (service.arrived uuid ++ bytes) }
  | accept {uuid : σ} {dispatched : Bool} {session : CSession} (free : service.free = true)
      (unknown : service.server.started uuid = none) (built : newSession = .ok session) :
      Passes json service (.accept uuid dispatched)
        { service with server := service.server.accept uuid session dispatched }
  | acceptError (free : service.free = true) : Passes json service .acceptError service
  | handles {action : Service.Action σ} {uuid : σ} {event : Event Unit} {started next : Started Unit}
      {clears : Bool} {unread : σ → List UInt8} (handler : handlesSession action)
      (free : service.free = true) (found : service.server.started uuid = some started)
      (takes : Takes service uuid started event unread)
      (applied : event.apply started = some (next, clears)) :
      Passes json service action (handled service uuid started next clears unread)
  | lock {node : LogicNode σ} {logic : LogicSystem σ} (posting : service.posting = some node)
      (moved : LogicSystem.Moved .coroutineService service.logic (.lock node) logic) :
      Passes json service .lock { service with logic, posting := none }
  | logic {action : Service.Action σ} {act : LogicSystem.Action σ} {logic : LogicSystem σ}
      (moves : movesLogic action = some act)
      (moved : LogicSystem.Moved .coroutineService service.logic act logic) :
      Passes json service action { service with logic }
  | worker {logic : LogicSystem σ}
      (moved : LogicSystem.Moved .coroutineService service.logic .dealMsg logic)
      (silent : LogicSystem.callee? service.logic = none)
      (returned : ∀ drain node rest, service.logic.control = .worker (.served drain) →
        service.logic.msgQue = node :: rest → service.returned node = true) :
      Passes json service .dealMsg { service with logic }
  | escapes {node : LogicNode σ} {logic : LogicSystem σ} {started : Started Unit} {escaped : Escape}
      (serves : LogicSystem.callee? service.logic = some node)
      (moved : LogicSystem.Moved .coroutineService service.logic .dealMsg logic)
      (found : service.server.started node.session = some started)
      (left : callBack json node.recvNode started.sending.sendQue.length = .error escaped) :
      Passes json service .dealMsg { service with logic, escaped := some escaped }
  | calls {node : LogicNode σ} {logic : LogicSystem σ} {started : Started Unit} {reply : Text × ℤ}
      (serves : LogicSystem.callee? service.logic = some node)
      (moved : LogicSystem.Moved .coroutineService service.logic .dealMsg logic)
      (found : service.server.started node.session = some started)
      (called : callBack json node.recvNode started.sending.sendQue.length = .ok reply) :
      Passes json service .dealMsg
        (sends { service with logic } node.session started (started.sending.send newSendNode () reply))
  | asyncWrite {uuid : σ} {index : ℕ} {started : Started Unit} {sending : SendPipeline Unit SendNode}
      (found : service.server.started uuid = some started)
      (stepped : started.sending.step newSendNode (.start index) = some sending) :
      Passes json service (.asyncWrite uuid index) (sends service uuid started sending)

section Inversion

theorem handler_cases {uuid : σ} {event : Event Unit}
    (ran : service.handler uuid event = some target) :
    ∃ started next clears, service.free = true ∧ service.server.started uuid = some started ∧
      event.apply started = some (next, clears) ∧
      target = handled service uuid started next clears service.unread := by
  rw [Service.handler] at ran
  split_ifs at ran with free
  obtain ⟨started, found, ran⟩ := Option.bind_eq_some_iff.mp ran
  obtain ⟨⟨next, clears⟩, applied, rfl⟩ := Option.map_eq_some_iff.mp ran
  exact ⟨started, next, clears, free, found, applied, rfl⟩

private theorem passes_handler {action : Service.Action σ} {uuid : σ} {event : Event Unit}
    (handler : handlesSession action)
    (takes : ∀ started, Takes service uuid started event service.unread)
    (ran : service.handler uuid event = some target) : Passes json service action target := by
  obtain ⟨started, next, clears, free, found, applied, rfl⟩ := handler_cases ran
  exact .handles handler free found (takes started) applied

private theorem passes_read {uuid : σ} {failed : Bool}
    (ran : service.asyncRead uuid failed = some target) :
    Passes json service (.read uuid failed) target := by
  rw [Service.asyncRead] at ran
  split_ifs at ran with threw
  · exact passes_handler trivial (fun _ => .throws) ran
  · obtain ⟨node, filling, ran⟩ := Option.bind_eq_some_iff.mp ran
    obtain ⟨started, found, fills⟩ := Option.bind_eq_some_iff.mp filling
    dsimp only at ran
    split_ifs at ran with enough
    obtain ⟨same, next, clears, free, again, applied, rfl⟩ := handler_cases ran
    cases found.symm.trans again
    refine .handles trivial free found (.reads fills ?_ (List.take_append_drop _ _).symm) applied
    exact List.length_take_of_le enough

omit [DecidableEq σ] in
private theorem moved_of_logicStep {action : LogicSystem.Action σ}
    (ran : service.logicStep action = some target) :
    ∃ logic, LogicSystem.Moved .coroutineService service.logic action logic ∧
      target = { service with logic } := by
  obtain ⟨logic, stepped, rfl⟩ := Option.map_eq_some_iff.mp ran
  exact ⟨logic, LogicSystem.moved_of_step stepped, rfl⟩

private theorem passes_logic {action : Service.Action σ} {act : LogicSystem.Action σ}
    (moves : movesLogic action = some act) (ran : service.logicStep act = some target) :
    Passes json service action target := by
  obtain ⟨logic, moved, rfl⟩ := moved_of_logicStep ran
  exact .logic moves moved

/-- What `Send` does on the session of a node. -/
private theorem session_send {uuid : σ} {started : Started Unit} {reply : Text × ℤ}
    {server : CServer σ Unit} (found : service.server.started uuid = some started)
    (stepped : service.server.step (.session uuid (.sending (.send () reply))) = some server) :
    server = service.server.handle uuid
      { started with sending := started.sending.send newSendNode () reply } false := by
  rw [CServer.step, found] at stepped
  obtain ⟨⟨next, clears⟩, applied, rfl⟩ := Option.map_eq_some_iff.mp stepped
  obtain ⟨sending, taken, same⟩ := Option.map_eq_some_iff.mp applied
  rw [SendPipeline.step] at taken
  split_ifs at taken
  cases taken
  cases same
  rfl

private theorem passes_dispatch {node : LogicNode σ} (serves : LogicSystem.callee? service.logic = some node)
    (ran : service.dispatch json node = some target) : Passes json service .dealMsg target := by
  obtain ⟨next, stepped, ran⟩ := Option.bind_eq_some_iff.mp ran
  obtain ⟨logic, moved, rfl⟩ := moved_of_logicStep stepped
  obtain ⟨started, found, ran⟩ := Option.bind_eq_some_iff.mp ran
  dsimp only at ran
  split at ran
  · next escaped left =>
    cases ran
    exact .escapes serves moved found left
  · next reply called =>
    obtain ⟨server, stepped, rfl⟩ := Option.map_eq_some_iff.mp ran
    rw [session_send found stepped]
    exact .calls serves moved found called

private theorem passes_dealMsg (ran : service.dealMsg json = some target) :
    Passes json service .dealMsg target := by
  rw [Service.dealMsg] at ran
  split at ran
  · next drain node rest place front =>
    split_ifs at ran with known
    · exact passes_dispatch (by rw [LogicSystem.callee?, place, front]; exact if_pos known) ran
    · obtain ⟨logic, moved, rfl⟩ := moved_of_logicStep ran
      refine .worker moved (by rw [LogicSystem.callee?, place, front]; exact if_neg known) ?_
      intro other first later served
      cases place.symm.trans served
  · next drain node rest place front =>
    split_ifs at ran with returned
    obtain ⟨logic, moved, rfl⟩ := moved_of_logicStep ran
    refine .worker moved (by rw [LogicSystem.callee?, place]) ?_
    intro other first later served ahead
    cases front.symm.trans ahead
    exact returned
  · next serving served =>
    obtain ⟨logic, moved, rfl⟩ := moved_of_logicStep ran
    refine .worker moved ?_ fun drain node rest place front => absurd front (served drain node rest place)
    rw [LogicSystem.callee?]
    split
    · next drain node rest place front => exact absurd front (serving drain node rest place)
    · rfl

/-- Every step is one of the transitions, of a program that nothing has ended. -/
theorem passes_of_step {action : Service.Action σ} (taken : service.step json action = some target) :
    service.escaped = none ∧ Passes json service action target := by
  rw [Service.step] at taken
  split at taken
  · contradiction
  next running =>
  refine ⟨running, ?_⟩
  cases action with
  | arrives uuid bytes => exact Option.some.inj taken ▸ .arrives
  | accept uuid dispatched =>
    rw [Service.act] at taken
    split_ifs at taken with free
    obtain ⟨server, accepted, rfl⟩ := Option.map_eq_some_iff.mp taken
    rw [CServer.step] at accepted
    split at accepted
    · next unknown =>
      obtain ⟨session, built, rfl⟩ := Option.map_eq_some_iff.mp accepted
      refine .accept free unknown ?_
      cases new : newSession with
      | error fault =>
        rw [new] at built
        cases built
      | ok made =>
        rw [new] at built
        cases built
        rfl
    · contradiction
  | acceptError =>
    rw [Service.act] at taken
    split_ifs at taken with free
    exact Option.some.inj taken ▸ .acceptError free
  | resume uuid => exact passes_handler trivial (fun _ => .resume) taken
  | read uuid failed => exact passes_read taken
  | handleWrite uuid index success => exact passes_handler trivial (fun _ => .written) taken
  | lock =>
    obtain ⟨node, posting, taken⟩ := Option.bind_eq_some_iff.mp taken
    obtain ⟨next, stepped, rfl⟩ := Option.map_eq_some_iff.mp taken
    obtain ⟨logic, moved, rfl⟩ := moved_of_logicStep stepped
    exact .lock posting moved
  | push => exact passes_logic rfl taken
  | notify => exact passes_logic rfl taken
  | unlock => exact passes_logic rfl taken
  | dealMsg => exact passes_dealMsg taken
  | wake => exact passes_logic rfl taken
  | asyncWrite uuid index =>
    obtain ⟨server, stepped, rfl⟩ := Option.map_eq_some_iff.mp taken
    rw [CServer.step] at stepped
    obtain ⟨started, found, stepped⟩ := Option.bind_eq_some_iff.mp stepped
    obtain ⟨⟨next, clears⟩, applied, rfl⟩ := Option.map_eq_some_iff.mp stepped
    obtain ⟨sending, started', same⟩ := Option.map_eq_some_iff.mp applied
    cases same
    exact .asyncWrite found started'

end Inversion

section Handlers

variable {τ : Type} {started next : Started τ} {clears : Bool}

/-- What the coroutine posts on its way, with its sends left alone. -/
structure Ran (started next : Started τ) (posts : List (RecvNode ℤ)) : Prop where
  posted : next.posted = started.posted ++ posts
  sending : next.sending = started.sending

theorem ran_nothing (posted : next.posted = started.posted) (sending : next.sending = started.sending) :
    Ran started next [] := ⟨posted.trans (List.append_nil _).symm, sending⟩

theorem ran_loopTop (started : Started τ) : Ran started started.loopTop [] := by
  rw [Started.loopTop]
  split_ifs
  · exact ran_nothing rfl rfl
  · cases started.session.recvHeadNode.clear <;> exact ran_nothing rfl rfl

theorem ran_checkHeader (started : Started τ) (fields : Except Fault (ℤ × ℤ)) :
    Ran started (started.checkHeader fields).1 [] := by
  cases fields with
  | error fault => exact ran_nothing rfl rfl
  | ok fields =>
    rw [Started.checkHeader]
    split_ifs
    · exact ran_nothing rfl rfl
    · cases MsgNode.new fields.2 with
      | error fault => cases fault <;> exact ran_nothing rfl rfl
      | ok node => exact ran_nothing rfl rfl

theorem ran_onHead (started : Started τ) (result : Option (List UInt8)) :
    Ran started (started.onHead result).1 [] := by
  cases result with
  | none => exact ran_nothing rfl rfl
  | some bytes =>
    rw [Started.onHead]
    split_ifs
    · exact ran_nothing rfl rfl
    · have filled := ran_checkHeader (started.fillHead bytes)
        (header (started.fillHead bytes).session.recvHeadNode.data)
      exact ⟨filled.posted, filled.sending⟩

theorem ran_onBody (started : Started τ) (node : RecvNode ℤ) (result : Option (List UInt8)) :
    ∃ posts, posts.length ≤ 1 ∧ Ran started (started.onBody node result).1 posts := by
  cases result with
  | none => exact ⟨[], Nat.zero_le 1, ran_nothing rfl rfl⟩
  | some bytes =>
    rw [Started.onBody]
    split_ifs
    · exact ⟨[], Nat.zero_le 1, ran_nothing rfl rfl⟩
    · cases store (bytes.map some ++ node.data.drop bytes.length) node.maxLen 0 with
      | error fault => exact ⟨[], Nat.zero_le 1, ran_nothing rfl rfl⟩
      | ok data =>
        obtain ⟨posted, sending⟩ := ran_loopTop { started with
          session := { started.session with recvMsgNode := some { node with data } }
          posted := started.posted ++ [{ node with data }] }
        exact ⟨[{ node with data }], Nat.le_refl 1, posted.trans (List.append_nil _), sending⟩

/-- The coroutine posts at most one node between two suspensions. -/
theorem ran_of_apply [DecidableEq τ] {event : Event τ} (coroutine : ∀ action, event ≠ .sending action)
    (applied : event.apply started = some (next, clears)) :
    ∃ posts, posts.length ≤ 1 ∧ Ran started next posts := by
  cases event with
  | sending action => exact absurd rfl (coroutine action)
  | resume =>
    simp only [Event.apply] at applied
    split_ifs at applied
    cases applied
    exact ⟨[], Nat.zero_le 1, ran_loopTop started⟩
  | read result =>
    simp only [Event.apply] at applied
    split at applied
    · split_ifs at applied
      have ran := ran_onHead started result
      rw [Option.some.inj applied] at ran
      exact ⟨[], Nat.zero_le 1, ran⟩
    · next node _ _ =>
      split_ifs at applied
      have ran := ran_onBody started node result
      rwa [Option.some.inj applied] at ran
    · contradiction

/-- A completion of a write leaves the coroutine alone. -/
theorem written_of_apply [DecidableEq τ] {index : ℕ} {success : Bool}
    (applied : Event.apply started (.sending (.written index success)) = some (next, clears)) :
    next.posted = started.posted ∧ next.phase = started.phase ∧
      started.sending.step newSendNode (.written index success) = some next.sending := by
  obtain ⟨sending, stepped, same⟩ := Option.map_eq_some_iff.mp applied
  cases success <;> cases same <;> exact ⟨rfl, rfl, stepped⟩

/-- It adds no node and no writer from outside. -/
theorem kept_of_written {τ μ ν : Type} [DecidableEq τ] {newSendNode : μ → Option ν} {pipeline target : SendPipeline τ ν}
    {index : ℕ} {success : Bool} (stepped : pipeline.step newSendNode (.written index success) = some target) :
    target.enqueued = pipeline.enqueued ∧ target.deciding = pipeline.deciding := by
  obtain ⟨node, -, rfl⟩ := Option.map_eq_some_iff.mp stepped
  split_ifs
  · rw [SendPipeline.handleWrite]
    dsimp only
    split <;> exact ⟨rfl, rfl⟩
  · exact ⟨rfl, rfl⟩

/-- The node that a handler has posted is the one that its thread goes on with. -/
theorem head?_drop_posted {posted posts : List (RecvNode ℤ)} (single : posts.length ≤ 1) :
    (((posted ++ posts).drop posted.length).head?).toList = posts := by
  rw [List.drop_left' rfl]
  match posts, single with
  | [], _ => rfl
  | [node], _ => rfl

end Handlers

end BoostLearn.Soundness.CoroutineService
