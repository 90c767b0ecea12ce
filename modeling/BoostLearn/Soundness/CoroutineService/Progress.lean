import BoostLearn.Core.Settling
import BoostLearn.Soundness.CoroutineService.Service
import BoostLearn.Soundness.LogicSystem.Settling
import Mathlib.Data.List.Nodup

/-! # CoroutineService comes to rest

The thread in `main` waits for the mutex while the worker runs a callback, and the callback waits for
nobody: the write that it starts goes to the socket. So without anything new from outside, what the peers
have sent is read, posted, taken through the logic system and written, and there is a bound on the number
of the steps.
-/

namespace BoostLearn.Soundness.CoroutineService

open CInt Memory Replay Model Model.Json Model.Wire Model.CoroutineService

variable {σ : Type} {json : JsonCpp} {service target : Service σ}

/-- The steps that bring nothing new: no connection, no bytes of a peer, no spurious wake-up. -/
def Own (service : Service σ) : Service.Action σ → Prop
  | .arrives _ _ | .accept _ _ | .acceptError => False
  | .wake => LogicSystem.Woken service.logic
  | _ => True

/-- A coroutine waits for more than its peer has sent, or has ended. -/
def Waits (service : Service σ) (uuid : σ) (started : Started Unit) : Prop :=
  (∃ node, started.filling = some node ∧ (service.unread uuid).length < toSizeT node.maxLen) ∨
    (∃ exit, started.phase = .returned exit) ∨ ∃ fault, started.phase = .faulted fault

/-- A session whose coroutine waits writes nothing, and has nothing to write unless a write has failed. -/
structure Rests (service : Service σ) (uuid : σ) (started : Started Unit) : Prop where
  waits : Waits service uuid started
  idle : started.sending.deciding = [] ∧ started.sending.inflight = []
  written : started.sending.failed = none → started.sending.sendQue = []

/-- Nothing is posted, the worker waits and its queue is empty. -/
structure Quiet (service : Service σ) : Prop where
  posting : service.posting = none
  waiting : service.logic.control = .free (.waiting false)
  empty : service.logic.msgQue = []

/-- The program has ended, or neither of its threads has anything to do. -/
def AtRest (service : Service σ) : Prop :=
  service.escaped ≠ none ∨
    Quiet service ∧ ∀ uuid started, service.server.started uuid = some started → Rests service uuid started

section Work

/-- What a node costs until it has been answered: it is brought, and its callback starts a write that completes. -/
def postWork : ℕ := LogicSystem.bringingWork 3

/-- What the coroutine has to do until it has posted its node and waits for a header again. -/
def phaseWork : Phase → ℕ
  | .spawned | .readingBody => postWork + 2
  | .readingHead => 1
  | .returned _ | .faulted _ => 0

def sendingWork (sending : SendPipeline Unit SendNode) : ℕ := sending.sendQue.length + sending.inflight.length

/-- What is left to a session of which some bytes are unread. -/
def startedWork (unread : List UInt8) (started : Started Unit) : ℕ :=
  postWork * unread.length + phaseWork started.phase + sendingWork started.sending

def sessionWork (service : Service σ) (uuid : σ) : ℕ :=
  match service.server.started uuid with
  | none => 0
  | some started => startedWork (service.unread uuid) started

/-- A callback in service may have a write to start. -/
def left (service : Service σ) : ℕ := if (service.logic.msgQue.take 1).all service.returned then 0 else 2

/-- A bound on the steps that are left, when the sessions are some of those of the peers. -/
def work (peers : List σ) (service : Service σ) : ℕ :=
  total (sessionWork service) peers + postWork * service.posting.toList.length +
    LogicSystem.work 3 (left service) service.logic

/-- The sessions are some of those of the peers. -/
structure Covers (peers : List σ) (service : Service σ) : Prop where
  nodup : peers.Nodup
  known : ∀ uuid started, service.server.started uuid = some started → uuid ∈ peers

theorem left_le (service : Service σ) : left service ≤ 2 := by
  rw [left]
  split_ifs <;> decide

theorem sessionWork_found {uuid : σ} {started : Started Unit} (found : service.server.started uuid = some started) :
    sessionWork service uuid = startedWork (service.unread uuid) started := by
  simp only [sessionWork, found]

end Work

variable [DecidableEq σ] {peers : List σ} {exact : Prop}

section Covers

/-- A step only starts the session that it accepts. -/
theorem Covers.step {action : Service.Action σ} (covers : Covers peers service)
    (taken : service.step json action = some target)
    (accepted : ∀ uuid dispatched, action = .accept uuid dispatched → uuid ∈ peers) : Covers peers target := by
  have handle {uuid : σ} {started next : Started Unit} {clears : Bool}
      (found : service.server.started uuid = some started)
      (changed : target.server = service.server.handle uuid next clears) : Covers peers target := by
    refine ⟨covers.nodup, fun other held present => ?_⟩
    by_cases same : other = uuid
    · exact same ▸ covers.known uuid started found
    · simp only [changed, CServer.handle, Function.update_of_ne same] at present
      exact covers.known other held present
  obtain ⟨-, passes⟩ := passes_of_step taken
  cases passes with
  | @accept uuid dispatched session free unknown built =>
    refine ⟨covers.nodup, fun other held present => ?_⟩
    by_cases same : other = uuid
    · exact same ▸ accepted uuid dispatched rfl
    · simp only [CServer.accept, Function.update_of_ne same] at present
      exact covers.known other held present
  | handles _ _ found _ _ => exact handle found rfl
  | calls _ _ found _ => exact handle found rfl
  | asyncWrite found _ => exact handle found rfl
  | _ => exact ⟨covers.nodup, covers.known⟩

theorem Covers.own {action : Service.Action σ} (covers : Covers peers service) (own : Own service action)
    (taken : service.step json action = some target) : Covers peers target :=
  covers.step taken fun uuid dispatched same => by
    rw [same] at own
    exact own.elim

end Covers

section Sessions

variable {uuid : σ} {started next : Started Unit} {unread : σ → List UInt8} {event : Event Unit} {clears : Bool}

/-- Behind its loop condition, the coroutine reads a header or has ended. -/
theorem phaseWork_loopTop (started : Started Unit) : phaseWork started.loopTop.phase ≤ 1 := by
  rw [Started.loopTop]
  split_ifs
  · exact Nat.zero_le 1
  · cases started.session.recvHeadNode.clear
    · exact Nat.zero_le 1
    · exact Nat.le_refl 1

theorem phaseWork_onBody (started : Started Unit) (node : RecvNode ℤ) (bytes : List UInt8) :
    phaseWork (started.onBody node (some bytes)).1.phase ≤ 1 := by
  rw [Started.onBody]
  split_ifs
  · exact Nat.zero_le 1
  · cases store (bytes.map some ++ node.data.drop bytes.length) node.maxLen 0 with
    | error fault => exact Nat.zero_le 1
    | ok data => exact phaseWork_loopTop _

theorem phaseWork_le (phase : Phase) : phaseWork phase ≤ postWork + 2 := by
  cases phase <;> simp only [phaseWork] <;> omega

/-- A read that throws ends the coroutine, which posts nothing. -/
theorem throws_of_apply (applied : Event.apply started (.read none) = some (next, clears)) :
    0 < phaseWork started.phase ∧ phaseWork next.phase = 0 ∧ next.posted = started.posted ∧
      next.sending = started.sending := by
  simp only [Event.apply] at applied
  split at applied
  · next reading =>
    split_ifs at applied
    cases applied
    rw [reading]
    exact ⟨Nat.zero_lt_one, rfl, rfl, rfl⟩
  · next reading held =>
    split_ifs at applied
    cases applied
    rw [reading]
    exact ⟨Nat.zero_lt_succ _, rfl, rfl, rfl⟩
  · contradiction

omit [DecidableEq σ] in
/-- A completion of a write leaves less to write. -/
theorem sendingWork_written {sending : SendPipeline Unit SendNode} {index : ℕ} {success : Bool}
    (represents : ∃ fifo, Represents fifo started.sending)
    (stepped : started.sending.step newSendNode (.written index success) = some sending) :
    sendingWork sending < sendingWork started.sending := by
  obtain ⟨fifo, represents⟩ := represents
  obtain ⟨node, outstanding, rfl⟩ := Option.map_eq_some_iff.mp stepped
  have present := (List.getElem?_eq_some_iff.mp outstanding).1
  have queued := represents.sends.popped (List.ne_nil_of_length_pos (Nat.zero_lt_of_lt present))
  have erased := List.length_eraseIdx_of_lt present
  obtain ⟨first, rest, front⟩ := List.exists_cons_of_ne_nil queued
  split_ifs
  · simp only [sendingWork, SendPipeline.handleWrite, front, List.tail_cons]
    cases rest with
    | nil =>
      simp only [erased, List.length_cons, List.length_nil]
      omega
    | cons second later =>
      simp only [SendPipeline.asyncWrite, erased, List.length_append, List.length_cons, List.length_nil]
      omega
  · simp only [sendingWork, SendPipeline.handleError, erased]
    omega

/-- A read leaves its session less to do, and pays for the node that it posts. -/
theorem startedWork_reads (serves : Serves exact json service) (found : service.server.started uuid = some started)
    {node : MsgNode} {bytes rest : List UInt8} (fills : started.filling = some node)
    (whole : bytes.length = toSizeT node.maxLen) (split : service.unread uuid = bytes ++ rest)
    (applied : Event.apply started (.read (some bytes)) = some (next, clears)) :
    startedWork rest next + postWork * (next.posted.length - started.posted.length) <
      startedWork (service.unread uuid) started := by
  have cost : postWork = 28 := rfl
  obtain ⟨posts, single, posted, sending⟩ := ran_of_apply (fun action same => by cases same) applied
  have grown : next.posted.length - started.posted.length ≤ 1 := by
    rw [posted, List.length_append]
    omega
  obtain ⟨consumed, -, reached⟩ := serves.hears.sessions uuid started found
  rw [startedWork, startedWork, split, sending, List.length_append, cost]
  cases reached with
  | spawned phase _ _ _ =>
    rw [Started.filling, phase] at fills
    cases fills
  | head phase _ _ headed =>
    rw [Started.filling, phase] at fills
    cases fills
    rw [headed.size, toSizeT_natCast (by decide), headTotalLen] at whole
    have reads : phaseWork started.phase = 1 := phase ▸ rfl
    have bound := phaseWork_le next.phase
    rw [reads, whole]
    omega
  | body phase _ _ _ _ _ held _ _ =>
    simp only [Event.apply, phase, held] at applied
    split_ifs at applied
    have busy : phaseWork started.phase = postWork + 2 := phase ▸ rfl
    have behind : (started.onBody _ (some bytes)).1 = next := congrArg Prod.fst (Option.some.inj applied)
    have waits : phaseWork next.phase ≤ 1 := behind ▸ phaseWork_onBody ..
    rw [busy]
    omega
  | ended finished _ _ =>
    rw [Started.filling] at fills
    rcases finished with ⟨_, same⟩ | ⟨_, same, -⟩ <;> rw [same] at fills <;> cases fills

/-- So does every handler. -/
theorem startedWork_handles (serves : Serves exact json service)
    (found : service.server.started uuid = some started) (takes : Takes service uuid started event unread)
    (applied : event.apply started = some (next, clears)) :
    startedWork (unread uuid) next + postWork * (next.posted.length - started.posted.length) <
      startedWork (service.unread uuid) started := by
  cases takes with
  | resume =>
    simp only [Event.apply] at applied
    split_ifs at applied with spawned
    cases applied
    have busy : phaseWork started.phase = postWork + 2 := spawned ▸ rfl
    have waits := phaseWork_loopTop started
    obtain ⟨posted, sending⟩ := ran_loopTop started
    rw [startedWork, startedWork, posted, sending, busy, List.append_nil, Nat.sub_self]
    omega
  | throws =>
    obtain ⟨before, after, posted, sending⟩ := throws_of_apply applied
    rw [startedWork, startedWork, posted, sending, after, Nat.sub_self]
    omega
  | reads fills whole split =>
    rw [Function.update_self]
    exact startedWork_reads serves found fills whole split applied
  | written =>
    obtain ⟨posted, phase, stepped⟩ := written_of_apply applied
    have less := sendingWork_written (serves.routes.sessions uuid started found).sending stepped
    rw [startedWork, startedWork, posted, phase, Nat.sub_self]
    omega

theorem Takes.others (takes : Takes service uuid started event unread) {other : σ} (different : other ≠ uuid) :
    unread other = service.unread other := by
  cases takes with
  | reads => exact Function.update_of_ne different ..
  | _ => rfl

end Sessions

section Decreases

omit [DecidableEq σ] in
/-- A change of one session changes the work by what that session does. -/
theorem total_session (target : Service σ) {uuid : σ} {started : Started Unit} (covers : Covers peers service)
    (found : service.server.started uuid = some started)
    (others : ∀ other, other ≠ uuid → target.server.started other = service.server.started other ∧
      target.unread other = service.unread other) :
    total (sessionWork target) peers + sessionWork service uuid =
      total (sessionWork service) peers + sessionWork target uuid := by
  refine total_exchange covers.nodup (covers.known uuid started found) fun other different => ?_
  obtain ⟨session, unread⟩ := others other different
  rw [sessionWork, sessionWork, session, unread]

/-- The sessions behind a change of what one of them is sending. -/
theorem total_sends {uuid : σ} {started : Started Unit} (covers : Covers peers service)
    (found : service.server.started uuid = some started) (sending : SendPipeline Unit SendNode) :
    total (sessionWork (sends service uuid started sending)) peers + sendingWork started.sending =
      total (sessionWork service) peers + sendingWork sending := by
  have whole := total_session (sends service uuid started sending) covers found
    fun other different => ⟨Function.update_of_ne different .., rfl⟩
  have here : (sends service uuid started sending).server.started uuid = some { started with sending } :=
    Function.update_self ..
  rw [sessionWork_found found, sessionWork_found here, startedWork, startedWork] at whole
  simp only [sends] at whole ⊢
  omega

/-- A callback leaves one node more, and starts at most one write. -/
theorem sendingWork_send (sending : SendPipeline Unit SendNode) (reply : Text × ℤ) :
    sendingWork (sending.send newSendNode () reply) ≤ sendingWork sending + 1 := by
  by_cases full : maxLength < sending.sendQue.length
  · rw [SendPipeline.send_full full]
    exact Nat.le_succ _
  cases built : newSendNode reply with
  | none =>
    rw [SendPipeline.send_unbuilt built]
    exact Nat.le_succ _
  | some node =>
    by_cases empty : sending.sendQue = []
    · rw [SendPipeline.send_first built empty]
      simp only [sendingWork, empty, List.length_singleton, List.length_nil]
      omega
    · rw [SendPipeline.send_waiting (Nat.not_lt.mp full) built empty]
      simp only [sendingWork, List.length_append, List.length_singleton]
      omega

/-- No handler is a callback. -/
theorem deciding_handles {uuid : σ} {event : Event Unit} {started next : Started Unit} {unread : σ → List UInt8}
    {clears : Bool} (takes : Takes service uuid started event unread)
    (applied : event.apply started = some (next, clears)) :
    next.sending.deciding = started.sending.deciding := by
  cases takes with
  | written => exact (kept_of_written (written_of_apply applied).2.2).2
  | _ =>
    obtain ⟨posts, -, -, sending⟩ := ran_of_apply (fun action same => by cases same) applied
    rw [sending]

/-- A handler posts some of what its coroutine has. -/
theorem posting_handled (service : Service σ) (uuid : σ) (started next : Started Unit) (clears : Bool)
    (unread : σ → List UInt8) : (handled service uuid started next clears unread).posting.toList.length ≤
      next.posted.length - started.posted.length := by
  rw [← List.length_drop]
  simp only [handled, Option.toList_map, List.length_map]
  cases next.posted.drop started.posted.length with
  | nil => exact Nat.le_refl 0
  | cons node rest => exact Nat.succ_le_succ (Nat.zero_le _)

/-- The worker finds the same sessions with something to write as before a handler. -/
theorem left_handled {uuid : σ} {started next : Started Unit} {unread : σ → List UInt8} {clears : Bool}
    (found : service.server.started uuid = some started) (same : next.sending.deciding = started.sending.deciding) :
    left (handled service uuid started next clears unread) = left service := by
  have returned : (handled service uuid started next clears unread).returned = service.returned := by
    funext node
    by_cases own : node.session = uuid
    · simp only [Service.returned, handled, CServer.handle, own, Function.update_self, found, same]
    · simp only [Service.returned, handled, CServer.handle, Function.update_of_ne own]
  rw [left, left, returned]
  rfl

/-- The writer of a session is alone. -/
private theorem decider_first {fifo : Fifo SendNode} {sending : SendPipeline Unit SendNode}
    (represents : Represents fifo sending) {index : ℕ} {decided : Unit × SendNode}
    (at_ : sending.deciding[index]? = some decided) : sending.deciding.eraseIdx index = [] := by
  have single := represents.sends.single
  obtain ⟨rfl, only⟩ := Fifo.eq_singleton_of_getElem? (by omega) at_
  rw [only]
  rfl

/-- Behind its write, the callback has nothing left to do. -/
private theorem left_asyncWrite (routes : Routes exact json service) {uuid : σ} {index : ℕ} {started : Started Unit}
    {sending : SendPipeline Unit SendNode} (found : service.server.started uuid = some started)
    (stepped : started.sending.step newSendNode (.start index) = some sending) :
    (∃ drain, service.logic.control = .worker (.served drain)) ∧
      left (sends service uuid started sending) = 0 ∧ left service = 2 := by
  have routed := routes.sessions uuid started found
  obtain ⟨fifo, represents⟩ := routed.sending
  obtain ⟨⟨thread, node⟩, decided, same⟩ := Option.map_eq_some_iff.mp stepped
  have busy : started.sending.deciding ≠ [] := fun none => by
    rw [none] at decided
    cases decided
  have idle : sending.deciding = [] := by
    rw [← same]
    exact decider_first represents decided
  obtain ⟨drain, front, rest, place, queued, rfl⟩ := routed.deciding busy
  refine ⟨⟨drain, place⟩, ?_⟩
  have before : service.returned front = false := by
    rw [Service.returned, found]
    exact List.isEmpty_eq_false_iff.mpr busy
  have after : (sends service front.session started sending).returned front = true := by
    simp only [Service.returned, sends, CServer.handle, Function.update_self, idle, List.isEmpty_nil]
  have later : (sends service front.session started sending).logic.msgQue = front :: rest := queued
  rw [left, left, later, queued]
  simp only [List.take_succ_cons, List.take_zero, List.all_cons, List.all_nil, before, after, Bool.and_true,
    Bool.false_eq_true, if_true, if_false, and_self]

/-- The start of a write has been counted with its callback. -/
theorem sendingWork_start {sending target : SendPipeline Unit SendNode} {index : ℕ}
    (stepped : sending.step newSendNode (.start index) = some target) :
    sendingWork target = sendingWork sending + 1 := by
  obtain ⟨⟨thread, node⟩, -, rfl⟩ := Option.map_eq_some_iff.mp stepped
  simp only [sendingWork, SendPipeline.asyncWrite, List.length_append, List.length_singleton]
  omega

omit [DecidableEq σ] in
theorem own_of_movesLogic {action : Service.Action σ} {act : LogicSystem.Action σ} (own : Own service action)
    (moves : movesLogic action = some act) : LogicSystem.Own service.logic act := by
  cases action with
  | push | notify | unlock | wake =>
    cases moves
    exact own
  | _ => contradiction

/-- Each of its own steps leaves the program less to do. -/
theorem work_step {action : Service.Action σ} (serves : Serves exact json service) (covers : Covers peers service)
    (own : Own service action) (taken : service.step json action = some target) :
    work peers target < work peers service := by
  obtain ⟨-, passes⟩ := passes_of_step taken
  have routes := serves.routes
  obtain ⟨fifo, represents⟩ := routes.nodes.represents
  cases passes with
  | arrives => exact own.elim
  | accept _ _ _ => exact own.elim
  | acceptError _ => exact own.elim
  | @handles action uuid event started next clears unread handler free found takes applied =>
    have less := startedWork_handles serves found takes applied
    have whole := total_session (handled service uuid started next clears unread) covers found
      fun other different => ⟨Function.update_of_ne different .., takes.others different⟩
    have here : (handled service uuid started next clears unread).server.started uuid = some next :=
      Function.update_self ..
    rw [sessionWork_found found, sessionWork_found here] at whole
    have posted := Nat.mul_le_mul_left postWork (posting_handled service uuid started next clears unread)
    have unread_ : (handled service uuid started next clears unread).unread = unread := rfl
    have logic : (handled service uuid started next clears unread).logic = service.logic := rfl
    rw [unread_] at whole
    rw [work, work, left_handled found (deciding_handles takes applied), logic, (free_cases free).1, Option.toList_none,
      List.length_nil]
    omega
  | @lock node logic posting moved =>
    simp only [work, posting, Option.toList_some, Option.toList_none, List.length_singleton, List.length_nil,
      Nat.mul_zero, Nat.mul_one, Nat.add_zero]
    rw [Nat.add_assoc, Nat.add_comm postWork]
    exact Nat.add_lt_add_left (LogicSystem.work_lock moved) _
  | logic moves moved =>
    obtain ⟨off, nothing⟩ := offDuty_of_movesLogic moves
    exact Nat.add_lt_add_left (LogicSystem.work_offDuty moved off nothing (own_of_movesLogic own moves)) _
  | @worker logic moved silent returned =>
    refine Nat.add_lt_add_left (LogicSystem.work_dealMsg represents routes.nodes.running moved silent
      fun drain place => ?_) _
    have control := represents.control
    rw [LogicSystem.AtControl, place] at control
    obtain ⟨node, rest, front⟩ := List.exists_cons_of_ne_nil control.1
    rw [left, front]
    simp only [List.take_succ_cons, List.take_zero, List.all_cons, List.all_nil, returned drain node rest place front,
      Bool.and_true, if_true]
  | @escapes _ logic _ escaped callee moved _ _ =>
    have bounded : left { service with logic, escaped := some escaped } + 0 ≤ 3 := Nat.le_succ_of_le (left_le _)
    exact Nat.add_lt_add_left (LogicSystem.work_call callee moved bounded) _
  | @calls node logic started reply callee moved found called =>
    have still : Covers peers { service with logic } := ⟨covers.nodup, covers.known⟩
    have whole := total_sends still found (started.sending.send newSendNode () reply)
    have more := sendingWork_send started.sending reply
    have bounded := Nat.add_le_add_right
      (left_le (sends { service with logic } node.session started (started.sending.send newSendNode () reply))) 1
    have less : _ < LogicSystem.work 3 (left service) service.logic := LogicSystem.work_call callee moved bounded
    have same : sessionWork { service with logic } = sessionWork service := rfl
    rw [same] at whole
    simp only [work, sends] at less whole ⊢
    omega
  | @asyncWrite uuid index started sending found stepped =>
    have whole := total_sends covers found sending
    have more := sendingWork_start stepped
    obtain ⟨⟨drain, place⟩, none, before⟩ := left_asyncWrite routes found stepped
    have less : LogicSystem.work 3 0 service.logic + 1 < LogicSystem.work 3 2 service.logic :=
      LogicSystem.work_callback place (Nat.lt_succ_self 1)
    rw [work, work, none, before]
    simp only [sends] at whole ⊢
    omega

end Decreases

section Progress

omit [DecidableEq σ] in
private theorem logicStep_of_step {act : LogicSystem.Action σ} {logic : LogicSystem σ}
    (stepped : service.logic.step .coroutineService act = some logic) :
    service.logicStep act = some { service with logic } := by
  rw [Service.logicStep, stepped]
  rfl

/-- Away from a callback, the worker goes on by a step of the logic system. -/
private theorem dealMsg_plain (serving : ∀ drain, service.logic.control ≠ .worker (.serving drain))
    (served : ∀ drain, service.logic.control ≠ .worker (.served drain)) {logic : LogicSystem σ}
    (stepped : service.logic.step .coroutineService .dealMsg = some logic) :
    service.dealMsg json = some { service with logic } := by
  rw [Service.dealMsg]
  split
  · next drain _ _ place _ => exact absurd place (serving drain)
  · next drain _ _ place _ => exact absurd place (served drain)
  · exact logicStep_of_step stepped

/-- A worker with the mutex can go on, or its callback has a write to start. -/
private theorem worker_progress (routes : Routes exact json service) {place : LogicSystem.Locked}
    (held : service.logic.control = .worker place) {logic : LogicSystem σ}
    (stepped : service.logic.step .coroutineService .dealMsg = some logic) :
    (∃ target, service.dealMsg json = some target) ∨
      ∃ uuid target, service.act json (.asyncWrite uuid 0) = some target := by
  obtain ⟨fifo, represents⟩ := routes.nodes.represents
  have control := represents.control
  rw [LogicSystem.AtControl, held] at control
  have plain (serving : ∀ drain, place ≠ .serving drain) (served : ∀ drain, place ≠ .served drain) :
      ∃ target, service.dealMsg json = some target := by
    refine ⟨_, dealMsg_plain (fun drain at_ => ?_) (fun drain at_ => ?_) stepped⟩
    · cases held.symm.trans at_
      exact serving drain rfl
    · cases held.symm.trans at_
      exact served drain rfl
  cases place with
  | testing | toWait | branching | draining =>
    exact .inl (plain (fun _ same => by cases same) fun _ same => by cases same)
  | serving drain =>
    obtain ⟨node, rest, front⟩ := List.exists_cons_of_ne_nil control.1
    refine .inl ?_
    simp only [Service.dealMsg, held, front]
    split_ifs with known
    · have member : node ∈ service.logic.posted := by
        rw [represents.posted, ← fifo.done_append_pending, ← represents.msgQue, front]
        exact List.mem_append_right _ List.mem_cons_self
      obtain ⟨started, found⟩ := routes.known (List.mem_append_left _ member)
      have idle := (routes.sessions _ started found).idle fun drain at_ => by cases held.symm.trans at_
      rw [Service.dispatch, logicStep_of_step stepped, Option.bind_some, found, Option.bind_some]
      cases callBack json node.recvNode started.sending.sendQue.length with
      | error escaped => exact ⟨_, rfl⟩
      | ok reply =>
        simp only [CServer.step, found, Option.bind_some, Event.apply, SendPipeline.step, idle]
        exact ⟨_, rfl⟩
    · exact ⟨_, logicStep_of_step stepped⟩
  | served drain =>
    obtain ⟨node, rest, front⟩ := List.exists_cons_of_ne_nil control.1
    by_cases returned : service.returned node = true
    · refine .inl ⟨{ service with logic }, ?_⟩
      simp only [Service.dealMsg, held, front, returned, if_true]
      exact logicStep_of_step stepped
    · refine .inr ⟨node.session, ?_⟩
      rw [Service.returned] at returned
      split at returned
      · contradiction
      · next started found =>
        obtain ⟨decided, later, deciding⟩ := List.exists_cons_of_ne_nil fun none =>
          returned (List.isEmpty_iff.mpr none)
        simp only [Service.act, CServer.step, found, Option.bind_some, Event.apply, SendPipeline.step,
          deciding, List.getElem?_cons_zero, Option.map_some]
        exact ⟨_, rfl⟩

theorem step_act (running : service.escaped = none) (action : Service.Action σ) :
    service.step json action = service.act json action := by
  rw [Service.step, running]

/-- While a node is on its way, one of the two threads can take it on. -/
theorem threads_progress (routes : Routes exact json service) (running : service.escaped = none)
    (busy : ¬ Quiet service) : ∃ action target, Own service action ∧ service.step json action = some target := by
  have step_act := @step_act _ json service _ running
  have locks {worker : LogicSystem.Released} (released : service.logic.control = .free worker) {node : LogicNode σ}
      (posting : service.posting = some node) :
      ∃ action target, Own service action ∧ service.step json action = some target := by
    obtain ⟨logic, stepped⟩ : ∃ logic, service.logic.step .coroutineService (.lock node) = some logic :=
      ⟨_, LogicSystem.step_lock routes.nodes.running released node⟩
    refine ⟨.lock, { service with logic, posting := none }, trivial, (step_act _).trans ?_⟩
    rw [Service.act, posting, Option.bind_some, logicStep_of_step stepped]
    rfl
  obtain ⟨fifo, represents⟩ := routes.nodes.represents
  cases LogicSystem.turn_of_represents represents routes.nodes.running with
  | @poster action next off nothing own stepped =>
    have moved := logicStep_of_step stepped
    cases action with
    | push => exact ⟨.push, _, trivial, (step_act _).trans moved⟩
    | notify => exact ⟨.notify, _, trivial, (step_act _).trans moved⟩
    | unlock => exact ⟨.unlock, _, trivial, (step_act _).trans moved⟩
    | wake => exact ⟨.wake, _, own, (step_act _).trans moved⟩
    | lock node => cases nothing
    | dealMsg | setStop | endDestructor => exact off.elim
  | worker held stepped =>
    rcases worker_progress routes held stepped with ⟨target, dealt⟩ | ⟨uuid, target, started⟩
    · exact ⟨.dealMsg, target, trivial, (step_act _).trans dealt⟩
    · exact ⟨.asyncWrite uuid 0, target, trivial, (step_act _).trans started⟩
  | starts released stepped =>
    refine ⟨.dealMsg, _, trivial, (step_act _).trans (dealMsg_plain (fun drain at_ => ?_) (fun drain at_ => ?_)
      stepped)⟩
    · cases released.symm.trans at_
    · cases released.symm.trans at_
  | sleeps waits empty =>
    cases posting : service.posting with
    | some node => exact locks waits posting
    | none => exact absurd ⟨posting, waits, empty⟩ busy

/-- A handler of a session runs while the thread in `main` is free. -/
theorem handler_of_apply {uuid : σ} {event : Event Unit} {started next : Started Unit} {clears : Bool}
    (free : service.free = true) (found : service.server.started uuid = some started)
    (applied : event.apply started = some (next, clears)) : ∃ target, service.handler uuid event = some target := by
  rw [Service.handler, if_pos free, found, Option.bind_some, applied]
  exact ⟨_, rfl⟩

/-- A read completes when its node can be filled. -/
theorem asyncRead_of_apply {uuid : σ} {started next : Started Unit} {node : MsgNode} {clears : Bool}
    (free : service.free = true) (found : service.server.started uuid = some started)
    (fills : started.filling = some node) (enough : toSizeT node.maxLen ≤ (service.unread uuid).length)
    (applied : Event.apply started (.read (some ((service.unread uuid).take (toSizeT node.maxLen)))) =
      some (next, clears)) : ∃ target, service.asyncRead uuid false = some target := by
  simp only [Service.asyncRead, found, Option.bind_some, fills, if_pos enough, Bool.false_eq_true, if_false]
  exact handler_of_apply free found applied

/-- A coroutine that does not wait for its peer can go on. -/
theorem coroutine_progress {uuid : σ} {started : Started Unit} {consumed : List UInt8}
    (reached : Reached consumed started) (free : service.free = true)
    (found : service.server.started uuid = some started) :
    Waits service uuid started ∨
      ∃ action target, Own service action ∧ service.act json action = some target := by
  have fits {node : MsgNode} (_ : toSizeT node.maxLen ≤ (service.unread uuid).length) :
      Fits node (some ((service.unread uuid).take (toSizeT node.maxLen))) := by
    intro bytes same
    cases same
    exact List.length_take_le _ _
  cases reached with
  | spawned phase _ _ _ =>
    have applied : Event.apply started .resume = some (started.loopTop, false) := if_pos phase
    obtain ⟨target, ran⟩ := handler_of_apply free found applied
    exact .inr ⟨.resume uuid, target, trivial, ran⟩
  | head phase _ _ _ =>
    have fills : started.filling = some started.session.recvHeadNode := by rw [Started.filling, phase]
    by_cases short : (service.unread uuid).length < toSizeT started.session.recvHeadNode.maxLen
    · exact .inl (.inl ⟨_, fills, short⟩)
    · have enough := Nat.not_lt.mp short
      obtain ⟨target, ran⟩ := asyncRead_of_apply free found fills enough (by
        simp only [Event.apply, phase]
        exact if_pos (fits enough))
      exact .inr ⟨.read uuid false, target, trivial, ran⟩
  | @body _ _ _ msgId length phase _ _ _ _ _ held _ _ =>
    have fills : started.filling = some ⟨0, length, List.replicate length none ++ [some 0]⟩ := by
      rw [Started.filling, phase, held]
      rfl
    by_cases short : (service.unread uuid).length < toSizeT length
    · exact .inl (.inl ⟨_, fills, short⟩)
    · have enough := Nat.not_lt.mp short
      obtain ⟨target, ran⟩ := asyncRead_of_apply free found fills enough (by
        simp only [Event.apply, phase, held]
        exact if_pos (fits enough))
      exact .inr ⟨.read uuid false, target, trivial, ran⟩
  | ended finished _ _ =>
    rcases finished with ended | ⟨fault, faulted, -⟩
    · exact .inl (.inr (.inl ended))
    · exact .inl (.inr (.inr ⟨fault, faulted⟩))

/-- A session at which nobody works rests, or one of its handlers can run. -/
theorem session_progress (serves : Serves exact json service) (quiet : Quiet service) {uuid : σ}
    {started : Started Unit} (found : service.server.started uuid = some started) :
    Rests service uuid started ∨ ∃ action target, Own service action ∧ service.act json action = some target := by
  have free : service.free = true := by
    rw [Service.free, quiet.posting, quiet.waiting]
  obtain ⟨consumed, -, reached⟩ := serves.hears.sessions uuid started found
  have routed := serves.routes.sessions uuid started found
  have deciding : started.sending.deciding = [] := routed.idle fun drain place => by
    cases quiet.waiting.symm.trans place
  obtain ⟨fifo, represents⟩ := routed.sending
  rcases coroutine_progress reached free found with waits | goesOn
  · cases inflight : started.sending.inflight with
    | nil =>
      refine .inl ⟨waits, ⟨deciding, inflight⟩, fun sound => ?_⟩
      by_contra queued
      have one := represents.sends.busy.mpr ⟨queued, sound⟩
      rw [deciding, inflight] at one
      cases one
    | cons node rest =>
      have outstanding : started.sending.inflight[0]? = some node := by
        rw [inflight]
        rfl
      have stepped : Event.apply started (.sending (.written 0 true)) = some ({ started with
          sending := SendPipeline.handleWrite { started.sending with
            inflight := started.sending.inflight.eraseIdx 0
            completed := started.sending.completed ++ [node] } }, false) := by
        rw [Event.apply, SendPipeline.step, outstanding]
        rfl
      obtain ⟨target, ran⟩ := handler_of_apply free found stepped
      exact .inr ⟨.handleWrite uuid 0 true, target, trivial, ran⟩
  · exact .inr goesOn

/-- While the program is not at rest, it can go on. -/
theorem progress (serves : Serves exact json service) (restless : ¬ AtRest service) :
    ∃ action target, Own service action ∧ service.step json action = some target := by
  have running : service.escaped = none := by
    by_contra ended
    exact restless (.inl ended)
  by_cases quiet : Quiet service
  · by_contra stuck
    refine restless (.inr ⟨quiet, fun uuid started found => ?_⟩)
    rcases session_progress serves quiet found with rests | ⟨action, target, own, acted⟩
    · exact rests
    · exact absurd ⟨action, target, own, (step_act running action).trans acted⟩ stuck
  · exact threads_progress serves.routes running quiet

end Progress

/-- The steps that are left to a state, and what is left when there are none. -/
structure Settles (json : JsonCpp) (peers : List σ) (service : Service σ) : Prop where
  bounded : ∀ tape target, Guarded (Service.step json) Own service tape →
    replay? (Service.step json) service tape = some target → tape.length + work peers target ≤ work peers service
  rests : ∀ tape target, Guarded (Service.step json) Own service tape →
    replay? (Service.step json) service tape = some target →
      (∀ action next, Own target action → target.step json action ≠ some next) → AtRest target

end BoostLearn.Soundness.CoroutineService
