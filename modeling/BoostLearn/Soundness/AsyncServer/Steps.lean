import BoostLearn.Soundness.AsyncServer.Sender
import BoostLearn.Soundness.LogicSystem.Routing

/-! # What a step of AsyncServer can do

A step accepts a session, runs a handler of one on its strand, moves the logic system, calls a callback, or is
one of the worker inside `Send`. Only the worker enters `Send`, and only when it has left it.
-/

namespace BoostLearn.Soundness.AsyncServer

open CInt Memory Replay Model Model.Json Model.HandleRead Model.AsyncServer

variable {σ : Type} [DecidableEq σ] {json : JsonCpp} {program target : Program σ}

/-- The actions that are steps of the logic system and of nothing else. -/
def movesLogic : Program.Action σ → Option (LogicSystem.Action σ)
  | .push => some .push
  | .notify => some .notify
  | .unlock => some .unlock
  | .wake => some .wake
  | _ => none

omit [DecidableEq σ] in
theorem offDuty_of_movesLogic {action : Program.Action σ} {act : LogicSystem.Action σ}
    (moves : movesLogic action = some act) : LogicSystem.OffDuty act ∧ LogicSystem.brings act = [] := by
  cases action with
  | push | notify | unlock | wake =>
    cases moves
    exact ⟨trivial, rfl⟩
  | _ => contradiction

/-- What accepting does to the sessions: at most one of them is new. -/
def Accepts (server next : Server σ Unit) : Prop :=
  ∀ uuid, next.started uuid = server.started uuid ∨
    server.started uuid = none ∧ ∃ sendPending started, Server.newStarted sendPending = some started ∧
      next.started uuid = some started

/-- The program behind a change of what a session is sending. -/
def sends (program : Program σ) (uuid : σ) (started : Started Unit)
    (sending : SendPipeline Unit (List UInt8 × ℤ) SendNode) (clears : Bool) : Program σ :=
  { program with server := program.server.handle uuid { started with sending } clears }

/-- The transitions of the program. -/
inductive Passes (json : JsonCpp) (program : Program σ) : Program.Action σ → Program σ → Prop
  | accepts {action : Program.Action σ} {server : Server σ Unit} (accepts : Accepts program.server server) :
      Passes json program action { program with server }
  | reads {uuid : σ} {started : Started Unit} {completion : Option Completion} {more : ℕ}
      (found : program.server.started uuid = some started) (reading : started.reading = true)
      (free : program.free uuid = true) :
      Passes json program (.read uuid completion more) (program.handleRead uuid started completion more)
  | written {uuid : σ} {index : ℕ} {started : Started Unit}
      {sending : SendPipeline Unit (List UInt8 × ℤ) SendNode} (free : program.free uuid = true)
      (found : program.server.started uuid = some started)
      (stepped : started.sending.step Server.newSendNode (.written index) = some sending) :
      Passes json program (.handleWrite uuid index true) (sends program uuid started sending false)
  | fails {uuid : σ} {index : ℕ} {started : Started Unit} {node : SendNode} (free : program.free uuid = true)
      (found : program.server.started uuid = some started)
      (outstanding : started.sending.inflight[index]? = some node) :
      Passes json program (.handleWrite uuid index false)
        (sends program uuid started
          { started.sending with inflight := started.sending.inflight.eraseIdx index } true)
  | lock {uuid : σ} {node : RecvNode ℤ} {rest : List (RecvNode ℤ)} {logic : LogicSystem σ}
      (posting : (program.strand uuid).posting = node :: rest)
      (moved : LogicSystem.Moved .asyncServer program.logic (.lock ⟨uuid, node⟩) logic) :
      Passes json program (.lock uuid) { program with
        logic
        strand := Function.update program.strand uuid { program.strand uuid with posting := rest }
        poster := some uuid }
  | logic {action : Program.Action σ} {act : LogicSystem.Action σ} {logic : LogicSystem σ} {poster : Option σ}
      (moves : movesLogic action = some act)
      (moved : LogicSystem.Moved .asyncServer program.logic act logic) :
      Passes json program action { program with logic, poster }
  | worker {logic : LogicSystem σ} (moved : LogicSystem.Moved .asyncServer program.logic .dealMsg logic)
      (silent : LogicSystem.callee? program.logic = none)
      (returned : ∀ drain node rest, program.logic.control = .worker (.served drain) →
        program.logic.msgQue = node :: rest → program.returned node = true) :
      Passes json program .dealMsg { program with logic }
  | escapes {node : LogicNode σ} {logic : LogicSystem σ} {escaped : Escape}
      (serves : LogicSystem.callee? program.logic = some node)
      (moved : LogicSystem.Moved .asyncServer program.logic .dealMsg logic)
      (left : callBack json node.recvNode = .error escaped) :
      Passes json program .dealMsg { program with logic, escaped := some escaped }
  | calls {node : LogicNode σ} {logic : LogicSystem σ} {started : Started Unit} {reply : Text × ℤ}
      (serves : LogicSystem.callee? program.logic = some node)
      (moved : LogicSystem.Moved .asyncServer program.logic .dealMsg logic)
      (found : program.server.started node.session = some started) (idle : started.sending.idle = true)
      (called : callBack json node.recvNode = .ok reply) :
      Passes json program .dealMsg
        (sends { program with logic } node.session started (started.sending.reset () reply) false)
  | send {uuid : σ} {started : Started Unit} {action : SendPipeline.Action Unit (List UInt8 × ℤ)}
      {sending : SendPipeline Unit (List UInt8 × ℤ) SendNode}
      (found : program.server.started uuid = some started) (next : started.sending.nextOfSend = some action)
      (stepped : started.sending.step Server.newSendNode action = some sending) :
      Passes json program (.send uuid)
        { sends program uuid started sending false with escaped := started.sending.faultOfSend.map .node }

section Inversion

omit [DecidableEq σ] in
private theorem moved_of_logicStep {action : LogicSystem.Action σ}
    (ran : program.logicStep action = some target) :
    ∃ logic, LogicSystem.Moved .asyncServer program.logic action logic ∧ target = { program with logic } := by
  obtain ⟨logic, stepped, rfl⟩ := Option.map_eq_some_iff.mp ran
  exact ⟨logic, LogicSystem.moved_of_step stepped, rfl⟩

private theorem passes_logic {action : Program.Action σ} {act : LogicSystem.Action σ}
    (moves : movesLogic action = some act) (ran : program.logicStep act = some target) :
    Passes json program action target := by
  obtain ⟨logic, moved, rfl⟩ := moved_of_logicStep ran
  exact .logic moves moved

/-- The steps of a session's pipeline, as the server takes them. -/
private theorem sending_cases {uuid : σ} {action : SendPipeline.Action Unit (List UInt8 × ℤ)}
    (ran : program.serverStep (.session uuid (.sending action)) = some target) :
    ∃ started sending, program.server.started uuid = some started ∧
      started.sending.step Server.newSendNode action = some sending ∧
      target = sends program uuid started sending false := by
  obtain ⟨server, stepped, rfl⟩ := Option.map_eq_some_iff.mp ran
  obtain ⟨started, found, ran⟩ := Option.bind_eq_some_iff.mp stepped
  obtain ⟨⟨next, clears⟩, applied, rfl⟩ := Option.map_eq_some_iff.mp ran
  obtain ⟨sending, taken, same⟩ := Option.map_eq_some_iff.mp applied
  cases same
  exact ⟨started, sending, found, taken, rfl⟩

private theorem passes_handleWrite {uuid : σ} {index : ℕ} {success : Bool}
    (ran : program.act json (.handleWrite uuid index success) = some target) :
    Passes json program (.handleWrite uuid index success) target := by
  obtain ⟨free, ran⟩ := Option.ite_none_right_eq_some.mp ran
  cases success with
  | true =>
    obtain ⟨started, sending, found, stepped, rfl⟩ := sending_cases ran
    exact .written free found stepped
  | false =>
    obtain ⟨server, stepped, rfl⟩ := Option.map_eq_some_iff.mp ran
    obtain ⟨started, found, ran⟩ := Option.bind_eq_some_iff.mp stepped
    obtain ⟨⟨next, clears⟩, applied, rfl⟩ := Option.map_eq_some_iff.mp ran
    obtain ⟨node, outstanding, same⟩ := Option.map_eq_some_iff.mp applied
    cases same
    exact .fails free found outstanding

private theorem passes_lock {uuid : σ} (ran : program.lock uuid = some target) :
    Passes json program (.lock uuid) target := by
  rw [Program.lock] at ran
  split at ran
  · contradiction
  · next node rest posting =>
    obtain ⟨next, stepped, rfl⟩ := Option.map_eq_some_iff.mp ran
    obtain ⟨logic, moved, rfl⟩ := moved_of_logicStep stepped
    exact .lock posting moved

/-- The worker can only enter `Send` when nobody is in it. -/
private theorem idle_of_reset {sending next : SendPipeline Unit (List UInt8 × ℤ) SendNode} {reply : Text × ℤ}
    (stepped : sending.step Server.newSendNode (.reset () reply) = some next) :
    sending.idle = true ∧ next = sending.reset () reply := by
  rw [SendPipeline.step] at stepped
  split_ifs at stepped with inside
  obtain ⟨nobody, released⟩ := not_or.mp inside
  refine ⟨idle_iff.mpr ⟨?_, ?_⟩, (Option.some.inj stepped).symm⟩
  · cases waiting : sending.waiting with
    | nil => rfl
    | cons sender rest =>
      rw [waiting] at nobody
      exact absurd List.mem_cons_self nobody
  · cases held : sending.sendLock with
    | none => rfl
    | some holder =>
      rw [held] at released
      exact absurd rfl released

private theorem passes_dispatch {node : LogicNode σ} (serves : LogicSystem.callee? program.logic = some node)
    (ran : program.dispatch json node = some target) : Passes json program .dealMsg target := by
  obtain ⟨next, stepped, ran⟩ := Option.bind_eq_some_iff.mp ran
  obtain ⟨logic, moved, rfl⟩ := moved_of_logicStep stepped
  dsimp only at ran
  split at ran
  · next escaped left =>
    cases ran
    exact .escapes serves moved left
  · next reply called =>
    obtain ⟨started, sending, found, taken, rfl⟩ := sending_cases ran
    obtain ⟨idle, rfl⟩ := idle_of_reset taken
    exact .calls serves moved found idle called

private theorem passes_dealMsg (ran : program.dealMsg json = some target) :
    Passes json program .dealMsg target := by
  rw [Program.dealMsg] at ran
  split at ran
  · next drain node rest place front =>
    split_ifs at ran with known
    · exact passes_dispatch (by rw [LogicSystem.callee?, place, front]; exact if_pos known) ran
    · obtain ⟨logic, moved, rfl⟩ := moved_of_logicStep ran
      refine .worker moved (by rw [LogicSystem.callee?, place, front]; exact if_neg known) ?_
      intro other first later served
      cases place.symm.trans served
  · next drain node rest place front =>
    split_ifs at ran with returned
    obtain ⟨logic, moved, rfl⟩ := moved_of_logicStep ran
    refine .worker moved (by rw [LogicSystem.callee?, place]) ?_
    intro other first later served ahead
    cases front.symm.trans ahead
    exact returned
  · next serving served =>
    obtain ⟨logic, moved, rfl⟩ := moved_of_logicStep ran
    refine .worker moved ?_ fun drain node rest place front => absurd front (served drain node rest place)
    rw [LogicSystem.callee?]
    split
    · next drain node rest place front => exact absurd front (serving drain node rest place)
    · rfl

private theorem passes_send {uuid : σ} (ran : program.send uuid = some target) :
    Passes json program (.send uuid) target := by
  obtain ⟨started, found, ran⟩ := Option.bind_eq_some_iff.mp ran
  obtain ⟨action, next, ran⟩ := Option.bind_eq_some_iff.mp ran
  obtain ⟨behind, stepped, rfl⟩ := Option.map_eq_some_iff.mp ran
  obtain ⟨again, sending, found', taken, rfl⟩ := sending_cases stepped
  cases found.symm.trans found'
  exact .send found next taken

private theorem accepts_start {uuid : σ} {sendPending : Bool} {server next : Server σ Unit}
    (stepped : server.step (.start uuid sendPending) = some next) : Accepts server next := by
  rw [Server.step] at stepped
  split at stepped
  · next absent =>
    obtain ⟨started, created, rfl⟩ := Option.map_eq_some_iff.mp stepped
    intro other
    by_cases same : other = uuid
    · exact .inr ⟨same ▸ absent, sendPending, started, created, by simp only [Server.start, Server.set, same, if_true]⟩
    · exact .inl (by simp only [Server.start, Server.set, same, if_false])
  · contradiction

/-- Every step is one of the transitions, of a program that nothing has ended. -/
theorem passes_of_step {action : Program.Action σ} (stepped : program.step json action = some target) :
    program.escaped = none ∧ Passes json program action target := by
  rw [Program.step] at stepped
  split at stepped
  · contradiction
  next running =>
  refine ⟨running, ?_⟩
  cases action with
  | start uuid sendPending =>
    obtain ⟨server, accepted, rfl⟩ := Option.map_eq_some_iff.mp stepped
    exact .accepts (accepts_start accepted)
  | insert =>
    obtain ⟨server, accepted, rfl⟩ := Option.map_eq_some_iff.mp stepped
    obtain ⟨uuid, -, rfl⟩ := Option.map_eq_some_iff.mp accepted
    exact .accepts fun other => .inl rfl
  | acceptError =>
    obtain ⟨server, accepted, rfl⟩ := Option.map_eq_some_iff.mp stepped
    rw [Server.step] at accepted
    split at accepted
    · cases accepted
      exact .accepts fun other => .inl rfl
    · contradiction
  | read uuid completion more =>
    obtain ⟨started, found, stepped⟩ := Option.bind_eq_some_iff.mp stepped
    obtain ⟨both, same⟩ := Option.ite_none_right_eq_some.mp stepped
    obtain ⟨reading, free⟩ := Bool.and_eq_true_iff.mp both
    cases same
    exact .reads found reading free
  | handleWrite uuid index success => exact passes_handleWrite stepped
  | lock uuid => exact passes_lock stepped
  | push => exact passes_logic rfl stepped
  | notify => exact passes_logic rfl stepped
  | unlock =>
    obtain ⟨next, unlocked, rfl⟩ := Option.map_eq_some_iff.mp stepped
    obtain ⟨logic, moved, rfl⟩ := moved_of_logicStep unlocked
    exact .logic rfl moved
  | dealMsg => exact passes_dealMsg stepped
  | wake => exact passes_logic rfl stepped
  | send uuid => exact passes_send stepped

end Inversion

end BoostLearn.Soundness.AsyncServer
