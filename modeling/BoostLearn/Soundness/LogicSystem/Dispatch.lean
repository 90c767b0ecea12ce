import BoostLearn.Core.Fifo
import BoostLearn.Model.LogicSystem

/-! # The dispatcher serves every posted message once, in order, and does not sleep on work

The worker can only be blocked without a notification while the queue is empty: it found it empty
under the mutex before it waited, and the first message after that makes the size one, so its
poster notifies. What has been processed and what is queued are what has been posted.
-/

namespace BoostLearn.Soundness.LogicSystem

open Replay Model Model.LogicSystem

variable {σ : Type}

/-- While the stop flag is unset, the calls are those of the processed messages and of the one in
service, the queue holds the rest of the posted messages, and a sleeping worker has no work. -/
def Dispatches (server : Server) (system : LogicSystem σ) : Prop :=
  system.bStop = false →
    system.calls = ((system.processed ++ system.inService).filter registered).map server.arguments ∧
    system.posted = system.processed ++ system.msgQue ∧
    system.inService <+: system.msgQue ∧
    (system.control.asleep = true → system.msgQue = [])

/-- What the place of the worker says about the queue and the stop flag. -/
def AtControl (system : LogicSystem σ) : Prop :=
  match system.control with
  | .worker .toWait => system.msgQue = []
  | .worker .branching => system.msgQue ≠ [] ∨ system.bStop = true
  | .worker (.serving drain) => system.msgQue ≠ [] ∧ (drain = true → system.bStop = true)
  | .worker (.served drain) => system.msgQue ≠ [] ∧ (drain = true → system.bStop = true)
  | .worker .draining => system.bStop = true
  | .free .exited => ∃ before, system.destructor.posted? = some before ∧ before <+: system.processed
  | .poster _ .exited => ∃ before, system.destructor.posted? = some before ∧ before <+: system.processed
  | _ => True

/-- The system is a queue of messages that the worker serves from the front. -/
structure Represents (server : Server) (fifo : Fifo (LogicNode σ)) (system : LogicSystem σ) :
    Prop where
  posted : system.posted = fifo.submitted
  processed : system.processed = fifo.done
  msgQue : system.msgQue = fifo.pending
  calls : system.calls =
    ((system.processed ++ system.inService).filter registered).map server.arguments
  waits : system.control.asleep = true → system.msgQue = []
  control : AtControl system
  stopped : ∀ before, system.destructor.posted? = some before → before <+: system.posted

variable {server : Server} {fifo : Fifo (LogicNode σ)} {system : LogicSystem σ}

theorem represents_created : Represents server .empty (created : LogicSystem σ) :=
  ⟨rfl, rfl, rfl, rfl, fun _ => rfl, trivial, nofun⟩

theorem inService_prefix (system : LogicSystem σ) : system.inService <+: system.msgQue := by
  rw [inService]
  split
  · exact List.take_prefix ..
  · exact List.nil_prefix

theorem Represents.dispatches (represents : Represents server fifo system) :
    Dispatches server system := by
  intro _
  refine ⟨represents.calls, ?_, inService_prefix system, represents.waits⟩
  rw [represents.posted, represents.processed, represents.msgQue, fifo.done_append_pending]

/-- The transitions of the system. -/
inductive Moved (server : Server) (system : LogicSystem σ) : Action σ → LogicSystem σ → Prop
  | lock {node : LogicNode σ} {worker : Released} (place : system.control = .free worker) :
      Moved server system (.lock node) { system with control := .poster (.locked node) worker }
  | push {node : LogicNode σ} {worker : Released}
      (place : system.control = .poster (.locked node) worker) :
      Moved server system .push (system.push node worker)
  | notify {worker : Released} (place : system.control = .poster .notifying worker) :
      Moved server system .notify { system with control := .poster .leaving worker.notify }
  | unlock {worker : Released} (place : system.control = .poster .leaving worker) :
      Moved server system .unlock { system with control := .free worker }
  | start (place : system.control = .free .starting ∨ system.control = .free .waking) :
      Moved server system .dealMsg { system with control := .worker .testing }
  | idle (place : system.control = .worker .testing) (empty : system.msgQue = [])
      (running : system.bStop = false) :
      Moved server system .dealMsg { system with control := .worker .toWait }
  | busy (place : system.control = .worker .testing)
      (work : system.msgQue ≠ [] ∨ system.bStop = true) :
      Moved server system .dealMsg { system with control := .worker .branching }
  | wait (place : system.control = .worker .toWait) :
      Moved server system .dealMsg { system with control := .free (.waiting false) }
  | stop (place : system.control = .worker .branching) (stopped : system.bStop = true) :
      Moved server system .dealMsg { system with control := .worker .draining }
  | serve (place : system.control = .worker .branching) (running : system.bStop = false) :
      Moved server system .dealMsg { system with control := .worker (.serving false) }
  | call {drain : Bool} {node : LogicNode σ} {rest : List (LogicNode σ)}
      (place : system.control = .worker (.serving drain)) (front : system.msgQue = node :: rest)
      (known : registered node = true) :
      Moved server system .dealMsg { system with
        control := .worker (.served drain)
        calls := system.calls ++ [server.arguments node] }
  | skip {drain : Bool} {node : LogicNode σ} {rest : List (LogicNode σ)}
      (place : system.control = .worker (.serving drain)) (front : system.msgQue = node :: rest)
      (unknown : registered node = false) : Moved server system .dealMsg (system.pop drain)
  | finish {drain : Bool} (place : system.control = .worker (.served drain)) :
      Moved server system .dealMsg (system.pop drain)
  | exit (place : system.control = .worker .draining) (empty : system.msgQue = []) :
      Moved server system .dealMsg { system with control := .free .exited }
  | drain (place : system.control = .worker .draining) (work : system.msgQue ≠ []) :
      Moved server system .dealMsg { system with control := .worker (.serving true) }
  | wakeFree {notified : Bool} (place : system.control = .free (.waiting notified)) :
      Moved server system .wake { system with control := .free .waking }
  | wakePoster {notified : Bool} {phase : Posting σ}
      (place : system.control = .poster phase (.waiting notified)) :
      Moved server system .wake { system with control := .poster phase .waking }
  | setStop (place : system.destructor = .notStarted) :
      Moved server system .setStop { system with destructor := .stopping system.posted }
  | endDestructor {before : List (LogicNode σ)} (place : system.destructor = .stopping before) :
      Moved server system .endDestructor { system with destructor := .ended before }

private theorem moved_dealMsg {target : LogicSystem σ}
    (taken : system.dealMsg server = some target) : Moved server system .dealMsg target := by
  rw [dealMsg] at taken
  split at taken
  · next place => exact Option.some.inj taken ▸ .start (.inl place)
  · next place => exact Option.some.inj taken ▸ .start (.inr place)
  · next place =>
    split_ifs at taken with test
    · rw [Bool.and_eq_true, List.isEmpty_iff, Bool.not_eq_true'] at test
      exact Option.some.inj taken ▸ .idle place test.1 test.2
    · refine Option.some.inj taken ▸ .busy place ?_
      simp only [Bool.and_eq_true, List.isEmpty_iff, Bool.not_eq_true', not_and,
        Bool.not_eq_false] at test
      exact Classical.or_iff_not_imp_left.mpr fun empty => test (not_not.mp empty)
  · next place => exact Option.some.inj taken ▸ .wait place
  · next place =>
    split_ifs at taken with stopped
    · exact Option.some.inj taken ▸ .stop place stopped
    · exact Option.some.inj taken ▸ .serve place (Bool.eq_false_iff.mpr stopped)
  · next drain place =>
    split at taken
    · contradiction
    · next node rest front =>
      split_ifs at taken with known
      · exact Option.some.inj taken ▸ .call place front known
      · exact Option.some.inj taken ▸ .skip place front (Bool.eq_false_iff.mpr known)
  · next drain place => exact Option.some.inj taken ▸ .finish place
  · next place =>
    split_ifs at taken with empty
    · exact Option.some.inj taken ▸ .exit place (List.isEmpty_iff.mp empty)
    · exact Option.some.inj taken ▸ .drain place (fun none => empty (List.isEmpty_iff.mpr none))
  · contradiction

/-- Every step is one of the transitions. -/
theorem moved_of_step {target : LogicSystem σ} {action : Action σ}
    (taken : step server system action = some target) : Moved server system action target := by
  have acted : system.act server action = some target := by
    rw [step] at taken
    split at taken
    · contradiction
    · exact taken
  cases action with
  | dealMsg => exact moved_dealMsg acted
  | lock node =>
    rw [act] at acted
    split at acted
    · next place => exact Option.some.inj acted ▸ .lock place
    · contradiction
  | push =>
    rw [act] at acted
    split at acted
    · next place => exact Option.some.inj acted ▸ .push place
    · contradiction
  | notify =>
    rw [act] at acted
    split at acted
    · next place => exact Option.some.inj acted ▸ .notify place
    · contradiction
  | unlock =>
    rw [act] at acted
    split at acted
    · next place => exact Option.some.inj acted ▸ .unlock place
    · contradiction
  | wake =>
    rw [act] at acted
    split at acted
    · next place => exact Option.some.inj acted ▸ .wakeFree place
    · next place => exact Option.some.inj acted ▸ .wakePoster place
    · contradiction
  | setStop =>
    rw [act] at acted
    split at acted
    · next place => exact Option.some.inj acted ▸ .setStop place
    · contradiction
  | endDestructor =>
    rw [act] at acted
    split at acted
    · next place => exact Option.some.inj acted ▸ .endDestructor place
    · contradiction

section Steps

/-- A move that changes neither the queue nor the calls. -/
theorem Represents.moves (represents : Represents server fifo system) (control : Control σ)
    (before : system.inService = [])
    (after : ({ system with control } : LogicSystem σ).inService = [])
    (waits : control.asleep = true → system.msgQue = [])
    (place : AtControl { system with control }) :
    Represents server fifo { system with control } := by
  obtain ⟨posted, processed, msgQue, calls, -, -, stopped⟩ := represents
  refine ⟨posted, processed, msgQue, ?_, waits, place, stopped⟩
  rw [after]
  rwa [before] at calls

/-- A poster adds its message, and notifies if the worker may be asleep. -/
theorem Represents.push {node : LogicNode σ} {worker : Released}
    (represents : Represents server fifo system)
    (place : system.control = .poster (.locked node) worker) :
    Represents server (fifo.submit node) (system.push node worker) := by
  obtain ⟨posted, processed, msgQue, calls, waits, control, stopped⟩ := represents
  have before : system.inService = [] := by simp only [inService, place]
  rw [before, List.append_nil] at calls
  constructor
  · simp only [LogicSystem.push, posted, Fifo.submitted_submit]
  · simp only [LogicSystem.push, processed, Fifo.done_submit]
  · simp only [LogicSystem.push, msgQue, Fifo.pending_submit]
  · simp only [LogicSystem.push, inService, List.append_nil]
    exact calls
  · intro asleep
    rw [place] at waits
    simp only [LogicSystem.push] at asleep ⊢
    by_cases one : (system.msgQue ++ [node]).length = 1
    · rw [if_pos one] at asleep
      contradiction
    · rw [if_neg one] at asleep
      rw [waits asleep] at one
      exact absurd rfl one
  · rw [AtControl, place] at control
    cases worker with
    | exited => exact control
    | _ => trivial
  · intro at_stop same
    exact (stopped at_stop same).trans (List.prefix_append _ _)

/-- The first message leaves the queue, with or without a callback. -/
theorem Represents.pop {drain : Bool} {node : LogicNode σ} {rest : List (LogicNode σ)}
    (represents : Represents server fifo system) (front : system.msgQue = node :: rest)
    (calls : system.calls =
      ((system.processed ++ [node]).filter registered).map server.arguments)
    (draining : drain = true → system.bStop = true) :
    Represents server fifo.finish (system.pop drain) := by
  have pending := represents.msgQue.symm.trans front
  constructor
  · simp only [LogicSystem.pop, represents.posted, Fifo.submitted_finish]
  · simp only [LogicSystem.pop, represents.processed, Fifo.done_finish pending, front,
      List.take_succ_cons, List.take_zero]
  · simp only [LogicSystem.pop, Fifo.pending_finish pending, front, List.tail_cons]
  · have after : (system.pop drain).inService = [] := by cases drain <;> rfl
    rw [after, List.append_nil]
    simpa only [LogicSystem.pop, front, List.take_succ_cons, List.take_zero] using calls
  · intro asleep
    cases drain <;> contradiction
  · cases drain with
    | false => trivial
    | true => exact draining rfl
  · exact represents.stopped

/-- A callback is called for the first message, which stays in the queue. -/
theorem Represents.call {drain : Bool} {node : LogicNode σ} {rest : List (LogicNode σ)}
    (represents : Represents server fifo system)
    (place : system.control = .worker (.serving drain)) (front : system.msgQue = node :: rest)
    (known : registered node = true)
    (serving : system.msgQue ≠ [] ∧ (drain = true → system.bStop = true)) :
    Represents server fifo { system with
      control := .worker (.served drain)
      calls := system.calls ++ [server.arguments node] } := by
  obtain ⟨posted, processed, msgQue, calls, -, -, stopped⟩ := represents
  refine ⟨posted, processed, msgQue, ?_, nofun, serving, stopped⟩
  simp only [inService, place, List.append_nil] at calls
  simp only [inService, front, List.take_succ_cons, List.take_zero, List.filter_append,
    List.map_append, calls]
  rw [List.filter_cons_of_pos known]
  rfl

/-- Setting the flag only makes more of what is known about the places true. -/
theorem AtControl.setStop (control : AtControl system) (place : system.destructor = .notStarted) :
    AtControl { system with destructor := .stopping system.posted } := by
  have unset : system.destructor.posted? = none := by rw [place]; rfl
  rw [AtControl] at control ⊢
  dsimp only
  split at control
  · exact control
  · exact Or.inr rfl
  · exact ⟨control.1, fun _ => rfl⟩
  · exact ⟨control.1, fun _ => rfl⟩
  · rfl
  · obtain ⟨before, same, -⟩ := control
    rw [unset] at same
    contradiction
  · obtain ⟨before, same, -⟩ := control
    rw [unset] at same
    contradiction
  · trivial

theorem AtControl.endDestructor {before : List (LogicNode σ)} (control : AtControl system)
    (place : system.destructor = .stopping before) :
    AtControl { system with destructor := .ended before } := by
  have flag : system.destructor.posted? = some before := by rw [place]; rfl
  rw [AtControl] at control ⊢
  dsimp only
  split at control
  · exact control
  · exact Or.inr rfl
  · exact ⟨control.1, fun _ => rfl⟩
  · exact ⟨control.1, fun _ => rfl⟩
  · rfl
  · rwa [flag] at control
  · rwa [flag] at control
  · trivial

/-- A step of the worker serves the queue, or moves the worker around it. -/
private theorem represents_dealMsg {target : LogicSystem σ}
    (represents : Represents server fifo system) (moved : Moved server system .dealMsg target) :
    ∃ fifo, Represents server fifo target := by
  have control := represents.control
  rw [AtControl] at control
  cases moved with
  | start place =>
    have before : system.inService = [] := by
      rcases place with place | place <;> simp only [inService, place]
    exact ⟨fifo, represents.moves _ before rfl nofun trivial⟩
  | idle place empty running =>
    exact ⟨fifo, represents.moves _ (by simp only [inService, place]) rfl nofun empty⟩
  | busy place work =>
    exact ⟨fifo, represents.moves _ (by simp only [inService, place]) rfl nofun work⟩
  | wait place =>
    rw [place] at control
    exact ⟨fifo, represents.moves _ (by simp only [inService, place]) rfl (fun _ => control) trivial⟩
  | stop place stopped =>
    exact ⟨fifo, represents.moves _ (by simp only [inService, place]) rfl nofun stopped⟩
  | serve place running =>
    rw [place] at control
    have work : system.msgQue ≠ [] := control.resolve_right (by rw [running]; exact Bool.false_ne_true)
    exact ⟨fifo, represents.moves _ (by simp only [inService, place]) rfl nofun ⟨work, nofun⟩⟩
  | call place front known =>
    rw [place] at control
    exact ⟨fifo, represents.call place front known control⟩
  | @skip drain node rest place front unknown =>
    rw [place] at control
    have calls := represents.calls
    simp only [inService, place, List.append_nil] at calls
    refine ⟨fifo.finish, represents.pop front ?_ control.2⟩
    rw [calls, List.filter_append, List.filter_cons_of_neg (by rw [unknown]; exact Bool.false_ne_true)]
    rw [List.filter_nil, List.append_nil]
  | @finish drain place =>
    rw [place] at control
    obtain ⟨node, rest, front⟩ := List.exists_cons_of_ne_nil control.1
    have calls := represents.calls
    simp only [inService, place, front, List.take_succ_cons, List.take_zero] at calls
    exact ⟨fifo.finish, represents.pop front calls control.2⟩
  | exit place empty =>
    rw [place] at control
    obtain ⟨before, same⟩ := Option.isSome_iff_exists.mp control
    refine ⟨fifo, represents.moves _ (by simp only [inService, place]) rfl nofun ⟨before, same, ?_⟩⟩
    have all : system.posted = system.processed := by
      rw [represents.posted, represents.processed, ← fifo.done_append_pending, ← represents.msgQue,
        empty, List.append_nil]
    exact all ▸ represents.stopped before same
  | drain place work =>
    rw [place] at control
    exact ⟨fifo, represents.moves _ (by simp only [inService, place]) rfl nofun ⟨work, fun _ => control⟩⟩

/-- A step of the destructor only changes what is said about the flag. -/
private theorem Represents.destructor {destructor : Destructor σ}
    (represents : Represents server fifo system) (control : AtControl { system with destructor })
    (stopped : ∀ before, destructor.posted? = some before → before <+: system.posted) :
    Represents server fifo { system with destructor } :=
  ⟨represents.posted, represents.processed, represents.msgQue, represents.calls, represents.waits,
    control, stopped⟩

/-- Every transition is one of the queue, or moves somebody around it. -/
theorem represents_moved {target : LogicSystem σ} {action : Action σ}
    (represents : ∃ fifo, Represents server fifo system) (moved : Moved server system action target) :
    ∃ fifo, Represents server fifo target := by
  obtain ⟨fifo, represents⟩ := represents
  have control := represents.control
  have waits := represents.waits
  rw [AtControl] at control
  have same := moved
  cases moved with
  | @lock node worker place =>
    rw [place] at control waits
    refine ⟨fifo, represents.moves _ (by simp only [inService, place]) rfl waits ?_⟩
    cases worker <;> exact control
  | push place => exact ⟨_, represents.push place⟩
  | @notify worker place =>
    rw [place] at control
    refine ⟨fifo, represents.moves _ (by simp only [inService, place]) rfl ?_ ?_⟩
    · intro asleep
      cases worker <;> contradiction
    · cases worker <;> exact control
  | @unlock worker place =>
    rw [place] at control waits
    refine ⟨fifo, represents.moves _ (by simp only [inService, place]) rfl waits ?_⟩
    cases worker <;> exact control
  | wakeFree place =>
    exact ⟨fifo, represents.moves _ (by simp only [inService, place]) rfl nofun trivial⟩
  | @wakePoster notified phase place =>
    refine ⟨fifo, represents.moves _ (by simp only [inService, place]) rfl ?_ trivial⟩
    intro asleep
    cases phase <;> contradiction
  | setStop place =>
    refine ⟨fifo, represents.destructor (represents.control.setStop place) ?_⟩
    intro before same
    cases same
    exact List.prefix_rfl
  | @endDestructor before place =>
    refine ⟨fifo, represents.destructor (represents.control.endDestructor place) ?_⟩
    intro other same
    cases same
    exact represents.stopped before (by rw [place]; rfl)
  | _ => exact represents_dealMsg represents same

theorem represents_step {target : LogicSystem σ} {action : Action σ}
    (represents : ∃ fifo, Represents server fifo system)
    (taken : step server system action = some target) : ∃ fifo, Represents server fifo target :=
  represents_moved represents (moved_of_step taken)

end Steps

/-- In every interleaving of posters and worker, with spurious wake-ups, each message is dispatched
once and in order, and the worker does not sleep on work. -/
theorem dispatches_always (server : Server) (tape : List (Action σ)) :
    Always (step server) (Dispatches server) created tape := by
  have initial : ∃ fifo, Represents server fifo (created : LogicSystem σ) :=
    ⟨.empty, represents_created⟩
  apply (always_of_preserved represents_step initial tape).imp
  rintro system ⟨fifo, represents⟩
  exact represents.dispatches

end BoostLearn.Soundness.LogicSystem
