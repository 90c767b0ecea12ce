import BoostLearn.Core.Settling
import BoostLearn.Soundness.LogicSystem.Routing

/-! # What a shutdown needs beyond the stop flag

The destructor sets the flag, notifies nobody and waits for nobody. So the flag must not find the worker
asleep, or between its test and `wait`; and what runs between the flag and the end of the destructor has to
give the worker the steps that it still needs from where the flag finds it. These can be counted: a few for
the way to the exit, three for a node with a callback and two for another one.
-/

namespace BoostLearn.Soundness.LogicSystem

open Replay Model Model.LogicSystem

variable {σ : Type}

/-- With the flag set nobody sleeps without a notification, and when the destructor has ended, the
worker has left and everything posted before the flag was set has been processed. -/
structure ShutsDown (server : Server) (system : LogicSystem σ) : Prop where
  awake : system.bStop = true → system.control.asleep = false
  ended : ∀ before, system.destructor = .ended before →
    system.control.exited = true ∧ before <+: system.processed ∧
      system.calls = (system.processed.filter registered).map server.arguments

section Schedule

/-- The steps of the drain for one node: to its front, through the callback if there is one, and the pop. -/
def nodeSteps (node : LogicNode σ) : ℕ := if registered node then 3 else 2

/-- The steps of a worker without the mutex, when the nodes before it take so many. -/
def releasedSteps (queued : ℕ) : Released → ℕ
  | .starting | .waking => 4 + queued
  | .waiting _ => 5 + queued
  | .exited => 0

/-- The steps of the worker until it has left `DealMsg`, with the flag set. -/
def stepsLeft (system : LogicSystem σ) : ℕ :=
  let queued := total nodeSteps (system.msgQue ++ locked system.control)
  match system.control with
  | .free worker | .poster _ worker => releasedSteps queued worker
  | .worker .toWait => 6 + queued
  | .worker .testing => 3 + queued
  | .worker .branching => 2 + queued
  | .worker .draining => 1 + queued
  | .worker (.serving drain) => (if drain then 0 else 2) + queued
  | .worker (.served drain) => (if drain then 2 else 4) + total nodeSteps system.msgQue.tail

/-- The steps that are left behind an action. A node that comes before the worker has left adds its own. -/
def needed (left : ℕ) : Action σ → ℕ
  | .dealMsg | .wake => left - 1
  | .lock node => if left = 0 then 0 else left + nodeSteps node
  | _ => left

/-- A schedule that gives the worker so many steps before the destructor ends. -/
def InTime : ℕ → List (Action σ) → Prop
  | _, [] => True
  | left, action :: later => (action = .endDestructor → left = 0) ∧ InTime (needed left action) later

/-- Wherever a run sets the flag, it does not find the worker asleep, nor between its test and `wait` unless
nothing runs any more, and the schedule behind it gives the worker its steps. -/
def Scheduled (server : Server) (tape : List (Action σ)) : Prop :=
  ∀ before after system final, before ++ .setStop :: after <+: tape →
    replay? (step server) created before = some system →
    replay? (step server) created (before ++ .setStop :: after) = some final →
      system.control.asleep = false ∧ (system.control = .worker .toWait → after = []) ∧
        InTime (stepsLeft system) after

end Schedule

section Steps

variable {server : Server} {system target : LogicSystem σ} {action : Action σ} {left : ℕ}

private theorem nodeSteps_pos (node : LogicNode σ) : 0 < nodeSteps node := by
  rw [nodeSteps]
  split_ifs <;> decide

/-- The worker has left when it needs no more steps. -/
theorem stepsLeft_eq_zero_iff {fifo : Fifo (LogicNode σ)} (represents : Represents server fifo system) :
    stepsLeft system = 0 ↔ system.control.exited = true := by
  have control := represents.control
  rw [AtControl] at control
  rw [stepsLeft]
  cases place : system.control with
  | free worker => cases worker <;> simp [releasedSteps, Control.exited]
  | poster phase worker => cases worker <;> simp [releasedSteps, Control.exited]
  | worker at_ =>
    cases at_ with
    | serving drain =>
      rw [place] at control
      obtain ⟨node, rest, front⟩ := List.exists_cons_of_ne_nil control.1
      have := nodeSteps_pos node
      simp only [front, locked, List.append_nil, total, Control.exited, Bool.false_eq_true, iff_false]
      omega
    | served drain => cases drain <;> simp [Control.exited]
    | _ => simp [Control.exited]

/-- With the flag set, a worker that is not about to wait comes nearer to the exit by each of its steps. -/
theorem stepsLeft_of_moved (stopped : system.bStop = true) (elsewhere : system.control ≠ .worker .toWait)
    (moved : Moved server system action target) : stepsLeft target = needed (stepsLeft system) action := by
  cases moved with
  | @lock node worker place =>
    cases worker with
    | exited => simp only [stepsLeft, place, releasedSteps, needed, if_true]
    | _ =>
      simp only [stepsLeft, place, releasedSteps, needed, locked, total_append, total]
      rw [if_neg (by omega)]
      omega
  | @push node worker place =>
    have pushed : locked (system.push node worker).control = [] := by
      simp only [LogicSystem.push]
      split_ifs <;> rfl
    simp only [stepsLeft, pushed, place, needed]
    simp only [LogicSystem.push, locked, List.append_nil]
  | @notify worker place =>
    cases worker <;> simp only [stepsLeft, place, needed, locked, Released.notify, releasedSteps]
  | unlock place => simp only [stepsLeft, place, needed, locked]
  | start place =>
    rcases place with place | place
    · simp only [stepsLeft, place, needed, locked, releasedSteps]
      omega
    · simp only [stepsLeft, place, needed, locked, releasedSteps]
      omega
  | idle place empty running => exact absurd (running.symm.trans stopped) Bool.false_ne_true
  | busy place work =>
    simp only [stepsLeft, place, needed, locked]
    omega
  | wait place => exact absurd place elsewhere
  | stop place _ =>
    simp only [stepsLeft, place, needed, locked]
    omega
  | serve place running => exact absurd (running.symm.trans stopped) Bool.false_ne_true
  | @call drain node rest place front known =>
    simp only [stepsLeft, place, needed, locked, front, List.append_nil, List.tail_cons, total, nodeSteps, known,
      if_true]
    cases drain
    · simp
      omega
    · simp
  | @skip drain node rest place front unknown =>
    simp only [stepsLeft, place, needed, locked, front, LogicSystem.pop, List.append_nil, List.tail_cons, total,
      nodeSteps, unknown]
    cases drain
    · simp
      omega
    · simp
  | @finish drain place =>
    simp only [stepsLeft, place, needed, locked, LogicSystem.pop, List.append_nil]
    cases drain <;> simp
  | exit place empty =>
    simp only [stepsLeft, place, needed, locked, releasedSteps, empty, List.append_nil, total]
  | drain place work =>
    simp only [stepsLeft, place, needed, locked, List.append_nil, if_true]
    omega
  | wakeFree place =>
    simp only [stepsLeft, place, needed, locked, releasedSteps]
    omega
  | @wakePoster notified phase place =>
    cases phase <;> simp only [stepsLeft, place, needed, locked, releasedSteps] <;> omega
  | setStop place => rfl
  | endDestructor place => rfl

/-- What holds from the flag on, while the worker needs so many steps. -/
structure Stopping (server : Server) (left : ℕ) (system : LogicSystem σ) : Prop where
  represents : ∃ fifo, Represents server fifo system
  stopped : system.bStop = true
  awake : system.control.asleep = false
  elsewhere : system.control ≠ .worker .toWait
  left : stepsLeft system = left
  exited : ∀ before, system.destructor = .ended before → system.control.exited = true

private theorem exited_cases {control : Control σ} (left : control.exited = true) :
    control = .free .exited ∨ ∃ phase, control = .poster phase .exited := by
  rw [Control.exited.eq_def] at left
  split at left
  · exact Or.inl rfl
  · next phase => exact Or.inr ⟨phase, rfl⟩
  · contradiction

/-- A worker that has left has processed what was posted before the flag was set, and has called
every callback. -/
private theorem drained {fifo : Fifo (LogicNode σ)} (represents : Represents server fifo system)
    (left : system.control.exited = true) :
    (∃ before, system.destructor.posted? = some before ∧ before <+: system.processed) ∧
      system.calls = (system.processed.filter registered).map server.arguments := by
  have control := represents.control
  have calls := represents.calls
  rw [AtControl] at control
  rcases exited_cases left with place | ⟨phase, place⟩
  · rw [place] at control
    simp only [inService, place, List.append_nil] at calls
    exact ⟨control, calls⟩
  · rw [place] at control
    simp only [inService, place, List.append_nil] at calls
    exact ⟨control, calls⟩

theorem Stopping.shutsDown (stopping : Stopping server left system) : ShutsDown server system := by
  obtain ⟨⟨fifo, represents⟩, -, awake, -, -, exited⟩ := stopping
  refine ⟨fun _ => awake, fun before place => ?_⟩
  have gone := exited before place
  obtain ⟨⟨other, same, processed⟩, calls⟩ := drained represents gone
  rw [place] at same
  cases same
  exact ⟨gone, processed, calls⟩

private theorem not_ended (taken : step server system action = some target)
    (before : List (LogicNode σ)) : system.destructor ≠ .ended before := by
  intro place
  rw [step, place] at taken
  contradiction

/-- Nobody falls asleep after the flag is set, except on a test made before. -/
private theorem awake_of_moved (elsewhere : system.control ≠ .worker .toWait)
    (awake : system.control.asleep = false) (moved : Moved server system action target) :
    target.control.asleep = false := by
  cases moved with
  | lock place =>
    rw [place] at awake
    exact awake
  | @push node worker place =>
    rw [place] at awake
    simp only [push]
    split_ifs with one
    · rfl
    · exact awake
  | @notify worker place => cases worker <;> rfl
  | unlock place =>
    rw [place] at awake
    exact awake
  | wait place => exact absurd place elsewhere
  | @wakePoster notified phase place => cases phase <;> rfl
  | setStop place => exact awake
  | endDestructor place => exact awake
  | @skip drain node rest place front unknown => rfl
  | @finish drain place => rfl
  | _ => rfl

/-- With the flag set the worker does not go to `wait`. -/
private theorem not_toWait_of_moved (stopped : system.bStop = true)
    (elsewhere : system.control ≠ .worker .toWait) (moved : Moved server system action target) :
    target.control ≠ .worker .toWait := by
  cases moved with
  | idle place empty running => exact absurd (running.symm.trans stopped) Bool.false_ne_true
  | setStop place => exact elsewhere
  | endDestructor place => exact elsewhere
  | @skip drain node rest place front unknown => cases drain <;> nofun
  | @finish drain place => cases drain <;> nofun
  | _ => nofun

private theorem stopped_of_moved (stopped : system.bStop = true) (moved : Moved server system action target) :
    target.bStop = true := by
  cases moved with
  | setStop place => rfl
  | endDestructor place => rfl
  | _ => exact stopped

/-- A step from the flag on, in a schedule that does not end the destructor before the worker. -/
theorem Stopping.step (stopping : Stopping server left system) (ends : action = .endDestructor → left = 0)
    (taken : LogicSystem.step server system action = some target) :
    Stopping server (needed left action) target := by
  obtain ⟨⟨fifo, represents⟩, stopped, awake, elsewhere, rfl, -⟩ := stopping
  have moved := moved_of_step taken
  refine ⟨represents_step ⟨fifo, represents⟩ taken, stopped_of_moved stopped moved,
    awake_of_moved elsewhere awake moved, not_toWait_of_moved stopped elsewhere moved,
    stepsLeft_of_moved stopped elsewhere moved, ?_⟩
  intro before place
  cases moved with
  | endDestructor _ => exact (stepsLeft_eq_zero_iff represents).mp (ends rfl)
  | setStop _ => cases place
  | _ => exact absurd place (not_ended taken before)

/-- A destructor that ends behind the worker ends when it needs no more steps. -/
theorem Stopping.ends (stopping : Stopping server left system)
    (taken : LogicSystem.step server system action = some target) (shutsDown : ShutsDown server target) :
    action = .endDestructor → left = 0 := by
  rintro rfl
  obtain ⟨⟨fifo, represents⟩, -, -, -, rfl, -⟩ := stopping
  cases moved_of_step taken with
  | endDestructor place => exact (stepsLeft_eq_zero_iff represents).mpr (shutsDown.ended _ rfl).1

/-- From the flag on, a run goes well exactly when the worker has its steps in time. -/
theorem Stopping.always_iff {after : List (Action σ)} {final : LogicSystem σ}
    (stopping : Stopping server left system) (run : replay? (LogicSystem.step server) system after = some final) :
    Always (LogicSystem.step server) (ShutsDown server) system after ↔ InTime left after := by
  induction after generalizing left system with
  | nil => exact ⟨fun _ => trivial, fun _ => stopping.shutsDown⟩
  | cons action later ih =>
    obtain ⟨next, taken, onward⟩ := Option.bind_eq_some_iff.mp run
    constructor
    · rintro ⟨-, always⟩
      have always := always next taken
      have ends := stopping.ends taken always.head
      exact ⟨ends, (ih (stopping.step ends taken) onward).mp always⟩
    · rintro ⟨ends, inTime⟩
      refine ⟨stopping.shutsDown, fun other same => ?_⟩
      cases taken.symm.trans same
      exact (ih (stopping.step ends taken) onward).mpr inTime

/-- With the flag set, a worker between its test and `wait` goes to sleep or is left behind. -/
private theorem stuck_of_toWait (place : system.control = .worker .toWait) (stopped : system.bStop = true)
    (taken : step server system action = some target) (shutsDown : ShutsDown server target) : False := by
  cases moved_of_step taken with
  | wait _ => exact absurd (shutsDown.awake stopped) nofun
  | setStop unset =>
    rw [bStop, unset] at stopped
    contradiction
  | endDestructor _ =>
    have gone := (shutsDown.ended _ rfl).1
    rw [place] at gone
    contradiction
  | start other => rcases other with other | other <;> cases place.symm.trans other
  | lock other | push other | notify other | unlock other | idle other | busy other | stop other | serve other
    | call other | skip other | finish other | exit other | drain other | wakeFree other | wakePoster other =>
    cases place.symm.trans other

/-- Before the flag is set nothing is asked for. -/
theorem shutsDown_of_notStarted (place : system.destructor = .notStarted) : ShutsDown server system := by
  constructor
  · intro stopped
    rw [bStop, place] at stopped
    contradiction
  · intro before ended
    cases place.symm.trans ended

/-- What a run needs from the step that sets the flag. -/
theorem always_setStop_iff {after : List (Action σ)} {final : LogicSystem σ}
    (represents : ∃ fifo, Represents server fifo system)
    (run : replay? (step server) system (.setStop :: after) = some final) :
    Always (step server) (ShutsDown server) system (.setStop :: after) ↔
      system.control.asleep = false ∧ (system.control = .worker .toWait → after = []) ∧
        InTime (stepsLeft system) after := by
  obtain ⟨next, taken, onward⟩ := Option.bind_eq_some_iff.mp run
  have later : Always (step server) (ShutsDown server) system (.setStop :: after) ↔
      Always (step server) (ShutsDown server) next after := by
    refine ⟨fun always => always.2 next taken, fun always => ⟨?_, fun other same => ?_⟩⟩
    · cases moved_of_step taken with
      | setStop place => exact shutsDown_of_notStarted place
    · cases taken.symm.trans same
      exact always
  rw [later]
  have represents := represents_step represents taken
  cases moved_of_step taken with
  | setStop place =>
    by_cases toWait : system.control = .worker .toWait
    · cases after with
      | nil =>
        have awake : system.control.asleep = false := by rw [toWait]; rfl
        exact ⟨fun _ => ⟨awake, fun _ => rfl, trivial⟩, fun _ => ⟨fun _ => awake, nofun⟩⟩
      | cons action others =>
        obtain ⟨other, acted, -⟩ := Option.bind_eq_some_iff.mp onward
        refine ⟨fun always => ?_, fun scheduled => by cases scheduled.2.1 toWait⟩
        have place : ({ system with destructor := .stopping system.posted } : LogicSystem σ).control =
            .worker .toWait := toWait
        exact (stuck_of_toWait place rfl acted (always.2 other acted).head).elim
    · have stopping (awake : system.control.asleep = false) : Stopping server (stepsLeft system)
          { system with destructor := .stopping system.posted } :=
        ⟨represents, rfl, awake, toWait, rfl, nofun⟩
      constructor
      · intro always
        have awake := always.head.awake rfl
        exact ⟨awake, fun place => absurd place toWait, ((stopping awake).always_iff onward).mp always⟩
      · rintro ⟨awake, -, inTime⟩
        exact ((stopping awake).always_iff onward).mpr inTime

/-- Only one step sets the flag. -/
private theorem notStarted_of_moved (place : system.destructor = .notStarted) (other : action ≠ .setStop)
    (moved : Moved server system action target) : target.destructor = .notStarted := by
  cases moved with
  | setStop _ => exact absurd rfl other
  | endDestructor stopping => cases place.symm.trans stopping
  | _ => exact place

private theorem notStarted_of_run {tape : List (Action σ)} (place : system.destructor = .notStarted)
    (unset : .setStop ∉ tape) (run : replay? (step server) system tape = some target) :
    target.destructor = .notStarted := by
  induction tape generalizing system with
  | nil =>
    cases run
    exact place
  | cons action later ih =>
    obtain ⟨next, taken, onward⟩ := Option.bind_eq_some_iff.mp run
    rw [List.mem_cons, not_or] at unset
    exact ih (notStarted_of_moved place (Ne.symm unset.1) (moved_of_step taken)) unset.2 onward

end Steps

private theorem represents_of_run {server : Server} {tape : List (Action σ)} {system : LogicSystem σ}
    (run : replay? (step server) created tape = some system) : ∃ fifo, Represents server fifo system :=
  (always_of_preserved represents_step ⟨.empty, represents_created⟩ tape).replay run

/-- A shutdown goes well along a run exactly when the flag finds the worker at a place from which it can
leave, and the schedule gives it the steps for that before the destructor ends. -/
theorem shutsDown_iff_scheduled (server : Server) (tape : List (Action σ)) :
    Always (step server) (ShutsDown server) created tape ↔ Scheduled server tape := by
  constructor
  · rintro always before after system final ⟨more, rfl⟩ stops run
    have onward := always.front.later stops
    rw [replay?_append, stops] at run
    exact (always_setStop_iff (represents_of_run stops) run).mp onward
  · intro scheduled
    refine always_iff_fronts.mpr fun front final shorter run => ?_
    by_cases unset : .setStop ∉ front
    · exact shutsDown_of_notStarted (notStarted_of_run rfl unset run)
    · obtain ⟨before, after, rfl⟩ := List.append_of_mem (not_not.mp unset)
      have whole := run
      rw [replay?_append] at run
      obtain ⟨system, stops, onward⟩ := Option.bind_eq_some_iff.mp run
      have inTime := scheduled before after system final shorter stops whole
      exact ((always_setStop_iff (represents_of_run stops) onward).mpr inTime).replay onward

/-- The worker finds the queue empty and waits, and then the destructor sets the flag. -/
def sleepingWorker : List (Action ℕ) := [.dealMsg, .dealMsg, .dealMsg, .setStop]

/-- A message is posted before the worker runs at all, and the destructor waits for neither. -/
def lostMessage : List (Action ℕ) :=
  [.lock ⟨7, ⟨⟨0, 0, [some 0]⟩, 1001⟩⟩, .push, .notify, .unlock, .setStop, .endDestructor]

private theorem not_shutsDown_asleep (server : Server) :
    ¬ Always (step server) (ShutsDown server) created sleepingWorker := by
  intro always
  have final : replay? (step server) created sleepingWorker =
    some ⟨.free (.waiting false), [], .stopping [], [], [], []⟩ := by cases server <;> rfl
  exact absurd ((always.replay final).awake rfl) nofun

private theorem not_shutsDown_lost (server : Server) :
    ¬ Always (step server) (ShutsDown server) created lostMessage := by
  intro always
  let node : LogicNode ℕ := ⟨7, ⟨⟨0, 0, [some 0]⟩, 1001⟩⟩
  have final : replay? (step server) created lostMessage =
    some ⟨.free .starting, [node], .ended [node], [node], [], []⟩ := by cases server <;> rfl
  exact absurd ((always.replay final).ended _ rfl).1 nofun

theorem not_shutsDown :
    ¬ Always (step .asyncServer) (ShutsDown .asyncServer) created sleepingWorker ∧
      ¬ Always (step .coroutineService) (ShutsDown .coroutineService) created sleepingWorker ∧
      ¬ Always (step .asyncServer) (ShutsDown .asyncServer) created lostMessage ∧
      ¬ Always (step .coroutineService) (ShutsDown .coroutineService) created lostMessage :=
  ⟨not_shutsDown_asleep _, not_shutsDown_asleep _, not_shutsDown_lost _, not_shutsDown_lost _⟩

end BoostLearn.Soundness.LogicSystem
