import BoostLearn.Soundness.LogicSystem.Routing
import BoostLearn.Soundness.LogicSystem.Survival

/-! # A logic system that nobody stops comes to rest

The posters wait for the mutex while the worker runs a callback, and no callback waits for a poster. So the nodes
that they bring are taken through by steps of the posters and of the worker alone, after a notification that is
not lost. What is left to do is counted together with the steps that a callback takes by itself.
-/

namespace BoostLearn.Soundness.LogicSystem

open Model Model.LogicSystem

variable {σ : Type} {logic next : LogicSystem σ} {server : Server} {action : Action σ}

/-- The worker waits and has been notified. -/
def Woken (logic : LogicSystem σ) : Prop :=
  logic.control = .free (.waiting true) ∨ ∃ phase, logic.control = .poster phase (.waiting true)

/-- The steps of the worker and of the posters; no spurious wake-up. -/
def Own (logic : LogicSystem σ) : Action σ → Prop
  | .lock _ | .push | .notify | .unlock | .dealMsg => True
  | .wake => Woken logic
  | .setStop | .endDestructor => False

section Work

/-- How far a worker without the mutex is from a wait, when a callback takes some steps by itself. -/
def releasedWork (steps : ℕ) : Released → ℕ
  | .starting => 11 + steps
  | .waiting true => 12 + steps
  | .waiting false => 0
  | .waking => 11 + steps
  | .exited => 0

/-- How far the worker is from its next look at the queue; some steps of its callback are left. -/
def lockedWork (steps left : ℕ) : Locked → ℕ
  | .testing => 10 + steps
  | .toWait => 5
  | .branching => 9 + steps
  | .serving _ => 8 + steps
  | .served _ => 7 + left
  | .draining => 10 + steps

def postingWork (steps : ℕ) : Posting σ → ℕ
  | .locked _ => 21 + 2 * steps
  | .notifying => 15 + steps
  | .leaving => 1

def controlWork (steps left : ℕ) : Control σ → ℕ
  | .free worker => releasedWork steps worker
  | .poster phase worker => postingWork steps phase + releasedWork steps worker
  | .worker place => lockedWork steps left place

/-- A bound on the steps that are left. -/
def work (steps left : ℕ) (logic : LogicSystem σ) : ℕ :=
  (4 + steps) * logic.msgQue.length + controlWork steps left logic.control

/-- What a node costs that has not been brought. -/
def bringingWork (steps : ℕ) : ℕ := 22 + 2 * steps

variable {steps left left' extra : ℕ}

theorem releasedWork_notify (worker : Released) :
    releasedWork steps worker.notify ≤ releasedWork steps worker + (12 + steps) := by
  cases worker with
  | waiting notified => cases notified <;> simp only [Released.notify, releasedWork] <;> omega
  | _ => exact Nat.le_add_right _ _

/-- A poster with the mutex has taken a node over. -/
theorem work_lock {node : LogicNode σ} (moved : Moved server logic (.lock node) next) :
    work steps left' next < work steps left logic + bringingWork steps := by
  cases moved with
  | lock place =>
    simp only [work, controlWork, place, postingWork, bringingWork]
    omega

/-- A step of a poster, or a wake-up behind a notification. -/
theorem work_offDuty (moved : Moved server logic action next) (off : OffDuty action) (nothing : brings action = [])
    (own : Own logic action) : work steps left' next < work steps left logic := by
  cases moved with
  | lock _ => cases nothing
  | @push node worker place =>
    simp only [work, LogicSystem.push, controlWork, place, postingWork, List.length_append, List.length_singleton,
      Nat.mul_succ]
    split_ifs <;> simp only <;> omega
  | @notify worker place =>
    have bound := @releasedWork_notify steps worker
    simp only [work, controlWork, place, postingWork]
    omega
  | unlock place =>
    simp only [work, controlWork, place, postingWork]
    omega
  | wakeFree place =>
    rcases own with woken | ⟨phase, woken⟩ <;> cases place.symm.trans woken
    simp only [work, controlWork, place, releasedWork]
    omega
  | wakePoster place =>
    rcases own with woken | ⟨phase, woken⟩ <;> cases place.symm.trans woken
    simp only [work, controlWork, place, releasedWork]
    omega
  | setStop _ | endDestructor _ => exact off.elim
  | _ => exact off.elim

/-- A step of the worker that calls no callback, behind one that has nothing left to do. -/
theorem work_dealMsg {fifo : Fifo (LogicNode σ)} (represents : Represents server fifo logic)
    (running : logic.destructor = .notStarted) (moved : Moved server logic .dealMsg next)
    (silent : callee? logic = none) (returned : ∀ drain, logic.control = .worker (.served drain) → left = 0) :
    work steps left' next < work steps left logic := by
  have unset : logic.bStop = false := by
    rw [bStop, running]
    rfl
  have control := represents.control
  rw [AtControl] at control
  cases moved with
  | start place =>
    rcases place with place | place <;> simp only [work, controlWork, place, releasedWork, lockedWork] <;> omega
  | idle place empty _ =>
    simp only [work, controlWork, place, lockedWork]
    omega
  | busy place _ =>
    simp only [work, controlWork, place, lockedWork]
    omega
  | wait place =>
    simp only [work, controlWork, place, releasedWork, lockedWork]
    omega
  | stop place stopped => cases unset.symm.trans stopped
  | serve place _ =>
    simp only [work, controlWork, place, lockedWork]
    omega
  | call place front known =>
    rw [callee?, place, front] at silent
    dsimp only at silent
    rw [if_pos known] at silent
    cases silent
  | @skip drain node rest place front unknown =>
    cases drain <;>
      simp only [work, controlWork, place, lockedWork, LogicSystem.pop, front, List.tail_cons, List.length_cons,
        Nat.mul_succ, Bool.false_eq_true, if_false, if_true] <;> omega
  | @finish drain place =>
    rw [place] at control
    obtain ⟨node, rest, front⟩ := List.exists_cons_of_ne_nil control.1
    have done := returned drain place
    cases drain <;>
      simp only [work, controlWork, place, lockedWork, LogicSystem.pop, front, List.tail_cons, List.length_cons,
        Nat.mul_succ, Bool.false_eq_true, if_false, if_true, done] <;> omega
  | exit place _ =>
    simp only [work, controlWork, place, releasedWork, lockedWork]
    omega
  | drain place _ =>
    simp only [work, controlWork, place, lockedWork]
    omega

/-- A callback is called, and what it leaves to do elsewhere is paid with the steps that it has not left. -/
theorem work_call {node : LogicNode σ} (serves : callee? logic = some node)
    (moved : Moved server logic .dealMsg next) (bounded : left' + extra ≤ steps) :
    work steps left' next + extra < work steps left logic := by
  obtain ⟨drain, rest, place, front, called, still⟩ := called_of_callee serves moved
  simp only [work, controlWork, place, called, front, still, lockedWork]
  omega

/-- A step of the callback in service. -/
theorem work_callback {drain : Bool} (place : logic.control = .worker (.served drain)) (less : left' + extra < left) :
    work steps left' logic + extra < work steps left logic := by
  simp only [work, controlWork, place, lockedWork]
  omega

end Work

section Progress

/-- Whose turn it is. -/
inductive Turn (server : Server) (logic : LogicSystem σ) : Prop
  | poster (action : Action σ) {next : LogicSystem σ} (off : OffDuty action) (nothing : brings action = [])
      (own : Own logic action) (stepped : logic.step server action = some next)
  | worker {place : Locked} {next : LogicSystem σ} (held : logic.control = .worker place)
      (stepped : logic.step server .dealMsg = some next)
  | starts {worker : Released} {next : LogicSystem σ} (released : logic.control = .free worker)
      (stepped : logic.step server .dealMsg = some next)
  | sleeps (waits : logic.control = .free (.waiting false)) (empty : logic.msgQue = [])

/-- A logic system that nobody stops takes its steps. -/
theorem step_of_act (running : logic.destructor = .notStarted) (acted : logic.act server action = some next) :
    logic.step server action = some next := by
  rw [LogicSystem.step, running]
  exact acted

/-- It is always somebody's turn, unless there is nothing to do. -/
theorem turn_of_represents {fifo : Fifo (LogicNode σ)} (represents : Represents server fifo logic)
    (running : logic.destructor = .notStarted) : Turn server logic := by
  have control := represents.control
  rw [AtControl] at control
  cases place : logic.control with
  | poster phase worker =>
    cases phase with
    | locked node =>
      have acted : logic.act server .push = some (logic.push node worker) := by
        rw [LogicSystem.act, place]
      exact .poster .push trivial rfl trivial (step_of_act running acted)
    | notifying =>
      have acted : logic.act server .notify = some { logic with control := .poster .leaving worker.notify } := by
        rw [LogicSystem.act, place]
      exact .poster .notify trivial rfl trivial (step_of_act running acted)
    | leaving =>
      have acted : logic.act server .unlock = some { logic with control := .free worker } := by
        rw [LogicSystem.act, place]
      exact .poster .unlock trivial rfl trivial (step_of_act running acted)
  | worker at_ =>
    obtain ⟨target, dealt⟩ := Option.isSome_iff_exists.mp (represents.goesOn place)
    exact .worker place (step_of_act running dealt)
  | free worker =>
    have deals (target : LogicSystem σ) (dealt : logic.dealMsg server = some target) : Turn server logic :=
      .starts place (step_of_act running dealt)
    cases worker with
    | starting => exact deals _ (by rw [LogicSystem.dealMsg, place])
    | waking => exact deals _ (by rw [LogicSystem.dealMsg, place])
    | exited =>
      rw [place] at control
      obtain ⟨before, stopped, -⟩ := control
      rw [running] at stopped
      cases stopped
    | waiting notified =>
      cases notified with
      | true =>
        have acted : logic.act server .wake = some { logic with control := .free .waking } := by
          rw [LogicSystem.act, place]
        exact .poster .wake trivial rfl (.inl place) (step_of_act running acted)
      | false => exact .sleeps place (represents.waits (by rw [place]; rfl))

/-- A poster gets a free mutex. -/
theorem step_lock (running : logic.destructor = .notStarted) {worker : Released}
    (released : logic.control = .free worker) (node : LogicNode σ) :
    logic.step server (.lock node) = some { logic with control := .poster (.locked node) worker } := by
  refine step_of_act running ?_
  rw [LogicSystem.act, released]

end Progress

end BoostLearn.Soundness.LogicSystem
