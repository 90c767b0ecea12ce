import BoostLearn.Core.Replay

/-! # Queues with a capacity

Some actions of a system offer an element to its queue, which takes or refuses it. The queue
respects a capacity when it never holds more elements and refuses one exactly when it holds as
many. A queue that still takes an element when it is full does so only as long as none is offered
to it then.
-/

namespace BoostLearn

open Replay

structure Intake (σ α ν : Type*) where
  step : σ → α → Option σ
  queue : σ → List ν
  /-- The action offers an element to the queue. -/
  Offers : α → Prop
  /-- An element that is offered now is refused. -/
  Refuses : σ → Prop

namespace Intake

variable {σ α ν : Type*}

/-- An offer is refused exactly at the capacity, and then changes nothing in the queue. -/
def Fair (intake : Intake σ α ν) (capacity : ℕ) (state : σ) (action : α) : Prop :=
  intake.Offers action →
    (intake.Refuses state ↔ (intake.queue state).length = capacity) ∧
    (intake.Refuses state → ∀ next, intake.step state action = some next →
      intake.queue next = intake.queue state)

def Respects (intake : Intake σ α ν) (capacity : ℕ) (state : σ) (tape : List α) : Prop :=
  Always intake.step (fun reached => (intake.queue reached).length ≤ capacity) state tape ∧
    Guarded intake.step (intake.Fair capacity) state tape

/-- Nothing is offered to the queue while it is full. -/
def Spared (intake : Intake σ α ν) (capacity : ℕ) (state : σ) (action : α) : Prop :=
  intake.Offers action → (intake.queue state).length ≠ capacity

def Sparing (intake : Intake σ α ν) (capacity : ℕ) (state : σ) (tape : List α) : Prop :=
  Guarded intake.step (intake.Spared capacity) state tape

/-- A queue that changes by one element at a time, and is not full at its capacity. -/
structure Overfull (intake : Intake σ α ν) (capacity : ℕ) : Prop where
  offered : ∀ {state next action}, intake.Offers action → intake.step state action = some next →
    (intake.queue next).length ≤ (intake.queue state).length + 1
  still : ∀ {state next action}, ¬ intake.Offers action → intake.step state action = some next →
    (intake.queue next).length ≤ (intake.queue state).length
  takes : ∀ {state}, (intake.queue state).length ≤ capacity → ¬ intake.Refuses state

variable {intake : Intake σ α ν} {capacity : ℕ} {state next : σ} {action : α} {tape : List α}

theorem Overfull.step (overfull : intake.Overfull capacity)
    (room : (intake.queue state).length ≤ capacity) (spared : intake.Spared capacity state action)
    (taken : intake.step state action = some next) : (intake.queue next).length ≤ capacity := by
  by_cases offers : intake.Offers action
  · have := overfull.offered offers taken
    have := spared offers
    omega
  · have := overfull.still offers taken
    omega

theorem Overfull.fair_iff_spared (overfull : intake.Overfull capacity)
    (room : (intake.queue state).length ≤ capacity) :
    intake.Fair capacity state action ↔ intake.Spared capacity state action := by
  have takes := overfull.takes room
  constructor
  · intro fair offers full
    exact takes ((fair offers).1.mpr full)
  · intro spared offers
    exact ⟨iff_of_false takes (spared offers), fun refuses => absurd refuses takes⟩

/-- The capacity is respected exactly in the runs that offer nothing to the full queue. -/
theorem Overfull.respects_iff (overfull : intake.Overfull capacity)
    (room : (intake.queue state).length ≤ capacity) (tape : List α) :
    intake.Respects capacity state tape ↔ intake.Sparing capacity state tape := by
  constructor
  · rintro ⟨always, fair⟩
    induction tape generalizing state with
    | nil => trivial
    | cons action rest ih =>
      intro next taken
      obtain ⟨fairly, later⟩ := fair next taken
      have after := always.2 next taken
      exact ⟨(overfull.fair_iff_spared room).mp fairly, ih after.head after later⟩
  · intro spared
    refine ⟨always_of_guarded overfull.step room spared, ?_⟩
    induction tape generalizing state with
    | nil => trivial
    | cons action rest ih =>
      intro next taken
      obtain ⟨allowed, later⟩ := spared next taken
      exact ⟨(overfull.fair_iff_spared room).mpr allowed, ih (overfull.step room allowed taken) later⟩

/-- An action that is always taken while the queue is not above its capacity fills the queue up. -/
theorem not_sparing_of_offers (Ready : σ → Prop) (offers : intake.Offers action)
    (takes : ∀ {state}, Ready state → (intake.queue state).length ≤ capacity →
      ∃ next, intake.step state action = some next ∧ Ready next ∧
        (intake.queue next).length = (intake.queue state).length + 1)
    {count : ℕ} (ready : Ready state) (room : (intake.queue state).length + count = capacity) :
    ¬ intake.Sparing capacity state (List.replicate (count + 1) action) := by
  intro guarded
  induction count generalizing state with
  | zero =>
    obtain ⟨next, taken, -⟩ := takes ready (by omega)
    exact (guarded next taken).1 offers room
  | succ count ih =>
    obtain ⟨next, taken, ready, longer⟩ := takes ready (by omega)
    exact ih ready (by omega) (guarded next taken).2

end Intake

end BoostLearn
