import Mathlib.Tactic.Common

/-! # Replaying action tapes

A step function says which actions a state enables and where they lead, so a tape of actions is
one interleaving and its replay visits the reachable states. A property holds always when no tape
reaches a state without it; a guard restricts the steps a tape may take. An invariant that every
guarded step preserves holds along every guarded tape, and when an unguarded step always breaks
the property, the guard is exactly what the property needs.
-/

namespace BoostLearn.Replay

variable {σ α : Type*}

/-- The state after a tape, unless one of its actions is not enabled. -/
def replay? (step : σ → α → Option σ) : σ → List α → Option σ
  | state, [] => some state
  | state, action :: rest => (step state action).bind fun next => replay? step next rest

/-- Every state that the tape visits is good. -/
def Always (step : σ → α → Option σ) (good : σ → Prop) : σ → List α → Prop
  | state, [] => good state
  | state, action :: rest =>
    good state ∧ ∀ next, step state action = some next → Always step good next rest

/-- Every step that the tape takes meets the guard. -/
def Guarded (step : σ → α → Option σ) (guard : σ → α → Prop) : σ → List α → Prop
  | _, [] => True
  | state, action :: rest => ∀ next, step state action = some next →
      guard state action ∧ Guarded step guard next rest

/-- Whether the steps of a tape meet a guard can be computed along its replay. -/
instance decidableGuarded (step : σ → α → Option σ) (guard : σ → α → Prop)
    [∀ state action, Decidable (guard state action)] :
    ∀ state tape, Decidable (Guarded step guard state tape)
  | _, [] => .isTrue trivial
  | state, action :: rest =>
    match taken : step state action with
    | none => .isTrue fun next same => by cases taken.symm.trans same
    | some next =>
      have := decidableGuarded step guard next rest
      if allowed : guard state action ∧ Guarded step guard next rest then
        .isTrue fun other same => by cases taken.symm.trans same; exact allowed
      else .isFalse fun guarded => allowed (guarded next taken)

variable {step : σ → α → Option σ} {good : σ → Prop} {guard : σ → α → Prop} {invariant : σ → Prop}

theorem Always.head {state : σ} {tape : List α} (always : Always step good state tape) :
    good state := by
  cases tape with
  | nil => exact always
  | cons action rest => exact always.1

theorem replay?_append (state : σ) (first second : List α) :
    replay? step state (first ++ second) =
      (replay? step state first).bind fun middle => replay? step middle second := by
  induction first generalizing state with
  | nil => rfl
  | cons action rest ih => simp only [List.cons_append, replay?, ih, Option.bind_assoc]

/-- What holds always holds after every tape that can be replayed. -/
theorem Always.replay {state final : σ} {tape : List α} (always : Always step good state tape)
    (run : replay? step state tape = some final) : good final := by
  induction tape generalizing state with
  | nil =>
    cases run
    exact always
  | cons action rest ih =>
    obtain ⟨next, taken, later⟩ := Option.bind_eq_some_iff.mp run
    exact ih (always.2 next taken) later

/-- What always holds along a tape always holds along its rest. -/
theorem Always.later {state middle : σ} {first second : List α}
    (always : Always step good state (first ++ second)) (run : replay? step state first = some middle) :
    Always step good middle second := by
  induction first generalizing state with
  | nil =>
    cases run
    exact always
  | cons action rest ih =>
    obtain ⟨next, taken, later⟩ := Option.bind_eq_some_iff.mp run
    exact ih (always.2 next taken) later

/-- What always holds along a tape always holds along its front. -/
theorem Always.front {state : σ} {first second : List α} (always : Always step good state (first ++ second)) :
    Always step good state first := by
  induction first generalizing state with
  | nil => exact always.head
  | cons action rest ih => exact ⟨always.1, fun next taken => ih (always.2 next taken)⟩

/-- A property holds always exactly when it holds behind every front that can be replayed. -/
theorem always_iff_fronts {state : σ} {tape : List α} : Always step good state tape ↔
    ∀ front final, front <+: tape → replay? step state front = some final → good final := by
  constructor
  · rintro always front final ⟨rest, rfl⟩ run
    exact always.front.replay run
  · intro fronts
    induction tape generalizing state with
    | nil => exact fronts [] state List.nil_prefix rfl
    | cons action rest ih =>
      refine ⟨fronts [] state List.nil_prefix rfl, fun next taken => ih fun front final shorter run => ?_⟩
      refine fronts (action :: front) final (List.cons_prefix_cons.mpr ⟨rfl, shorter⟩) ?_
      rw [replay?, taken]
      exact run

/-- A tape of actions that a guard allows everywhere meets it. -/
theorem guarded_of_forall {state : σ} {tape : List α}
    (allowed : ∀ action ∈ tape, ∀ source, guard source action) : Guarded step guard state tape := by
  induction tape generalizing state with
  | nil => trivial
  | cons action rest ih =>
    intro next taken
    exact ⟨allowed action (.head _) state, ih fun other later => allowed other (.tail _ later)⟩

theorem Always.imp {better : σ → Prop} (weaken : ∀ state, good state → better state) {state : σ}
    {tape : List α} (always : Always step good state tape) : Always step better state tape := by
  induction tape generalizing state with
  | nil => exact weaken state always
  | cons action rest ih =>
    exact ⟨weaken state always.1, fun next taken => ih (always.2 next taken)⟩

/-- An invariant of the guarded steps holds along every guarded tape. -/
theorem always_of_guarded
    (preserved : ∀ {source target : σ} {action : α}, invariant source → guard source action →
      step source action = some target → invariant target)
    {state : σ} {tape : List α} (initial : invariant state)
    (guarded : Guarded step guard state tape) : Always step invariant state tape := by
  induction tape generalizing state with
  | nil => exact initial
  | cons action rest ih =>
    refine ⟨initial, fun next taken => ?_⟩
    obtain ⟨allowed, later⟩ := guarded next taken
    exact ih (preserved initial allowed taken) later

/-- An invariant of all steps holds along every tape. -/
theorem always_of_preserved
    (preserved : ∀ {source target : σ} {action : α}, invariant source →
      step source action = some target → invariant target)
    {state : σ} (initial : invariant state) (tape : List α) : Always step invariant state tape := by
  induction tape generalizing state with
  | nil => exact initial
  | cons action rest ih => exact ⟨initial, fun next taken => ih (preserved initial taken)⟩

/-- When an unguarded step breaks the property at once, a tape keeps it only by guarded steps. -/
theorem guarded_of_always
    (preserved : ∀ {source target : σ} {action : α}, invariant source → guard source action →
      step source action = some target → invariant target)
    (needed : ∀ {source target : σ} {action : α}, invariant source →
      step source action = some target → good target → guard source action)
    {state : σ} {tape : List α} (initial : invariant state)
    (always : Always step good state tape) : Guarded step guard state tape := by
  induction tape generalizing state with
  | nil => trivial
  | cons action rest ih =>
    intro next taken
    have later := always.2 next taken
    have allowed := needed initial taken later.head
    exact ⟨allowed, ih (preserved initial allowed taken) later⟩

theorem always_iff_guarded (sound : ∀ state, invariant state → good state)
    (preserved : ∀ {source target : σ} {action : α}, invariant source → guard source action →
      step source action = some target → invariant target)
    (needed : ∀ {source target : σ} {action : α}, invariant source →
      step source action = some target → good target → guard source action)
    {state : σ} (initial : invariant state) (tape : List α) :
    Always step good state tape ↔ Guarded step guard state tape :=
  ⟨guarded_of_always preserved needed initial,
    fun guarded => (always_of_guarded preserved initial guarded).imp sound⟩

end BoostLearn.Replay
