import BoostLearn.Core.Replay

/-! # Runs that settle

Some steps of a system are its own, the others come from its surroundings. When each of its own steps
makes a measure smaller, a run of them is no longer than the measure. When a state that is not at rest
always has one, a run of its own steps that cannot go on has come to rest. Where a system has parts, the
sum of their measures is one.
-/

namespace BoostLearn.Replay

variable {σ α : Type*} {step : σ → α → Option σ} {own : σ → α → Prop} {invariant rest : σ → Prop}
  {measure : σ → ℕ}

/-- An invariant of its own steps holds behind a run of them. -/
theorem invariant_of_own
    (preserved : ∀ {source target : σ} {action : α}, invariant source → own source action →
      step source action = some target → invariant target)
    {state final : σ} {tape : List α} (initial : invariant state) (owned : Guarded step own state tape)
    (run : replay? step state tape = some final) : invariant final :=
  (always_of_guarded preserved initial owned).replay run

/-- A run of its own steps is no longer than the measure. -/
theorem length_le_measure
    (preserved : ∀ {source target : σ} {action : α}, invariant source → own source action →
      step source action = some target → invariant target)
    (decreases : ∀ {source target : σ} {action : α}, invariant source → own source action →
      step source action = some target → measure target < measure source)
    {state final : σ} {tape : List α} (initial : invariant state) (owned : Guarded step own state tape)
    (run : replay? step state tape = some final) : tape.length + measure final ≤ measure state := by
  induction tape generalizing state with
  | nil =>
    cases run
    exact Nat.le_of_eq (Nat.zero_add _)
  | cons action later ih =>
    obtain ⟨next, taken, onward⟩ := Option.bind_eq_some_iff.mp run
    obtain ⟨allowed, owned⟩ := owned next taken
    have less := decreases initial allowed taken
    have bound := ih (preserved initial allowed taken) owned onward
    rw [List.length_cons]
    omega

/-- A run of its own steps that cannot go on has come to rest. -/
theorem rest_of_stuck
    (preserved : ∀ {source target : σ} {action : α}, invariant source → own source action →
      step source action = some target → invariant target)
    (progress : ∀ {source : σ}, invariant source → ¬ rest source →
      ∃ action target, own source action ∧ step source action = some target)
    {state final : σ} {tape : List α} (initial : invariant state) (owned : Guarded step own state tape)
    (run : replay? step state tape = some final)
    (stuck : ∀ action target, own final action → step final action ≠ some target) : rest final := by
  by_contra restless
  obtain ⟨action, target, allowed, taken⟩ :=
    progress (invariant_of_own preserved initial owned run) restless
  exact stuck action target allowed taken

/-- The measure of a whole that has parts. -/
def total (measure : σ → ℕ) : List σ → ℕ
  | [] => 0
  | part :: parts => measure part + total measure parts

theorem total_append (parts more : List σ) :
    total measure (parts ++ more) = total measure parts + total measure more := by
  induction parts with
  | nil => exact (Nat.zero_add _).symm
  | cons part parts ih =>
    rw [List.cons_append, total, total, ih]
    exact (Nat.add_assoc ..).symm

theorem total_congr {κ : Type*} {before after : κ → ℕ} {keys : List κ}
    (same : ∀ key ∈ keys, after key = before key) : total after keys = total before keys := by
  induction keys with
  | nil => rfl
  | cons key rest ih =>
    rw [total, total, same key (.head _), ih fun other member => same other (.tail _ member)]

/-- When one part of a whole loses some of its measure, the whole does. -/
theorem total_set_lt {parts : List σ} {index : ℕ} {part changed : σ} (present : parts[index]? = some part)
    (less : measure changed < measure part) :
    total measure (parts.set index changed) < total measure parts := by
  induction parts generalizing index with
  | nil => cases present
  | cons first others ih =>
    cases index with
    | zero =>
      cases present
      exact Nat.add_lt_add_right less _
    | succ index => exact Nat.add_lt_add_left (ih present) _

/-- When one of several named parts is exchanged, the sum changes by what that part does. -/
theorem total_exchange {κ : Type*} {before after : κ → ℕ} {key : κ} {keys : List κ} (nodup : keys.Nodup)
    (member : key ∈ keys) (others : ∀ other, other ≠ key → after other = before other) :
    total after keys + before key = total before keys + after key := by
  induction keys with
  | nil => cases member
  | cons first rest ih =>
    obtain ⟨absent, nodup⟩ := List.nodup_cons.mp nodup
    rw [total, total]
    rcases List.mem_cons.mp member with rfl | later
    · have same : total after rest = total before rest := total_congr fun other among =>
        others other fun same => absent (same ▸ among)
      omega
    · have exchanged := ih nodup later
      have kept := others first fun same => absent (same ▸ later)
      omega

end BoostLearn.Replay
