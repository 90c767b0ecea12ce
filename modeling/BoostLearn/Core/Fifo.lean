import Mathlib.Data.List.Basic

/-! # A first-in first-out queue and its history

Everything that was ever submitted, and how much of it is done. What is done and what is pending
make up the submissions, each once and in order, by construction.
-/

namespace BoostLearn

structure Fifo (ν : Type*) where
  submitted : List ν
  count : ℕ
  bounded : count ≤ submitted.length

namespace Fifo

variable {ν : Type*}

def empty : Fifo ν := ⟨[], 0, Nat.le_refl 0⟩

def done (fifo : Fifo ν) : List ν := fifo.submitted.take fifo.count

def pending (fifo : Fifo ν) : List ν := fifo.submitted.drop fifo.count

/-- What is worked on: the first pending element. -/
def current (fifo : Fifo ν) : List ν := fifo.pending.take 1

def submit (fifo : Fifo ν) (item : ν) : Fifo ν where
  submitted := fifo.submitted ++ [item]
  count := fifo.count
  bounded := by
    have := fifo.bounded
    rw [List.length_append]
    omega

/-- Finish the first pending element, if there is one. -/
def finish (fifo : Fifo ν) : Fifo ν where
  submitted := fifo.submitted
  count := min (fifo.count + 1) fifo.submitted.length
  bounded := Nat.min_le_right _ _

theorem done_append_pending (fifo : Fifo ν) : fifo.done ++ fifo.pending = fifo.submitted :=
  List.take_append_drop ..

theorem done_prefix (fifo : Fifo ν) : fifo.done <+: fifo.submitted := List.take_prefix ..

/-- An element at some place of a list with at most one element is the list. -/
theorem eq_singleton_of_getElem? {list : List ν} {index : ℕ} {item : ν} (single : list.length ≤ 1)
    (present : list[index]? = some item) : index = 0 ∧ list = [item] := by
  obtain ⟨bound, rfl⟩ := List.getElem?_eq_some_iff.mp present
  obtain rfl : index = 0 := by omega
  match list, single with
  | [_], _ => exact ⟨rfl, rfl⟩

theorem current_length_le (fifo : Fifo ν) : fifo.current.length ≤ 1 := List.length_take_le ..

theorem current_eq_nil {fifo : Fifo ν} : fifo.current = [] ↔ fifo.pending = [] := by
  rw [current]
  cases fifo.pending <;> simp

theorem current_eq_singleton {fifo : Fifo ν} {item : ν} :
    fifo.current = [item] ↔ ∃ rest, fifo.pending = item :: rest := by
  rw [current]
  cases fifo.pending <;> simp

/-- What is done or worked on is a prefix of the submissions. -/
theorem done_append_current_prefix (fifo : Fifo ν) : fifo.done ++ fifo.current <+: fifo.submitted := by
  refine ⟨fifo.pending.drop 1, ?_⟩
  rw [current, List.append_assoc, List.take_append_drop, done_append_pending]

@[simp] theorem submitted_submit (fifo : Fifo ν) (item : ν) :
    (fifo.submit item).submitted = fifo.submitted ++ [item] := rfl

@[simp] theorem done_submit (fifo : Fifo ν) (item : ν) : (fifo.submit item).done = fifo.done :=
  List.take_append_of_le_length fifo.bounded

@[simp] theorem pending_submit (fifo : Fifo ν) (item : ν) :
    (fifo.submit item).pending = fifo.pending ++ [item] :=
  List.drop_append_of_le_length fifo.bounded

/-- A submission does not change what is worked on, unless nothing was. -/
theorem current_submit (fifo : Fifo ν) (item : ν) :
    (fifo.submit item).current = if fifo.pending = [] then [item] else fifo.current := by
  simp only [current, pending_submit]
  cases fifo.pending with
  | nil => rfl
  | cons head rest => rfl

@[simp] theorem submitted_finish (fifo : Fifo ν) : fifo.finish.submitted = fifo.submitted := rfl

private theorem count_finish {fifo : Fifo ν} {item : ν} {rest : List ν}
    (pending : fifo.pending = item :: rest) : fifo.finish.count = fifo.count + 1 := by
  have size := congrArg List.length pending
  simp only [Fifo.pending, List.length_drop, List.length_cons] at size
  simp only [finish]
  omega

theorem pending_finish {fifo : Fifo ν} {item : ν} {rest : List ν}
    (pending : fifo.pending = item :: rest) : fifo.finish.pending = rest := by
  have next := congrArg (List.drop 1) pending
  simp only [Fifo.pending, List.drop_drop, List.drop_succ_cons, List.drop_zero] at next
  rw [Fifo.pending, count_finish pending, submitted_finish, next]

theorem done_finish {fifo : Fifo ν} {item : ν} {rest : List ν}
    (pending : fifo.pending = item :: rest) : fifo.finish.done = fifo.done ++ [item] := by
  have front : fifo.submitted = fifo.done ++ item :: rest := by
    rw [← pending, done_append_pending]
  have size : fifo.done.length = fifo.count := by
    have := fifo.bounded
    rw [done, List.length_take]
    omega
  rw [done, count_finish pending, submitted_finish]
  conv_lhs => rw [front]
  rw [← size, List.take_append, List.take_of_length_le (Nat.le_succ _), Nat.add_sub_cancel_left]
  rfl

end Fifo

end BoostLearn
