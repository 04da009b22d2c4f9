import Mathlib.Algebra.GroupWithZero.Nat
import Mathlib.Algebra.BigOperators.Group.List.Basic

/-! A queue that is handed out in portions. What was given, followed by what waits, is everything
that was put in, in its order; portions that are large enough give it all. -/
namespace Taq102.Lib

structure Outlet (α : Type*) where
  given : List α
  waiting : List α

namespace Outlet
variable {α : Type*}

def total (o : Outlet α) : List α := o.given ++ o.waiting

def put (o : Outlet α) (xs : List α) : Outlet α := { o with waiting := o.waiting ++ xs }

/-- The first of those that wait, at most `n`. -/
def draw (o : Outlet α) (n : Nat) : Outlet α where
  given := o.given ++ o.waiting.take n
  waiting := o.waiting.drop n

@[simp] theorem total_put (o : Outlet α) (xs : List α) : (o.put xs).total = o.total ++ xs :=
  (List.append_assoc _ _ _).symm

@[simp] theorem total_draw (o : Outlet α) (n : Nat) : (o.draw n).total = o.total := by
  rw [total, draw, List.append_assoc, List.take_append_drop, total]

theorem total_draws (o : Outlet α) (portions : List Nat) : (portions.foldl draw o).total = o.total := by
  induction portions generalizing o with
  | nil => rfl
  | cons n rest ih => rw [List.foldl_cons, ih, total_draw]

theorem waiting_draws (o : Outlet α) (portions : List Nat) :
    (portions.foldl draw o).waiting = o.waiting.drop portions.sum := by
  induction portions generalizing o with
  | nil => rfl
  | cons n rest ih =>
    rw [List.foldl_cons, ih, List.sum_cons, draw, List.drop_drop]

/-- Nothing waits any more. -/
theorem given_of_waiting {o : Outlet α} (h : o.waiting = []) : o.given = o.total := by
  rw [total, h, List.append_nil]

theorem given_draws {o : Outlet α} {portions : List Nat} (h : o.waiting.length ≤ portions.sum) :
    (portions.foldl draw o).given = o.total := by
  have hnone : (portions.foldl draw o).waiting = [] := by
    rw [waiting_draws]
    exact List.drop_eq_nil_of_le h
  rw [given_of_waiting hnone, total_draws]

end Outlet

end Taq102.Lib
