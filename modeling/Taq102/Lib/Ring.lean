import Mathlib.Algebra.BigOperators.Group.List.Basic
import Mathlib.Data.Fin.Basic
import Mathlib.Logic.Function.Basic

/-! A ring of the latest values with their running sum: every push overwrites the oldest value once
the ring is full, and corrects the sum by it. -/
namespace Taq102.Lib

/-- A ring of `n + 1` cells. -/
structure Ring (α : Type*) (n : Nat) where
  count : Nat
  sum : α
  cells : Fin (n + 1) → α
  next : Fin (n + 1)

namespace Ring
variable {α : Type*} [AddCommGroup α] {n : Nat} {r : Ring α n} {xs : List α}

def push (r : Ring α n) (x : α) : Ring α n where
  count := if r.count = n + 1 then n + 1 else r.count + 1
  sum := (if r.count = n + 1 then r.sum - r.cells r.next else r.sum) + x
  cells := Function.update r.cells r.next x
  next := r.next + 1

/-- The place of the value that came `k` values before the newest. -/
def slot (r : Ring α n) (k : Nat) : Nat :=
  if k < r.next.val then r.next.val - 1 - k else r.next.val + n - k

/-- The ring holds these values, the newest first. -/
structure Holds (r : Ring α n) (xs : List α) : Prop where
  length : xs.length = r.count
  bound : r.count ≤ n + 1
  total : r.sum = xs.sum
  cell : ∀ (i : Fin (n + 1)) (k : Nat) (hk : k < xs.length), i.val = r.slot k → r.cells i = xs[k]

theorem holds_nil (hcount : r.count = 0) (hsum : r.sum = 0) : Holds r [] where
  length := hcount.symm
  bound := hcount ▸ Nat.zero_le _
  total := hsum
  cell _ _ hk := absurd hk (Nat.not_lt_zero _)

theorem next_val (i : Fin (n + 1)) : (i + 1).val = if i.val = n then 0 else i.val + 1 := by
  rw [Fin.val_add_one]
  exact if_congr Fin.ext_iff rfl rfl

/-- The newest value is where the push put it. -/
theorem slot_push_zero (x : α) : (r.push x).slot 0 = r.next.val := by
  have hnext : (r.push x).next.val = if r.next.val = n then 0 else r.next.val + 1 := next_val r.next
  rw [slot, hnext]
  split <;> split <;> omega

/-- The others are where they were, one value older. -/
theorem slot_push_succ (x : α) {k : Nat} (hk : k < n) : (r.push x).slot (k + 1) = r.slot k := by
  have hnext : (r.push x).next.val = if r.next.val = n then 0 else r.next.val + 1 := next_val r.next
  rw [slot, slot, hnext]
  split <;> split <;> split <;> omega

omit [AddCommGroup α] in
theorem slot_ne_next {k : Nat} (hk : k < n) : r.slot k ≠ r.next.val := by
  rw [slot]
  split <;> omega

theorem sum_take_of_full (h : Holds r xs) (hfull : r.count = n + 1) :
    r.sum - r.cells r.next = (xs.take n).sum := by
  have hlast : n < xs.length := by
    rw [h.length, hfull]
    exact Nat.lt_succ_self n
  have holdest : r.cells r.next = xs[n] := by
    refine h.cell r.next n hlast ?_
    rw [slot, if_neg (by omega)]
    omega
  have hall : xs = xs.take n ++ [xs[n]] := by
    rw [List.take_concat_get' xs n hlast]
    exact (List.take_of_length_le (by rw [h.length, hfull])).symm
  have hsum : xs.sum = (xs.take n).sum + xs[n] := by
    conv_lhs => rw [hall]
    rw [List.sum_append, List.sum_singleton]
  rw [h.total, holdest, hsum, add_sub_cancel_right]

/-- After a push the ring holds the latest values. -/
theorem holds_push (h : Holds r xs) (x : α) : Holds (r.push x) ((x :: xs).take (n + 1)) := by
  have hlength := h.length
  have hbound := h.bound
  have hcount : (r.push x).count = if r.count = n + 1 then n + 1 else r.count + 1 := rfl
  have hsum : (r.push x).sum = (if r.count = n + 1 then r.sum - r.cells r.next else r.sum) + x := rfl
  refine ⟨?_, ?_, ?_, fun i k hk hi => ?_⟩
  · rw [hcount, List.length_take, List.length_cons]
    split <;> omega
  · rw [hcount]
    split <;> omega
  · rw [hsum, List.take_succ_cons, List.sum_cons, add_comm]
    congr 1
    split
    · rename_i hfull
      exact sum_take_of_full h hfull
    · rw [h.total, List.take_of_length_le (by omega)]
  · change Function.update r.cells r.next x i = _
    rw [List.getElem_take]
    cases k with
    | zero =>
      have hsame : i = r.next := Fin.ext (by rw [hi, slot_push_zero])
      rw [hsame, Function.update_self]
      rfl
    | succ k =>
      rw [List.length_take, List.length_cons] at hk
      have hplace : i.val = r.slot k := by rw [hi, slot_push_succ x (by omega)]
      have hother : i ≠ r.next := by
        intro heq
        rw [heq] at hplace
        exact slot_ne_next (by omega) hplace.symm
      rw [Function.update_of_ne hother, h.cell i k (by omega) hplace]
      rfl

end Ring
end Taq102.Lib
