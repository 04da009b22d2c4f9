import Mathlib.Algebra.BigOperators.Ring.List
import Mathlib.Algebra.Order.BigOperators.Group.List
import Mathlib.Algebra.Order.Ring.Nat

/-! Weighted sums of lists, in numbers and in words of 32 bits, and weighted means rounded down. -/
namespace Taq102.Lib.WeightedMean
variable {α : Type*} (w v : α → Nat)

def weight (l : List α) : Nat := (l.map w).sum

def total (l : List α) : Nat := (l.map fun s => v s * w s).sum

def mean (l : List α) : Nat := total w v l / weight w l

variable {w v} {l : List α}

/-- Elements without weight do not count. -/
theorem total_between {lo hi : Nat} (h : ∀ s ∈ l, 0 < w s → lo ≤ v s ∧ v s ≤ hi) :
    lo * weight w l ≤ total w v l ∧ total w v l ≤ hi * weight w l := by
  have hlow : ∀ s ∈ l, lo * w s ≤ v s * w s := by
    intro s hs
    rcases Nat.eq_zero_or_pos (w s) with hzero | hpos
    · rw [hzero, Nat.mul_zero, Nat.mul_zero]
    · exact Nat.mul_le_mul_right _ (h s hs hpos).1
  have hhigh : ∀ s ∈ l, v s * w s ≤ hi * w s := by
    intro s hs
    rcases Nat.eq_zero_or_pos (w s) with hzero | hpos
    · rw [hzero, Nat.mul_zero, Nat.mul_zero]
    · exact Nat.mul_le_mul_right _ (h s hs hpos).2
  unfold weight total
  rw [← List.sum_map_mul_left l w lo, ← List.sum_map_mul_left l w hi]
  exact ⟨List.sum_le_sum hlow, List.sum_le_sum hhigh⟩

/-- A mean lies between the values it is of. -/
theorem mean_between (hpos : 0 < weight w l) {lo hi : Nat}
    (h : ∀ s ∈ l, 0 < w s → lo ≤ v s ∧ v s ≤ hi) : lo ≤ mean w v l ∧ mean w v l ≤ hi := by
  obtain ⟨hlow, hhigh⟩ := total_between h
  exact ⟨(Nat.le_div_iff_mul_le hpos).mpr hlow, Nat.div_le_of_le_mul (by rw [Nat.mul_comm]; exact hhigh)⟩

theorem weight_le {top : Nat} (h : ∀ s ∈ l, w s ≤ top) : weight w l ≤ l.length * top := by
  have hsum := List.sum_le_card_nsmul (l.map w) top (by simpa using h)
  simpa [weight] using hsum

/-- A sum of words that fits a word. -/
theorem toNat_foldl_add (f : α → UInt32) (t : UInt32)
    (h : t.toNat + weight (fun s => (f s).toNat) l < UInt32.size) :
    (l.foldl (fun t s => t + f s) t).toNat = t.toNat + weight (fun s => (f s).toNat) l := by
  induction l generalizing t with
  | nil => rfl
  | cons s l ih =>
    have hcons : weight (fun s => (f s).toNat) (s :: l) =
        (f s).toNat + weight (fun s => (f s).toNat) l := List.sum_cons
    rw [hcons] at h ⊢
    have hstep : (t + f s).toNat = t.toNat + (f s).toNat := by
      rw [UInt32.toNat_add]
      exact Nat.mod_eq_of_lt (by unfold UInt32.size at h; omega)
    rw [List.foldl_cons, ih _ (by omega), hstep, Nat.add_assoc]

end Taq102.Lib.WeightedMean
