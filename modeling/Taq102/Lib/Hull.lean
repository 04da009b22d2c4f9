import Mathlib.Algebra.Order.Field.Basic
import Mathlib.Order.Interval.Set.UnorderedInterval
import Mathlib.Tactic.Ring

/-! Values between the smallest and the largest of some samples, and the low pass that keeps them
there. -/
namespace Taq102.Lib

/-- The value lies between two of the samples. -/
def Hull {α : Type*} [LE α] (samples : List α) (v : α) : Prop :=
  (∃ a ∈ samples, a ≤ v) ∧ ∃ b ∈ samples, v ≤ b

section Order
variable {α : Type*} [LinearOrder α] {samples : List α}

theorem hull_of_mem {v : α} (h : v ∈ samples) : Hull samples v := ⟨⟨v, h, le_rfl⟩, v, h, le_rfl⟩

/-- A value on the way to a new sample. -/
theorem Hull.push {p v x : α} (h : Hull samples p) (hv : v ∈ Set.uIcc p x) : Hull (samples ++ [x]) v := by
  obtain ⟨⟨a, ha, hap⟩, b, hb, hpb⟩ := h
  have hx : x ∈ samples ++ [x] := List.mem_append_right _ (List.mem_singleton_self x)
  rcases Set.mem_uIcc.mp hv with ⟨hlo, hhi⟩ | ⟨hlo, hhi⟩
  · exact ⟨⟨a, List.mem_append_left _ ha, hap.trans hlo⟩, x, hx, hhi⟩
  · exact ⟨⟨x, hx, hlo⟩, b, List.mem_append_left _ hb, hhi.trans hpb⟩

theorem Hull.region {v lo hi : α} (h : Hull samples v) (hregion : ∀ s ∈ samples, s ∈ Set.Icc lo hi) :
    v ∈ Set.Icc lo hi := by
  obtain ⟨⟨a, ha, hav⟩, b, hb, hvb⟩ := h
  exact ⟨(hregion a ha).1.trans hav, hvb.trans (hregion b hb).2⟩

end Order

/-- A first-order low pass moves its output towards the sample and not past it. -/
theorem lowPass_mem_uIcc {K : Type*} [Field K] [LinearOrder K] [IsStrictOrderedRing K] {a : K} (hpos : 0 ≤ a)
    (hone : a ≤ 1) (p x : K) : a * x + (1 - a) * p ∈ Set.uIcc p x := by
  rw [Set.mem_uIcc]
  have hrest : 0 ≤ 1 - a := sub_nonneg.mpr hone
  have hstep : a * x + (1 - a) * p = p + a * (x - p) := by ring
  have hback : a * x + (1 - a) * p = x - (1 - a) * (x - p) := by ring
  rcases le_total p x with hpx | hxp
  · have hup : 0 ≤ x - p := sub_nonneg.mpr hpx
    refine .inl ⟨?_, ?_⟩
    · rw [hstep]
      exact le_add_of_nonneg_right (mul_nonneg hpos hup)
    · rw [hback]
      exact sub_le_self _ (mul_nonneg hrest hup)
  · have hdown : x - p ≤ 0 := sub_nonpos.mpr hxp
    refine .inr ⟨?_, ?_⟩
    · rw [hback]
      exact le_sub_self_iff _ |>.mpr (mul_nonpos_of_nonneg_of_nonpos hrest hdown)
    · rw [hstep]
      exact add_le_of_nonpos_right (mul_nonpos_of_nonneg_of_nonpos hpos hdown)

end Taq102.Lib
