import Mathlib.Data.Set.Basic

/-! A dirty bit: whatever changes the part of a state that is shown elsewhere sets the bit, so that
a clean state is the one last shown. -/
namespace Taq102.Lib

/-- What of a state is shown, and whether it is marked as changed. -/
structure Marking (σ α : Type*) where
  view : σ → α
  dirty : σ → Prop

namespace Marking
variable {σ α : Type*} {k : Marking σ α} {s t u : σ}

/-- A change that leaves the state clean found it clean and shows nothing new. -/
def Honest (k : Marking σ α) (s t : σ) : Prop := ¬ k.dirty t → ¬ k.dirty s ∧ k.view t = k.view s

theorem Honest.refl (s : σ) : k.Honest s s := fun h => ⟨h, rfl⟩

theorem Honest.trans (h : k.Honest s t) (h' : k.Honest t u) : k.Honest s u := by
  intro hclean
  obtain ⟨hmiddle, hview⟩ := h' hclean
  obtain ⟨hbefore, hsame⟩ := h hmiddle
  exact ⟨hbefore, hview.trans hsame⟩

theorem Honest.of_dirty (h : k.dirty t) : k.Honest s t := fun hclean => absurd h hclean

theorem Honest.of_same (hdirty : k.dirty s → k.dirty t) (hview : k.view t = k.view s) : k.Honest s t :=
  fun hclean => ⟨fun h => hclean (hdirty h), hview⟩

/-- A mark stays. -/
theorem Honest.stays (h : k.Honest s t) (hdirty : k.dirty s) : k.dirty t :=
  by_contra fun hclean => (h hclean).1 hdirty

/-- What is shown is the view of the state, unless the state is marked. -/
def Fresh (k : Marking σ α) (shown : α) (s : σ) : Prop := ¬ k.dirty s → k.view s = shown

theorem Honest.fresh {shown : α} (h : k.Honest s t) (hs : k.Fresh shown s) : k.Fresh shown t := by
  intro hclean
  obtain ⟨hbefore, hview⟩ := h hclean
  exact hview.trans (hs hbefore)

end Marking

end Taq102.Lib
