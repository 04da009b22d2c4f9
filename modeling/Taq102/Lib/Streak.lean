import Mathlib.Data.List.Chain
import Mathlib.Data.List.TakeWhile

/-! Votes counted over a history, the newest entry first: how long the newest stretch of entries
is in which every entry, or every entry with the one before it, meets a condition. -/
namespace Taq102.Lib.Streak
variable {α : Type*}

/-- Length of the newest stretch of entries that meet the condition. -/
def tally (p : α → Bool) (history : List α) : Nat := (history.takeWhile p).length

@[simp] theorem tally_nil (p : α → Bool) : tally p [] = 0 := rfl

theorem tally_cons (p : α → Bool) (x : α) (history : List α) :
    tally p (x :: history) = if p x then tally p history + 1 else 0 := by
  rw [tally, List.takeWhile_cons]
  split
  · rfl
  · rfl

/-- That many votes mean that the newest entries all met the condition. -/
theorem le_tally {p : α → Bool} {history : List α} {k : Nat} :
    k ≤ tally p history ↔ k ≤ history.length ∧ ∀ x ∈ history.take k, p x = true := by
  induction history generalizing k with
  | nil => simp
  | cons x history ih =>
    cases k with
    | zero => simp
    | succ k =>
      rw [tally_cons]
      by_cases hx : p x = true
      · simp [hx, ih]
      · simp [hx]

variable (r : α → α → Prop) [DecidableRel r]

/-- Length of the newest stretch in which each entry is related to the one before it. -/
def stretch : List α → Nat
  | [] => 0
  | [_] => 1
  | x :: y :: history => if r x y then stretch (y :: history) + 1 else 1

variable {r}

theorem stretch_pos (x : α) (history : List α) : 0 < stretch r (x :: history) := by
  cases history with
  | nil => exact Nat.one_pos
  | cons y history =>
    rw [stretch]
    split
    · exact Nat.succ_pos _
    · exact Nat.one_pos

/-- That many votes mean that the newest entries form a chain. -/
theorem le_stretch {history : List α} {k : Nat} :
    k ≤ stretch r history ↔ k ≤ history.length ∧ (history.take k).IsChain r := by
  induction history generalizing k with
  | nil => simp [stretch]
  | cons x history ih =>
    cases k with
    | zero => simp
    | succ k =>
      cases history with
      | nil => cases k <;> simp [stretch]
      | cons y history =>
        rw [stretch]
        cases k with
        | zero =>
          have hpos := stretch_pos (r := r) y history
          split
          · simp
          · simp
        | succ k =>
          by_cases hxy : r x y
          · rw [if_pos hxy, Nat.add_le_add_iff_right, ih]
            simp [hxy]
          · simp [hxy]

end Taq102.Lib.Streak
