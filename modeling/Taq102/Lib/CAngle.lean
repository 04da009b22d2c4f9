import Mathlib.Analysis.SpecialFunctions.Complex.Arg
import Taq102.Lib.CMath

/-! Angles of points, and differences of angles brought back to less than half a turn. -/
namespace Taq102.Lib

/-- `atan2` on a floating type. -/
class CAngle (F : Type) where
  atan2 : F → F → F

noncomputable instance exactRealAngle : CAngle ℝ := ⟨fun y x => Complex.arg ⟨x, y⟩⟩

namespace Angle
variable {F : Type} [CFloat F] [CMath F]

omit [CMath F] in
/-- The loop that takes whole turns off an angle above half a turn; the number bounds its rounds. -/
def lower (half : F) : Nat → F → F
  | 0, x => x
  | n + 1, x => if half < x then lower half n (x - CFloat.lit 2 * half) else x

/-- The loop that adds whole turns to an angle below minus half a turn. -/
def raise (half : F) : Nat → F → F
  | 0, x => x
  | n + 1, x => if x < CMath.neg half then raise half n (x + CFloat.lit 2 * half) else x

/-- A difference of two angles within half a turn each. -/
def unwrap (half : F) (x : F) : F := raise half 2 (lower half 2 x)

theorem lower_of_le {half x : ℝ} (h : x ≤ half) (n : ℕ) : lower half n x = x := by
  cases n with
  | zero => rfl
  | succ n => exact if_neg (not_lt.mpr h)

theorem lower_of_lt {half x : ℝ} (h : half < x) (n : ℕ) :
    lower half (n + 1) x = lower half n (x - 2 * half) := by
  have hround : lower half (n + 1) x = lower half n (x - ((2 : ℚ) : ℝ) * half) := if_pos h
  rw [hround, Rat.cast_ofNat]

theorem raise_of_le {half x : ℝ} (h : -half ≤ x) (n : ℕ) : raise half n x = x := by
  cases n with
  | zero => rfl
  | succ n => exact if_neg (not_lt.mpr h)

theorem raise_of_lt {half x : ℝ} (h : x < -half) (n : ℕ) :
    raise half (n + 1) x = raise half n (x + 2 * half) := by
  have hround : raise half (n + 1) x = raise half n (x + ((2 : ℚ) : ℝ) * half) := if_pos h
  rw [hround, Rat.cast_ofNat]

/-- Two rounds are enough: the loops end within half a turn, whole turns away. -/
theorem unwrap_spec {half a b : ℝ} (ha : |a| ≤ half) (hb : |b| ≤ half) :
    |unwrap half (a - b)| ≤ half ∧ ∃ k : ℤ, unwrap half (a - b) = a - b + k * (2 * half) := by
  obtain ⟨ha1, ha2⟩ := abs_le.mp ha
  obtain ⟨hb1, hb2⟩ := abs_le.mp hb
  unfold unwrap
  rcases lt_or_ge half (a - b) with habove | hbelow
  · have hlow : lower half 2 (a - b) = a - b - 2 * half := by
      rw [lower_of_lt habove, lower_of_le (by linarith)]
    rw [hlow, raise_of_le (by linarith)]
    refine ⟨abs_le.mpr ⟨by linarith, by linarith⟩, -1, ?_⟩
    push_cast
    ring
  · rw [lower_of_le hbelow]
    rcases lt_or_ge (a - b) (-half) with hunder | hover
    · have hhigh : raise half 2 (a - b) = a - b + 2 * half := by
        rw [raise_of_lt hunder, raise_of_le (by linarith)]
      rw [hhigh]
      refine ⟨abs_le.mpr ⟨by linarith, by linarith⟩, 1, ?_⟩
      push_cast
      ring
    · rw [raise_of_le hover]
      refine ⟨abs_le.mpr ⟨hover, hbelow⟩, 0, ?_⟩
      push_cast
      ring

end Angle

end Taq102.Lib
