import Mathlib.Analysis.SpecialFunctions.Trigonometric.Inverse
import Taq102.Lib.CFloat

/-! The functions of `math.h` on a floating type, and their exact values on the reals. -/
namespace Taq102.Lib

class CMath (F : Type) where
  neg : F → F
  sqrt : F → F
  acos : F → F
  sin : F → F
  cos : F → F

/-- `ceil` and `floor`. -/
class CRound (F : Type) where
  ceil : F → F
  floor : F → F

noncomputable instance exactReal : CFloat ℝ := exact ℝ

instance exactRealDouble : CDouble ℝ ℝ := ⟨id, id⟩

noncomputable instance exactRealMath : CMath ℝ where
  neg x := -x
  sqrt := Real.sqrt
  acos := Real.arccos
  sin := Real.sin
  cos := Real.cos

noncomputable instance exactRealRound : CRound ℝ where
  ceil x := ⌈x⌉
  floor x := ⌊x⌋

theorem lit_real (q : ℚ) : (CFloat.lit q : ℝ) = q := rfl

end Taq102.Lib
