import Mathlib.Algebra.Quaternion
import Mathlib.Analysis.SpecialFunctions.Trigonometric.Inverse
import Mathlib.LinearAlgebra.CrossProduct
import Mathlib.LinearAlgebra.UnitaryGroup
import Mathlib.Tactic.FinCases
import Mathlib.Tactic.LinearCombination

/-! Rotations of space by unit quaternions: their matrices, and the turn of one direction onto
another. -/
namespace Taq102.Lib.Rotation
open Quaternion Matrix

/-- A vector as the quaternion without a real part. -/
def vector (v : Fin 3 → ℝ) : Quaternion ℝ :=
  ⟨0, vecHead v, vecHead (vecTail v), vecHead (vecTail (vecTail v))⟩

@[simp] theorem vector_re (v : Fin 3 → ℝ) : (vector v).re = 0 := rfl
@[simp] theorem vector_imI (v : Fin 3 → ℝ) : (vector v).imI = v 0 := rfl
@[simp] theorem vector_imJ (v : Fin 3 → ℝ) : (vector v).imJ = v 1 := rfl
@[simp] theorem vector_imK (v : Fin 3 → ℝ) : (vector v).imK = v 2 := rfl

def twice (x : ℝ) : ℝ := x + x

@[simp] theorem twice_eq (x : ℝ) : twice x = 2 * x := (two_mul x).symm

/-- The matrix of the turn by a quaternion. -/
def matrix (q : Quaternion ℝ) : Matrix (Fin 3) (Fin 3) ℝ :=
  !![1 - twice (q.imJ * q.imJ + q.imK * q.imK), twice (q.imI * q.imJ - q.imK * q.re),
      twice (q.imI * q.imK + q.imJ * q.re);
    twice (q.imI * q.imJ + q.imK * q.re), 1 - twice (q.imI * q.imI + q.imK * q.imK),
      twice (q.imJ * q.imK - q.imI * q.re);
    twice (q.imI * q.imK - q.imJ * q.re), twice (q.imJ * q.imK + q.imI * q.re),
      1 - twice (q.imI * q.imI + q.imJ * q.imJ)]

theorem vector_injective : Function.Injective vector := by
  intro v w h
  obtain ⟨-, hx, hy, hz⟩ := Quaternion.ext_iff.mp h
  funext i
  fin_cases i
  · exact hx
  · exact hy
  · exact hz

theorem matrix_star (q : Quaternion ℝ) : matrix (star q) = (matrix q)ᵀ := by
  ext i j
  fin_cases i <;> fin_cases j <;> simp [matrix] <;> ring

section Unit
variable {q r : Quaternion ℝ} (hq : normSq q = 1)
include hq

/-- The matrix turns a vector as conjugation does. -/
theorem vector_mulVec (v : Fin 3 → ℝ) : vector (matrix q *ᵥ v) = q * vector v * star q := by
  rw [normSq_def'] at hq
  ext
  · simp
    ring
  · simp [matrix, dotProduct, Fin.sum_univ_three]
    linear_combination -v 0 * hq
  · simp [matrix, dotProduct, Fin.sum_univ_three]
    linear_combination -v 1 * hq
  · simp [matrix, dotProduct, Fin.sum_univ_three]
    linear_combination -v 2 * hq

theorem matrix_mul (hr : normSq r = 1) : matrix (q * r) = matrix q * matrix r := by
  have hqr : normSq (q * r) = 1 := by
    rw [map_mul, hq, hr, one_mul]
  apply Matrix.ext_of_mulVec_single
  intro i
  apply vector_injective
  rw [← mulVec_mulVec, vector_mulVec hqr, vector_mulVec hq, vector_mulVec hr, star_mul]
  simp only [mul_assoc]

theorem matrix_mem : matrix q ∈ specialOrthogonalGroup (Fin 3) ℝ := by
  have hone : matrix 1 = 1 := by
    ext i j
    fin_cases i <;> fin_cases j <;> simp [matrix]
  have hinverse : q * star q = 1 := by
    rw [self_mul_star, hq]
    rfl
  have hstar : normSq (star q) = 1 := by
    rw [normSq_star, hq]
  rw [mem_specialOrthogonalGroup_iff, mem_orthogonalGroup_iff]
  constructor
  · rw [← matrix_star, ← matrix_mul hq hstar, hinverse, hone]
  · rw [normSq_def'] at hq
    rw [det_fin_three]
    simp [matrix]
    linear_combination 4 * (q.imI ^ 2 + q.imJ ^ 2 + q.imK ^ 2) * hq

end Unit

/-- The turn by twice the angle `t` about `n`. -/
noncomputable def roll (t : ℝ) (n : Fin 3 → ℝ) : Quaternion ℝ :=
  ⟨Real.cos t, vecHead n * (Real.sin t / √(n ⬝ᵥ n)), vecHead (vecTail n) * (Real.sin t / √(n ⬝ᵥ n)),
    vecHead (vecTail (vecTail n)) * (Real.sin t / √(n ⬝ᵥ n))⟩

theorem normSq_roll (t : ℝ) {n : Fin 3 → ℝ} (hn : 0 < n ⬝ᵥ n) : normSq (roll t n) = 1 := by
  let k := Real.sin t / √(n ⬝ᵥ n)
  have hscale : k ^ 2 * (n ⬝ᵥ n) = Real.sin t ^ 2 := by
    rw [div_pow, Real.sq_sqrt hn.le, div_mul_cancel₀ _ hn.ne']
  have hdot := vec3_dotProduct n n
  have hroll : roll t n = ⟨Real.cos t, n 0 * k, n 1 * k, n 2 * k⟩ := rfl
  rw [normSq_def', hroll]
  linear_combination hscale - k ^ 2 * hdot + Real.sin_sq_add_cos_sq t

section Onto
variable {p r : Fin 3 → ℝ}

/-- Lagrange's identity for two unit vectors. -/
theorem cross_dot (hp : p ⬝ᵥ p = 1) (hr : r ⬝ᵥ r = 1) :
    (p ⨯₃ r) ⬝ᵥ (p ⨯₃ r) = 1 - (p ⬝ᵥ r) ^ 2 := by
  rw [cross_dot_cross, hp, hr, dotProduct_comm r p]
  ring

theorem dot_bounds (hp : p ⬝ᵥ p = 1) (hr : r ⬝ᵥ r = 1) : -1 ≤ p ⬝ᵥ r ∧ p ⬝ᵥ r ≤ 1 := by
  have hlagrange := cross_dot hp hr
  have hpos : 0 ≤ (p ⨯₃ r) ⬝ᵥ (p ⨯₃ r) := by
    rw [vec3_dotProduct]
    exact add_nonneg (add_nonneg (mul_self_nonneg _) (mul_self_nonneg _)) (mul_self_nonneg _)
  apply abs_le.mp
  rw [← sq_le_one_iff_abs_le_one]
  linarith

/-- A quaternion along the normal of two unit vectors carries the one onto the other, its parts
being those of half their angle. -/
theorem quaternion_mulVec (hp : p ⬝ᵥ p = 1) {c k : ℝ} (hck : 2 * c * k = 1)
    (hkk : 2 * k ^ 2 * ((p ⨯₃ r) ⬝ᵥ (p ⨯₃ r)) = 1 - p ⬝ᵥ r) :
    matrix ⟨c, (p ⨯₃ r) 0 * k, (p ⨯₃ r) 1 * k, (p ⨯₃ r) 2 * k⟩ *ᵥ p = r := by
  have hdot := vec3_dotProduct p r
  have hnormal := vec3_dotProduct (p ⨯₃ r) (p ⨯₃ r)
  rw [vec3_dotProduct] at hp
  rw [hdot, hnormal] at hkk
  have hx : (p ⨯₃ r) 0 = p 1 * r 2 - p 2 * r 1 := by
    rw [cross_apply]
    rfl
  have hy : (p ⨯₃ r) 1 = p 2 * r 0 - p 0 * r 2 := by
    rw [cross_apply]
    rfl
  have hz : (p ⨯₃ r) 2 = p 0 * r 1 - p 1 * r 0 := by
    rw [cross_apply]
    rfl
  rw [hx, hy, hz] at hkk ⊢
  funext i
  fin_cases i
  · simp [matrix, dotProduct, Fin.sum_univ_three]
    linear_combination ((p 2 * r 0 - p 0 * r 2) * p 2 - (p 0 * r 1 - p 1 * r 0) * p 1) * hck -
      p 0 * hkk + r 0 * hp
  · simp [matrix, dotProduct, Fin.sum_univ_three]
    linear_combination ((p 0 * r 1 - p 1 * r 0) * p 0 - (p 1 * r 2 - p 2 * r 1) * p 2) * hck -
      p 1 * hkk + r 1 * hp
  · simp [matrix, dotProduct, Fin.sum_univ_three]
    linear_combination ((p 1 * r 2 - p 2 * r 1) * p 1 - (p 2 * r 0 - p 0 * r 2) * p 0) * hck -
      p 2 * hkk + r 2 * hp

/-- The roll about the normal of two unit vectors, by half the angle between them, carries the one
onto the other. -/
theorem roll_mulVec (hp : p ⬝ᵥ p = 1) (hr : r ⬝ᵥ r = 1) (hn : 0 < (p ⨯₃ r) ⬝ᵥ (p ⨯₃ r)) :
    matrix (roll (Real.arccos (p ⬝ᵥ r) / 2) (p ⨯₃ r)) *ᵥ p = r := by
  obtain ⟨hlow, hhigh⟩ := dot_bounds hp hr
  let t := Real.arccos (p ⬝ᵥ r) / 2
  have htwice : 2 * t = Real.arccos (p ⬝ᵥ r) := mul_div_cancel₀ _ two_ne_zero
  have hcos : 2 * Real.sin t ^ 2 = 1 - p ⬝ᵥ r := by
    have hdouble := Real.cos_two_mul t
    rw [htwice, Real.cos_arccos hlow hhigh] at hdouble
    linear_combination 2 * Real.sin_sq_add_cos_sq t + hdouble
  have hsin : 2 * Real.sin t * Real.cos t = √((p ⨯₃ r) ⬝ᵥ (p ⨯₃ r)) := by
    rw [← Real.sin_two_mul, htwice, Real.sin_arccos, cross_dot hp hr]
  have hne : √((p ⨯₃ r) ⬝ᵥ (p ⨯₃ r)) ≠ 0 := (Real.sqrt_pos.mpr hn).ne'
  apply quaternion_mulVec hp
  · rw [← mul_div_assoc, div_eq_one_iff_eq hne]
    linear_combination hsin
  · rw [div_pow, Real.sq_sqrt hn.le, mul_assoc, div_mul_cancel₀ _ hn.ne', hcos]

end Onto

end Taq102.Lib.Rotation
