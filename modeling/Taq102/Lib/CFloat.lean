import Mathlib.Algebra.Order.Floor.Ring
import Mathlib.Algebra.Order.Field.Basic
import Mathlib.Data.Rat.Cast.Defs
import Mathlib.Data.Rat.Floor
import Mathlib.Tactic.Linarith

/-! The floating types of C as an interface of operations. Code modelled over the interface
holds for IEEE values, NaN and rounding included, and for exact arithmetic alike. -/
namespace Taq102.Lib

/-- One floating type: arithmetic, comparisons, literals and the conversions to integers. -/
class CFloat (F : Type) where
  add : F → F → F
  sub : F → F → F
  mul : F → F → F
  div : F → F → F
  lt : F → F → Prop
  le : F → F → Prop
  decLt : ∀ a b, Decidable (lt a b)
  decLe : ∀ a b, Decidable (le a b)
  lit : ℚ → F
  ofInt : ℤ → F
  abs : F → F
  lround : F → ℤ
  trunc : F → ℤ
  isFinite : F → Bool
  isFinite_zero : isFinite (lit 0) = true

namespace CFloat
variable {F : Type} [CFloat F]

instance (priority := low) instAdd : Add F := ⟨add⟩

instance (priority := low) instSub : Sub F := ⟨sub⟩

instance (priority := low) instMul : Mul F := ⟨mul⟩

instance (priority := low) instDiv : Div F := ⟨div⟩

instance (priority := low) instLT : LT F := ⟨lt⟩

instance (priority := low) instLE : LE F := ⟨le⟩

instance (priority := low) instDecidableLT : DecidableLT F := decLt

instance (priority := low) instDecidableLE : DecidableLE F := decLe

end CFloat

/-- Quotients of `int` values up to one, and the integers a share of an `int` converts to. -/
class LawfulShare (F : Type) [CFloat F] : Prop where
  share {a b : ℤ} : 0 ≤ a → a ≤ b → 0 < b → b < 2 ^ 31 →
    CFloat.lit 0 ≤ (CFloat.ofInt a / CFloat.ofInt b : F) ∧
      (CFloat.ofInt a / CFloat.ofInt b : F) ≤ CFloat.lit 1
  scale {x : F} {n : ℤ} : CFloat.lit 0 ≤ x → x ≤ CFloat.lit 1 → 0 ≤ n → n < 2 ^ 31 →
    CFloat.lit 0 ≤ x * CFloat.ofInt n ∧ x * CFloat.ofInt n ≤ CFloat.ofInt n
  trunc_mem {x : F} {n : ℤ} : CFloat.lit 0 ≤ x → x ≤ CFloat.ofInt n → 0 ≤ n → n < 2 ^ 31 →
    0 ≤ CFloat.trunc x ∧ CFloat.trunc x ≤ n

/-- A `float` type with the `double` type its values widen to. -/
class CDouble (F : Type) (D : outParam Type) where
  widen : F → D
  narrow : D → F

/-- Comparisons of finite values, the quotient of a `float`'s distance from an `int`, and rounding
between bounds. -/
class LawfulDouble (F : Type) {D : Type} [CFloat F] [CFloat D] [CDouble F D] : Prop where
  le_of_not_lt {x y : D} : CFloat.isFinite x = true → CFloat.isFinite y = true → ¬ x < y → y ≤ x
  le_refl {x : D} : CFloat.isFinite x = true → x ≤ x
  zero_le_one : (CFloat.lit 0 : D) ≤ CFloat.lit 1
  isFinite_one : CFloat.isFinite (CFloat.lit 1 : D) = true
  isFinite_ratio {a b : ℤ} {y : F} : 0 ≤ a → a < 2 ^ 31 → 1 < b → b < 2 ^ 31 →
    CFloat.isFinite y = true → CFloat.isFinite
      ((CFloat.ofInt a - CFloat.lit 1 - CDouble.widen y) / (CFloat.ofInt b - CFloat.lit 1) : D) = true
  lround_mem {x : D} {n : ℤ} : CFloat.lit 0 ≤ x → x ≤ CFloat.ofInt n → 0 ≤ n → n < 2 ^ 31 →
    0 ≤ CFloat.lround x ∧ CFloat.lround x ≤ n

section Exact
variable {K : Type} [Field K] [LinearOrder K] [FloorRing K]

/-- Rounding to the nearest integer, halves away from zero. -/
def exactRound (x : K) : ℤ := if x < 0 then -⌊-x + 1 / 2⌋ else ⌊x + 1 / 2⌋

/-- Conversion to an integer, towards zero. -/
def exactTrunc (x : K) : ℤ := if x < 0 then -⌊-x⌋ else ⌊x⌋

/-- Exact arithmetic in an ordered field: no rounding, every value finite. -/
@[reducible] def exact (K : Type) [Field K] [LinearOrder K] [FloorRing K] : CFloat K where
  add a b := a + b
  sub a b := a - b
  mul a b := a * b
  div a b := a / b
  lt a b := a < b
  le a b := a ≤ b
  decLt := inferInstance
  decLe := inferInstance
  lit q := (q : K)
  ofInt n := (n : K)
  abs x := max x (-x)
  lround := exactRound
  trunc := exactTrunc
  isFinite _ := true
  isFinite_zero := rfl

end Exact

theorem exactTrunc_mem {x : ℚ} {n : ℤ} (hx : 0 ≤ x) (hn : x ≤ n) :
    0 ≤ exactTrunc x ∧ exactTrunc x ≤ n := by
  rw [exactTrunc, if_neg hx.not_gt]
  exact ⟨Int.floor_nonneg.mpr hx, Int.floor_le_iff.mpr (lt_of_le_of_lt hn (lt_add_one _))⟩

theorem exactRound_mem {x : ℚ} {n : ℤ} (hx : 0 ≤ x) (hn : x ≤ n) :
    0 ≤ exactRound x ∧ exactRound x ≤ n := by
  rw [exactRound, if_neg hx.not_gt]
  refine ⟨Int.floor_nonneg.mpr (by linarith), Int.floor_le_iff.mpr ?_⟩
  linarith

/-- Rational arithmetic, in which the models evaluate. -/
instance exactRat : CFloat ℚ := exact ℚ

instance exactRatShare : LawfulShare ℚ where
  share {a b} ha hab hb _ := by
    change ((0 : ℚ) : ℚ) ≤ (a : ℚ) / (b : ℚ) ∧ (a : ℚ) / (b : ℚ) ≤ ((1 : ℚ) : ℚ)
    have hnum : (0 : ℚ) ≤ a := by exact_mod_cast ha
    have hden : (0 : ℚ) < b := by exact_mod_cast hb
    have hle : (a : ℚ) ≤ b := by exact_mod_cast hab
    exact ⟨div_nonneg hnum hden.le, (div_le_one hden).mpr hle⟩
  scale {x n} hx hone hn _ := by
    change ((0 : ℚ) : ℚ) ≤ x * (n : ℚ) ∧ x * (n : ℚ) ≤ n
    have hnum : (0 : ℚ) ≤ n := by exact_mod_cast hn
    exact ⟨mul_nonneg hx hnum, mul_le_of_le_one_left hnum hone⟩
  trunc_mem hx hn _ _ := exactTrunc_mem hx hn

instance exactRatDouble : CDouble ℚ ℚ := ⟨id, id⟩

instance exactRatLawful : LawfulDouble ℚ where
  le_of_not_lt _ _ h := not_lt.mp h
  le_refl _ := le_rfl
  zero_le_one := by
    change ((0 : ℚ) : ℚ) ≤ ((1 : ℚ) : ℚ)
    exact zero_le_one
  isFinite_one := rfl
  isFinite_ratio _ _ _ _ _ := rfl
  lround_mem hx hn _ _ := exactRound_mem hx hn

end Taq102.Lib
