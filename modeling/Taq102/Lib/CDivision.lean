import Mathlib.Tactic.Linarith
import Taq102.Lib.CFloat

/-! Exact arithmetic in which a division by zero has no value, and neither has anything computed from
it. Code that yields a value here divides by zero nowhere. -/
namespace Taq102.Lib
variable (K : Type) [Field K] [LinearOrder K] [FloorRing K]

@[reducible] def checked : CFloat (Option K) where
  add a b := a.bind fun x => b.map (x + ·)
  sub a b := a.bind fun x => b.map (x - ·)
  mul a b := a.bind fun x => b.map (x * ·)
  div a b := a.bind fun x => b.bind fun y => if y = 0 then none else some (x / y)
  lt a b := ∃ x ∈ a, ∃ y ∈ b, x < y
  le a b := ∃ x ∈ a, ∃ y ∈ b, x ≤ y
  decLt _ _ := inferInstance
  decLe _ _ := inferInstance
  lit q := some (q : K)
  ofInt n := some (n : K)
  abs a := a.map fun x => max x (-x)
  lround a := exactRound (a.getD 0)
  trunc a := exactTrunc (a.getD 0)
  isFinite a := a.isSome
  isFinite_zero := rfl

end Taq102.Lib
