import Mathlib.Data.Nat.Dist
import Mathlib.Tactic.IntervalCases
import Mathlib.Tactic.Linarith
import Mathlib.Tactic.Ring
import Taq102.Battery.Probe
import Taq102.Battery.Reboot

/-! The voltage line of the factory calibration, in `int` arithmetic. -/
namespace Taq102.Battery
open Taq102.Lib Fallible

/-- A product of `int` values, none where it overflows. -/
def mulInt (a b : Int) : Option Int :=
  if -2147483648 ≤ a * b ∧ a * b ≤ 2147483647 then some (a * b) else none

structure VoltageLine where
  voltageK : Int
  voltageB : Int
  deriving DecidableEq, Repr

/-- The line through 3.0 V and 4.2 V. -/
def voltageLine (vcalib0 vcalib1 : Int) : Option VoltageLine :=
  let k := Int.tdiv ((4200 - 3000) * 1000) (vcalib1 - vcalib0)
  (mulInt k vcalib1).map fun product => { voltageK := k, voltageB := 4200 - Int.tdiv product 1000 }

/-- `rk816_bat_calib_vol` on what its two reads return; a line is none where a product overflows. -/
def rk816BatCalibVol (vcalib0 vcalib1 : Except Int Nat) : Except ProbeError (Option VoltageLine) :=
  match vcalib0 with
  | .error code => .error { code := code, message := none }
  | .ok vcalib0 =>
    match vcalib1 with
    | .error code => .error { code := code, message := none }
    | .ok vcalib1 =>
      if vcalib1 = vcalib0 then
        .error (refused ("bad voltage calibration: vcalib0 == vcalib1 == " ++ toString vcalib0 ++ "\n"))
      else .ok (voltageLine vcalib0 vcalib1)

/-- The products of `rk816_bat_get_vol_uv`. -/
def volUv (line : VoltageLine) (adc : Int) : Option Int :=
  (mulInt line.voltageK adc).bind fun product =>
    mulInt (Int.tdiv product 1000 + line.voltageB) 1100

theorem mulInt_eq_some {a b c : Int} :
    mulInt a b = some c ↔ c = a * b ∧ -2147483648 ≤ a * b ∧ a * b ≤ 2147483647 := by
  rw [mulInt]
  split
  · rename_i hfits
    rw [Option.some_inj]
    exact ⟨fun h => ⟨h.symm, hfits⟩, fun h => h.1.symm⟩
  · rename_i hwraps
    constructor
    · intro h
      cases h
    · intro h
      exact absurd h.2 hwraps

/-- Where nothing overflows a reading is the one of the driver. -/
theorem getVolUv_of_volUv {d : Device} {reg : Fin 2 → Reg} {v : Int} (hquiet : d.faults = [])
    (h : volUv { voltageK := d.cg.voltageK, voltageB := d.cg.voltageB }
      (be16 fun i => d.regs (reg i)) = some v) : rk816BatGetVolUv reg d = (.ok v, d) := by
  obtain ⟨product, hproduct, hvoltage⟩ := Option.bind_eq_some_iff.mp h
  obtain ⟨rfl, -⟩ := mulInt_eq_some.mp hproduct
  obtain ⟨rfl, -⟩ := mulInt_eq_some.mp hvoltage
  rw [rk816BatGetVolUv, bind_of_ok (regmapRead16be_quiet hquiet reg)]
  rfl

/-- No product overflows and the voltage is not negative. -/
def ReadsVoltage (vcalib0 vcalib1 adc : Int) : Prop :=
  ∃ line v, voltageLine vcalib0 vcalib1 = some line ∧ volUv line adc = some v ∧ 0 ≤ v

theorem readsVoltage_iff {vcalib0 vcalib1 adc : Int} :
    let k := Int.tdiv 1200000 (vcalib1 - vcalib0)
    let mv := Int.tdiv (k * adc) 1000 + (4200 - Int.tdiv (k * vcalib1) 1000)
    ReadsVoltage vcalib0 vcalib1 adc ↔
      (-2147483648 ≤ k * vcalib1 ∧ k * vcalib1 ≤ 2147483647) ∧
        (-2147483648 ≤ k * adc ∧ k * adc ≤ 2147483647) ∧ 0 ≤ mv ∧ mv ≤ 1952257 := by
  intro k mv
  constructor
  · rintro ⟨line, v, hline, hv, hpos⟩
    obtain ⟨product, hproduct, rfl⟩ := Option.map_eq_some_iff.mp hline
    obtain ⟨scaled, hscaled, hvoltage⟩ := Option.bind_eq_some_iff.mp hv
    obtain ⟨rfl, hfits⟩ := mulInt_eq_some.mp hproduct
    obtain ⟨rfl, hfits'⟩ := mulInt_eq_some.mp hscaled
    obtain ⟨rfl, hlow, hhigh⟩ := mulInt_eq_some.mp hvoltage
    change 0 ≤ mv * 1100 at hpos
    change mv * 1100 ≤ _ at hhigh
    exact ⟨hfits, hfits', by omega, by omega⟩
  · rintro ⟨hfits, hfits', hlow, hhigh⟩
    have hvoltage : mulInt mv 1100 = some (mv * 1100) := mulInt_eq_some.mpr ⟨rfl, by omega, by omega⟩
    refine ⟨{ voltageK := k, voltageB := 4200 - Int.tdiv (k * vcalib1) 1000 }, mv * 1100, ?_, ?_,
      by omega⟩
    · exact Option.map_eq_some_iff.mpr ⟨k * vcalib1, mulInt_eq_some.mpr ⟨rfl, hfits⟩, rfl⟩
    · refine Option.bind_eq_some_iff.mpr ⟨k * adc, mulInt_eq_some.mpr ⟨rfl, hfits'⟩, ?_⟩
      exact hvoltage

/-- With `n` the quotient of 1200000 by the distance of the two points: `n` times either reading
fits 31 bits, and in units of 1000 the two differ by no more than 4200 below the upper point and
no more than an `int` of microvolts can hold above it. -/
def CalibrationFits (vcalib0 vcalib1 adc : Nat) : Prop :=
  let n := 1200000 / Nat.dist vcalib0 vcalib1
  let up := if vcalib0 < vcalib1 then adc else vcalib1
  let down := if vcalib0 < vcalib1 then vcalib1 else adc
  n * vcalib1 < 2147483648 ∧ n * adc < 2147483648 ∧
    n * down / 1000 ≤ n * up / 1000 + 4200 ∧ n * up / 1000 + 4200 ≤ n * down / 1000 + 1952257

/-- No multiple of a quotient is the one value that only a negative product can take. -/
theorem quotient_mul_ne {d r : Nat} (hr : r < 65536) : 1200000 / d * r ≠ 2147483648 := by
  intro heq
  by_cases hbig : 37 ≤ d
  · have hquot : 1200000 / d ≤ 1200000 / 37 := Nat.div_le_div_left hbig (by decide)
    have hle : 1200000 / d * r ≤ 32432 * 65535 := Nat.mul_le_mul hquot (by omega)
    omega
  · interval_cases d <;> omega

/-- Every accepted calibration and every reading: the voltage is computed without an overflow, and
is no error code, exactly when the readings fit. -/
theorem calibrated_voltage_iff {vcalib0 vcalib1 adc : Nat} (h1 : vcalib1 < 65536)
    (hadc : adc < 65536) {line : Option VoltageLine}
    (haccepted : rk816BatCalibVol (.ok vcalib0) (.ok vcalib1) = .ok line) :
    (∃ l v, line = some l ∧ volUv l adc = some v ∧ 0 ≤ v) ↔ CalibrationFits vcalib0 vcalib1 adc := by
  have hne : vcalib1 ≠ vcalib0 := by
    intro heq
    rw [rk816BatCalibVol, if_pos heq] at haccepted
    cases haccepted
  rw [rk816BatCalibVol, if_neg hne, Except.ok.injEq] at haccepted
  subst haccepted
  have hscale (r : Nat) : Int.tdiv ((1200000 / Nat.dist vcalib0 vcalib1 * r : Nat) : Int) 1000 =
      (1200000 / Nat.dist vcalib0 vcalib1 * r / 1000 : Nat) := rfl
  have hkeep := quotient_mul_ne (d := Nat.dist vcalib0 vcalib1) h1
  have hkeep' := quotient_mul_ne (d := Nat.dist vcalib0 vcalib1) hadc
  refine readsVoltage_iff.trans ?_
  by_cases hup : vcalib0 < vcalib1
  · have hk : Int.tdiv 1200000 ((vcalib1 : Int) - vcalib0) =
        (1200000 / Nat.dist vcalib0 vcalib1 : Nat) := by
      rw [Nat.dist_eq_sub_of_le hup.le, ← Int.ofNat_sub hup.le]
      rfl
    simp only [hk, ← Nat.cast_mul, hscale, CalibrationFits, if_pos hup]
    omega
  · have hk : Int.tdiv 1200000 ((vcalib1 : Int) - vcalib0) =
        -((1200000 / Nat.dist vcalib0 vcalib1 : Nat) : Int) := by
      have hle : vcalib1 ≤ vcalib0 := by omega
      rw [Nat.dist_eq_sub_of_le_right hle, ← Int.neg_sub, Int.tdiv_neg, ← Int.ofNat_sub hle]
      rfl
    simp only [hk, Int.neg_mul, Int.neg_tdiv, ← Nat.cast_mul, hscale, CalibrationFits, if_neg hup]
    omega

/-- A factory calibration in the usual range, read near the middle. -/
theorem factory_voltage :
    ∃ l v, voltageLine 12000 16800 = some l ∧ volUv l 15200 = some v ∧ 0 ≤ v :=
  (@calibrated_voltage_iff 12000 16800 15200 (by decide) (by decide) _ rfl).mpr
    ⟨by decide, by decide, by decide, by decide⟩

/-- Two high points next to each other overflow a product, and under the line of two points a
little high a reading of zero is a negative voltage. -/
theorem line_without_voltage :
    rk816BatCalibVol (.ok 60000) (.ok 60001) = .ok none ∧
      ∃ l v, rk816BatCalibVol (.ok 13000) (.ok 17800) = .ok (some l) ∧ volUv l 0 = some v ∧ v < 0 :=
  ⟨by decide, { voltageK := 250, voltageB := -250 }, -275000, by decide, by decide, by decide⟩

end Taq102.Battery
