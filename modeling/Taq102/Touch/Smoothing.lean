import Taq102.Lib.CDivision
import Taq102.Lib.CMath
import Taq102.Lib.Hull
import Taq102.Touch.Filter

/-! The 1€ filter over the real numbers. It divides by zero nowhere, and each output lies between the
output before and the new sample. -/
namespace Taq102.Touch.Smoothing
open Taq102.Lib CFloat

section Parts
variable {F : Type} [CFloat F]

/-- The interval a sample is taken to have come after. -/
def usedInterval (f : OneEuro F) (t : F) : F :=
  if t - f.tPrev ≤ lit 0 ∨ lit 1 < t - f.tPrev then lit 1 / lit 60 else t - f.tPrev

/-- The filtered derivative. -/
def speed (f : OneEuro F) (x dt : F) : F :=
  alpha f.dcutoff dt * ((x - f.xPrev) / dt) + (lit 1 - alpha f.dcutoff dt) * f.dxPrev

/-- The share of the new sample in the output. -/
def share (f : OneEuro F) (x dt : F) : F :=
  alpha (f.mincutoff + f.beta * CFloat.abs (speed f x dt)) dt

def blend (f : OneEuro F) (x dt : F) : F := share f x dt * x + (lit 1 - share f x dt) * f.xPrev

theorem oneeuroApply_started {f : OneEuro F} (h : f.started = true) (x t : F) : oneeuroApply f x t =
    (blend f x (usedInterval f t),
      { f with
        xPrev := blend f x (usedInterval f t)
        dxPrev := speed f x (usedInterval f t)
        tPrev := t }) := by
  rw [oneeuroApply, h]
  rfl

/-- The filter remembers its output and keeps its settings. -/
theorem oneeuroApply_keeps (f : OneEuro F) (x t : F) :
    (oneeuroApply f x t).2.started = true ∧ (oneeuroApply f x t).2.xPrev = (oneeuroApply f x t).1 ∧
      (oneeuroApply f x t).2.mincutoff = f.mincutoff ∧ (oneeuroApply f x t).2.beta = f.beta ∧
      (oneeuroApply f x t).2.dcutoff = f.dcutoff := by
  cases h : f.started with
  | true =>
    rw [oneeuroApply_started h]
    exact ⟨h, rfl, rfl, rfl, rfl⟩
  | false =>
    rw [oneeuroApply, h]
    exact ⟨rfl, rfl, rfl, rfl, rfl⟩

end Parts

section Real

/-- Settings under which the cutoffs are positive. -/
structure Sound (f : OneEuro ℝ) : Prop where
  mincutoff : 0 < f.mincutoff
  beta : 0 ≤ f.beta
  dcutoff : 0 < f.dcutoff

theorem Sound.apply {f : OneEuro ℝ} (h : Sound f) (x t : ℝ) : Sound (oneeuroApply f x t).2 := by
  obtain ⟨_, _, hmincutoff, hbeta, hdcutoff⟩ := oneeuroApply_keeps f x t
  exact ⟨hmincutoff ▸ h.mincutoff, hbeta ▸ h.beta, hdcutoff ▸ h.dcutoff⟩

theorem sound_init {mincutoff beta : ℝ} (hmincutoff : 0 < mincutoff) (hbeta : 0 ≤ beta) :
    Sound (oneeuroInit mincutoff beta) where
  mincutoff := hmincutoff
  beta := hbeta
  dcutoff := by
    change (0 : ℝ) < ((1 : ℚ) : ℝ)
    rw [Rat.cast_one]
    exact one_pos

theorem usedInterval_pos (f : OneEuro ℝ) (t : ℝ) : 0 < usedInterval f t := by
  by_cases h : t - f.tPrev ≤ lit 0 ∨ lit 1 < t - f.tPrev
  · have hfixed : usedInterval f t = ((1 : ℚ) : ℝ) / ((60 : ℚ) : ℝ) := if_pos h
    rw [hfixed]
    norm_num
  · have hmeasured : usedInterval f t = t - f.tPrev := if_neg h
    have hpos := (not_or.mp h).1
    rw [lit_real, Rat.cast_zero, not_le] at hpos
    rw [hmeasured]
    exact hpos

/-- The circle constant of `alpha`. -/
noncomputable def circle : ℝ := ((3.14159265358979323846 : ℚ) : ℝ)

theorem circle_pos : 0 < circle := by
  unfold circle
  norm_num

theorem alpha_real (cutoff dt : ℝ) :
    alpha cutoff dt = 1 / (1 + 1 / (2 * circle * cutoff) / dt) := by
  simp only [alpha, lit_real, Rat.cast_one, Rat.cast_ofNat]
  rfl

/-- What `alpha` divides by is positive. -/
theorem alpha_divisors {cutoff dt : ℝ} (hcutoff : 0 < cutoff) (hdt : 0 < dt) :
    0 < 2 * circle * cutoff ∧ 0 < 1 / (2 * circle * cutoff) / dt := by
  have hcircle := circle_pos
  constructor <;> positivity

theorem alpha_mem {cutoff dt : ℝ} (hcutoff : 0 < cutoff) (hdt : 0 < dt) :
    0 < alpha cutoff dt ∧ alpha cutoff dt < 1 := by
  obtain ⟨_, hratio⟩ := alpha_divisors hcutoff hdt
  rw [alpha_real]
  constructor
  · positivity
  · rw [div_lt_one (by positivity)]
    exact lt_add_of_pos_right 1 hratio

theorem Sound.cutoff_pos {f : OneEuro ℝ} (h : Sound f) (v : ℝ) :
    0 < f.mincutoff + f.beta * CFloat.abs v := by
  have habs : (0 : ℝ) ≤ CFloat.abs v := by
    change 0 ≤ max v (-v)
    exact abs_nonneg v
  exact add_pos_of_pos_of_nonneg h.mincutoff (mul_nonneg h.beta habs)

/-- Every output lies between the output before and the sample. -/
theorem Sound.between {f : OneEuro ℝ} (h : Sound f) (hstarted : f.started = true) (x t : ℝ) :
    (oneeuroApply f x t).1 ∈ Set.uIcc f.xPrev x := by
  obtain ⟨hpos, hone⟩ := alpha_mem (h.cutoff_pos (speed f x (usedInterval f t))) (usedInterval_pos f t)
  have hblend : blend f x (usedInterval f t) = share f x (usedInterval f t) * x +
      (1 - share f x (usedInterval f t)) * f.xPrev := by
    simp only [blend, lit_real, Rat.cast_one]
  rw [oneeuroApply_started hstarted, hblend]
  exact lowPass_mem_uIcc hpos.le hone.le f.xPrev x

end Real

section Division

noncomputable instance checkedReal : CFloat (Option ℝ) := checked ℝ

/-- A filter whose values are all there. -/
def lift (f : OneEuro ℝ) : OneEuro (Option ℝ) where
  mincutoff := some f.mincutoff
  beta := some f.beta
  dcutoff := some f.dcutoff
  xPrev := some f.xPrev
  dxPrev := some f.dxPrev
  tPrev := some f.tPrev
  started := f.started

theorem checked_lit (q : ℚ) : (lit q : Option ℝ) = some (lit q) := rfl

theorem checked_add (a b : ℝ) : (some a + some b : Option ℝ) = some (a + b) := rfl

theorem checked_sub (a b : ℝ) : (some a - some b : Option ℝ) = some (a - b) := rfl

theorem checked_mul (a b : ℝ) : (some a * some b : Option ℝ) = some (a * b) := rfl

theorem checked_div (a : ℝ) {b : ℝ} (hb : b ≠ 0) : (some a / some b : Option ℝ) = some (a / b) :=
  if_neg hb

theorem checked_abs (a : ℝ) : CFloat.abs (some a : Option ℝ) = some (CFloat.abs a) := rfl

theorem checked_le (a b : ℝ) : CFloat.le (some a : Option ℝ) (some b) ↔ a ≤ b := by
  constructor
  · rintro ⟨_, ⟨⟩, _, ⟨⟩, h⟩
    exact h
  · exact fun h => ⟨a, rfl, b, rfl, h⟩

theorem checked_lt (a b : ℝ) : CFloat.lt (some a : Option ℝ) (some b) ↔ a < b := by
  constructor
  · rintro ⟨_, ⟨⟩, _, ⟨⟩, h⟩
    exact h
  · exact fun h => ⟨a, rfl, b, rfl, h⟩

theorem checked_interval (f : OneEuro ℝ) (t : ℝ) :
    usedInterval (lift f) (some t) = some (usedInterval f t) := by
  have hsixty : (lit 60 : ℝ) ≠ 0 := by
    rw [lit_real]
    norm_num
  have hcond : (CFloat.le (some (t - f.tPrev) : Option ℝ) (lit 0) ∨
      CFloat.lt (lit 1) (some (t - f.tPrev) : Option ℝ)) ↔
      (t - f.tPrev ≤ lit 0 ∨ lit 1 < t - f.tPrev) := by
    rw [checked_lit, checked_lit, checked_le, checked_lt]
  by_cases h : t - f.tPrev ≤ lit 0 ∨ lit 1 < t - f.tPrev
  · have hreal : usedInterval f t = lit 1 / lit 60 := if_pos h
    have hchecked : usedInterval (lift f) (some t) = lit 1 / lit 60 := if_pos (hcond.mpr h)
    rw [hchecked, hreal, checked_lit, checked_lit, checked_div _ hsixty]
  · have hreal : usedInterval f t = t - f.tPrev := if_neg h
    have hchecked : usedInterval (lift f) (some t) = some (t - f.tPrev) :=
      if_neg fun h' => h (hcond.mp h')
    rw [hchecked, hreal]

theorem checked_alpha {cutoff dt : ℝ} (hcutoff : 0 < cutoff) (hdt : 0 < dt) :
    alpha (some cutoff : Option ℝ) (some dt) = some (alpha cutoff dt) := by
  obtain ⟨htau, hratio⟩ := alpha_divisors hcutoff hdt
  have hcircle : (lit 2 * lit 3.14159265358979323846 * cutoff : ℝ) = 2 * circle * cutoff := by
    rw [lit_real, lit_real, Rat.cast_ofNat]
    rfl
  have hsum : (lit 1 + lit 1 / (2 * circle * cutoff) / dt : ℝ) ≠ 0 := by
    rw [lit_real, Rat.cast_one]
    positivity
  simp only [alpha, checked_lit, checked_mul, hcircle]
  rw [checked_div _ htau.ne', checked_div _ hdt.ne', checked_add, checked_div _ hsum]

/-- In arithmetic without division by zero the filter computes what it does over the reals. -/
def Divides (f : OneEuro ℝ) (x t : ℝ) : Prop :=
  oneeuroApply (lift f) (some x) (some t) = (some (oneeuroApply f x t).1, lift (oneeuroApply f x t).2)

theorem Sound.divides {f : OneEuro ℝ} (h : Sound f) (x t : ℝ) : Divides f x t := by
  unfold Divides
  cases hstarted : f.started with
  | false =>
    have hlift : (lift f).started = false := hstarted
    rw [oneeuroApply, hlift, oneeuroApply, hstarted]
    rfl
  | true =>
    have hlift : (lift f).started = true := hstarted
    have hdt := usedInterval_pos f t
    rw [oneeuroApply_started hlift, oneeuroApply_started hstarted, checked_interval]
    generalize usedInterval f t = dt at *
    have hspeed : speed (lift f) (some x) (some dt) = some (speed f x dt) := by
      simp only [speed, lift, checked_lit, checked_alpha h.dcutoff hdt, checked_sub,
        checked_div _ hdt.ne', checked_mul, checked_add]
    have hshare : share (lift f) (some x) (some dt) = some (share f x dt) := by
      rw [share, hspeed]
      change alpha (some f.mincutoff + some f.beta * CFloat.abs (some (speed f x dt))) (some dt) = _
      rw [checked_abs, checked_mul, checked_add, checked_alpha (h.cutoff_pos (speed f x dt)) hdt]
      rfl
    have hblend : blend (lift f) (some x) (some dt) = some (blend f x dt) := by
      rw [blend, hshare]
      change some (share f x dt) * some x + (lit 1 - some (share f x dt)) * some f.xPrev = _
      rw [checked_lit, checked_sub, checked_mul, checked_mul, checked_add]
      rfl
    rw [hspeed, hblend]
    rfl

end Division

/-- The filter after some samples and times. -/
noncomputable def smoothed (mincutoff beta : ℝ) (samples : List (ℝ × ℝ)) : OneEuro ℝ :=
  samples.foldl (fun f sample => (oneeuroApply f sample.1 sample.2).2) (oneeuroInit mincutoff beta)

theorem smoothed_sound {mincutoff beta : ℝ} (hmincutoff : 0 < mincutoff) (hbeta : 0 ≤ beta)
    (samples : List (ℝ × ℝ)) : Sound (smoothed mincutoff beta samples) := by
  induction samples using List.reverseRecOn with
  | nil => exact sound_init hmincutoff hbeta
  | append_singleton samples sample ih =>
    rw [smoothed, List.foldl_concat]
    exact ih.apply _ _

/-- The output after a sample lies between the output of that sample and the next one. -/
theorem smoothed_between {mincutoff beta : ℝ} (hmincutoff : 0 < mincutoff) (hbeta : 0 ≤ beta)
    (before : List (ℝ × ℝ)) (x₀ t₀ x t : ℝ) :
    (oneeuroApply (smoothed mincutoff beta (before ++ [(x₀, t₀)])) x t).1 ∈
      Set.uIcc (oneeuroApply (smoothed mincutoff beta before) x₀ t₀).1 x := by
  have hlast : smoothed mincutoff beta (before ++ [(x₀, t₀)]) =
      (oneeuroApply (smoothed mincutoff beta before) x₀ t₀).2 := List.foldl_concat _ _ _ _
  obtain ⟨hstarted, hlatest, _⟩ := oneeuroApply_keeps (smoothed mincutoff beta before) x₀ t₀
  rw [hlast, ← hlatest]
  exact ((smoothed_sound hmincutoff hbeta before).apply x₀ t₀).between hstarted x t

end Taq102.Touch.Smoothing
