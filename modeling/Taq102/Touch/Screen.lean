import Mathlib.Data.Rat.Floor
import Mathlib.Tactic.FieldSimp
import Taq102.Touch.Filter

/-! Where `touch_flip_value` puts a touch, in exact arithmetic. -/
namespace Taq102.Touch
open Taq102.Lib CFloat

def TouchAxis.pick {α : Type} (axis : TouchAxis) (x y : α) : α := if axis = .x then x else y

/-- The raw coordinates a touch on the screen can have. -/
def OnScreen (extent declared raw : Int) : Prop :=
  0 ≤ raw ∧ raw ≤ if declared > 0 then declared else extent - 1

/-- The scale of an axis as a quotient. -/
def scaleNum (extent declared : Int) : Int := if declared > 0 then extent else 1

def scaleDen (declared : Int) : Int := if declared > 0 then declared + 1 else 1

/-- The pixel nearest to a scaled coordinate. -/
def nearestPixel (extent declared raw : Int) : Int :=
  (2 * (raw * scaleNum extent declared) + scaleDen declared) / (2 * scaleDen declared)

section Axis
variable {extent declared raw raw' : Int}

theorem scaleDen_pos (declared : Int) : 0 < scaleDen declared := by
  rw [scaleDen]
  split <;> omega

theorem scaleNum_pos (h : 1 ≤ extent) (declared : Int) : 0 < scaleNum extent declared := by
  rw [scaleNum]
  split <;> omega

theorem lround_scaled (h : 1 ≤ extent) (hraw : 0 ≤ raw) :
    lround ((ofInt raw * (if declared > 0 then ofInt extent / ofInt (declared + 1) else lit 1)) : ℚ) =
      nearestPixel extent declared raw := by
  have hnum := scaleNum_pos h declared
  have hden := scaleDen_pos declared
  have hscale : (if declared > 0 then ofInt extent / ofInt (declared + 1) else lit 1 : ℚ) =
      (scaleNum extent declared : ℚ) / scaleDen declared := by
    rw [scaleNum, scaleDen]
    split
    · rfl
    · change ((1 : ℚ) : ℚ) = _
      norm_num
  have hnum' : (0 : ℚ) < scaleNum extent declared := by exact_mod_cast hnum
  have hden' : (0 : ℚ) < scaleDen declared := by exact_mod_cast hden
  have hraw' : (0 : ℚ) ≤ raw := by exact_mod_cast hraw
  have hpos : (0 : ℚ) ≤ raw * (scaleNum extent declared / scaleDen declared) := by positivity
  rw [hscale]
  change exactRound ((raw : ℚ) * _) = _
  rw [exactRound, if_neg hpos.not_gt, nearestPixel]
  have hquot : (raw : ℚ) * (scaleNum extent declared / scaleDen declared) + 1 / 2 =
      ((2 * (raw * scaleNum extent declared) + scaleDen declared : ℤ) : ℚ) /
        ((2 * scaleDen declared : ℤ) : ℚ) := by
    push_cast
    field_simp
  obtain ⟨d, hd⟩ := Int.eq_ofNat_of_zero_le (by omega : 0 ≤ 2 * scaleDen declared)
  rw [hquot, hd, Int.cast_natCast, Rat.floor_intCast_div_natCast]

theorem nearestPixel_nonneg (h : 1 ≤ extent) (declared : Int) (hraw : 0 ≤ raw) :
    0 ≤ nearestPixel extent declared raw := by
  have hden := scaleDen_pos declared
  have hprod := Int.mul_nonneg hraw (scaleNum_pos h declared).le
  exact Int.ediv_nonneg (by omega) (by omega)

/-- The first half pixel is rounded to the edge. -/
theorem one_le_nearestPixel_iff : 1 ≤ nearestPixel extent declared raw ↔
    scaleDen declared ≤ 2 * (raw * scaleNum extent declared) := by
  have hden := scaleDen_pos declared
  rw [nearestPixel, Int.le_ediv_iff_mul_le (by omega)]
  omega

/-- The last half pixel is rounded past the other edge. -/
theorem nearestPixel_lt_iff : nearestPixel extent declared raw < extent ↔
    2 * (raw * scaleNum extent declared) < (2 * extent - 1) * scaleDen declared := by
  have hden := scaleDen_pos declared
  rw [nearestPixel, Int.ediv_lt_iff_lt_mul (by omega)]
  have hexpand : extent * (2 * scaleDen declared) =
      (2 * extent - 1) * scaleDen declared + scaleDen declared := by ring
  omega

theorem scaled_le (h : 1 ≤ extent) (hraw : OnScreen extent declared raw) :
    raw * scaleNum extent declared + scaleNum extent declared ≤ extent * scaleDen declared := by
  obtain ⟨hlow, hhigh⟩ := hraw
  rw [scaleNum, scaleDen]
  split at hhigh
  · rename_i hpos
    rw [if_pos hpos, if_pos hpos]
    nlinarith
  · rename_i hzero
    rw [if_neg hzero, if_neg hzero]
    omega

theorem nearestPixel_le (h : 1 ≤ extent) (hraw : OnScreen extent declared raw) :
    nearestPixel extent declared raw ≤ extent := by
  have hden := scaleDen_pos declared
  have hnum := scaleNum_pos h declared
  have hle := scaled_le h hraw
  apply Int.le_of_lt_add_one
  rw [nearestPixel, Int.ediv_lt_iff_lt_mul (by omega)]
  have hexpand : (extent + 1) * (2 * scaleDen declared) =
      2 * (extent * scaleDen declared) + 2 * scaleDen declared := by ring
  omega

theorem nearestPixel_mono (h : 1 ≤ extent) (declared : Int) (hle : raw ≤ raw') :
    nearestPixel extent declared raw ≤ nearestPixel extent declared raw' := by
  have hden := scaleDen_pos declared
  have hprod := Int.mul_le_mul_of_nonneg_right hle (scaleNum_pos h declared).le
  exact Int.ediv_le_ediv (by omega) (by omega)

/-- The raw coordinates that reach a pixel of the screen. -/
def Lands (extent declared raw : Int) (mirrored : Bool) : Prop :=
  if mirrored then scaleDen declared ≤ 2 * (raw * scaleNum extent declared)
  else 2 * (raw * scaleNum extent declared) < (2 * extent - 1) * scaleDen declared

/-- The pixel of an axis that is mirrored or not. -/
def axisPixel (extent declared raw : Int) (mirrored : Bool) : Int :=
  if mirrored then extent - nearestPixel extent declared raw else nearestPixel extent declared raw

theorem axisPixel_iff (h : 1 ≤ extent) (hraw : OnScreen extent declared raw) (mirrored : Bool) :
    (0 ≤ axisPixel extent declared raw mirrored ∧ axisPixel extent declared raw mirrored ≤ extent - 1) ↔
      Lands extent declared raw mirrored := by
  have hlow := nearestPixel_nonneg h declared hraw.1
  have hhigh := nearestPixel_le h hraw
  cases mirrored with
  | true =>
    rw [Lands, axisPixel, if_pos rfl, if_pos rfl, ← one_le_nearestPixel_iff]
    omega
  | false =>
    rw [Lands, axisPixel, if_neg Bool.false_ne_true, if_neg Bool.false_ne_true, ← nearestPixel_lt_iff]
    omega

/-- All touches land on the screen when the axis is not mirrored and has less than two raw units
to a pixel. -/
theorem lands_all_iff (h : 1 ≤ extent) (hdeclared : 0 ≤ declared) (mirrored : Bool) :
    (∀ raw, OnScreen extent declared raw → Lands extent declared raw mirrored) ↔
      mirrored = false ∧ (declared = 0 ∨ declared + 1 < 2 * extent) := by
  have hden := scaleDen_pos declared
  constructor
  · intro hall
    have hfirst : mirrored = false := by
      by_contra hmirrored
      have hzero : OnScreen extent declared 0 := ⟨Int.le_refl 0, by split <;> omega⟩
      have hland := hall 0 hzero
      rw [Lands, if_pos (by simpa using hmirrored)] at hland
      omega
    refine ⟨hfirst, ?_⟩
    by_cases hzero : declared = 0
    · exact .inl hzero
    · have hpos : declared > 0 := by omega
      have hland := hall declared ⟨hdeclared, by rw [if_pos hpos]⟩
      rw [Lands, if_neg (by simp [hfirst]), scaleNum, scaleDen, if_pos hpos, if_pos hpos] at hland
      exact .inr (by nlinarith)
  · rintro ⟨rfl, hsmall⟩ raw ⟨hlow, hhigh⟩
    rw [Lands, if_neg Bool.false_ne_true, scaleNum, scaleDen]
    rcases hsmall with rfl | hsmall
    · rw [if_neg (by omega)] at hhigh
      rw [if_neg (by omega), if_neg (by omega)]
      omega
    · by_cases hpos : declared > 0
      · rw [if_pos hpos] at hhigh
        rw [if_pos hpos, if_pos hpos]
        nlinarith
      · rw [if_neg hpos] at hhigh
        rw [if_neg hpos, if_neg hpos]
        omega

end Axis

section Value
variable {width height declaredX declaredY raw : Int} {mode : Option String} {axis : TouchAxis}

/-- A configured axis scales, and is mirrored when the mode names it and the screen is turned. -/
theorem touchFlipValue_eq (hw : 1 ≤ width) (hh : 1 ≤ height) (hraw : 0 ≤ raw) (flipped : Bool) :
    let config := (touchFlipConfigure (F := ℚ) width height declaredX declaredY mode).1
    touchFlipValue config axis raw flipped =
      axisPixel (axis.pick width height) (axis.pick declaredX declaredY) raw
        (flipped && axis.pick config.flipX config.flipY) := by
  intro config
  have hsize : config.width = width ∧ config.height = height := by
    constructor <;> (simp only [config, touchFlipConfigure]; split <;> rfl)
  have hscale : config.scaleX = (if declaredX > 0 then ofInt width / ofInt (declaredX + 1) else lit 1) ∧
      config.scaleY = (if declaredY > 0 then ofInt height / ofInt (declaredY + 1) else lit 1) := by
    constructor <;> (simp only [config, touchFlipConfigure]; split <;> rfl)
  rw [touchFlipValue, hsize.1, hsize.2, hscale.1, hscale.2]
  cases axis with
  | x =>
    rw [if_pos rfl, lround_scaled hw hraw, axisPixel]
    cases flipped <;> cases config.flipX <;> simp [TouchAxis.pick]
  | y =>
    have hother : ¬ TouchAxis.y = TouchAxis.x := by decide
    rw [if_neg hother, lround_scaled hh hraw, axisPixel]
    cases flipped <;> cases config.flipY <;> simp [TouchAxis.pick]

/-- Exactly the touches of a mirrored axis that are rounded to its first pixel, and those of a
plain axis that are rounded past its last, leave the screen; the order of touches is kept. -/
theorem touchFlipValue_on_screen (width height declaredX declaredY : Int) (mode : Option String)
    (axis : TouchAxis) (flipped : Bool) (hw : 1 ≤ width) (hh : 1 ≤ height) (hx : 0 ≤ declaredX)
    (hy : 0 ≤ declaredY) :
    let config := (touchFlipConfigure (F := ℚ) width height declaredX declaredY mode).1
    let extent := axis.pick width height
    let declared := axis.pick declaredX declaredY
    let mirrored := flipped && axis.pick config.flipX config.flipY
    let value (raw : Int) := touchFlipValue config axis raw flipped
    (∀ raw, OnScreen extent declared raw →
        ((0 ≤ value raw ∧ value raw ≤ extent - 1) ↔ Lands extent declared raw mirrored)) ∧
      ((∀ raw, OnScreen extent declared raw → 0 ≤ value raw ∧ value raw ≤ extent - 1) ↔
        mirrored = false ∧ (declared = 0 ∨ declared + 1 < 2 * extent)) ∧
      ∀ raw raw', OnScreen extent declared raw → OnScreen extent declared raw' → raw ≤ raw' →
        if mirrored then value raw' ≤ value raw else value raw ≤ value raw' := by
  intro config extent declared mirrored value
  have hextent : 1 ≤ extent := by
    cases axis with
    | x => exact hw
    | y => exact hh
  have hdeclared : 0 ≤ declared := by
    cases axis with
    | x => exact hx
    | y => exact hy
  have hvalue (raw : Int) (hraw : OnScreen extent declared raw) :
      value raw = axisPixel extent declared raw mirrored := touchFlipValue_eq hw hh hraw.1 flipped
  have hland (raw : Int) (hraw : OnScreen extent declared raw) :
      (0 ≤ value raw ∧ value raw ≤ extent - 1) ↔ Lands extent declared raw mirrored := by
    rw [hvalue raw hraw]
    exact axisPixel_iff hextent hraw mirrored
  refine ⟨hland, ?_, fun raw raw' hraw hraw' hle => ?_⟩
  · rw [← lands_all_iff hextent hdeclared mirrored]
    exact forall₂_congr hland
  · have hmono := nearestPixel_mono hextent declared hle
    rw [hvalue raw hraw, hvalue raw' hraw', axisPixel, axisPixel]
    split <;> omega

/-- The panel's own range, upright, keeps every touch on the screen. -/
theorem upright_on_screen :
    let config := (touchFlipConfigure (F := ℚ) 1024 600 1663 895 none).1
    ∀ raw, OnScreen 1024 1663 raw →
      0 ≤ touchFlipValue config .x raw false ∧ touchFlipValue config .x raw false ≤ 1023 :=
  (touchFlipValue_on_screen 1024 600 1663 895 none .x false (by decide) (by decide) (by decide)
    (by decide)).2.1.mpr (by decide)

/-- A turned touch at the first raw column is put right of the screen. -/
theorem first_column_off_screen :
    let config := (touchFlipConfigure (F := ℚ) 1024 600 1023 599 (some "xy")).1
    OnScreen 1024 1023 0 ∧ ¬ touchFlipValue config .x 0 true ≤ 1024 - 1 := by
  refine ⟨⟨by decide, by decide⟩, ?_⟩
  rw [touchFlipValue_eq (by decide) (by decide) (by decide)]
  decide

end Value

end Taq102.Touch
