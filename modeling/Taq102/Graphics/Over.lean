import Mathlib.Tactic.Linarith
import Taq102.Graphics.RoundRect

/-! The blend of two pixels in exact arithmetic, and what every sequence of blends keeps. -/
namespace Taq102.Graphics
open Taq102.Lib CFloat

def alphaOf (v : UInt32) : Nat := (v >>> 24).toNat

/-- The colour channel at a shift of 16, 8 or 0. -/
def channelOf (v shift : UInt32) : Nat := ((v >>> shift) &&& 255).toNat

theorem alphaOf_eq (v : UInt32) : alphaOf v = v.toNat / 2 ^ 24 := by
  rw [alphaOf, UInt32.toNat_shiftRight, Nat.shiftRight_eq_div_pow]
  rfl

theorem alphaOf_le (v : UInt32) : alphaOf v ≤ 255 := by
  have hword := v.toNat_lt
  rw [alphaOf_eq]
  omega

theorem and_255 (v : UInt32) : (v &&& 255).toNat = v.toNat % 256 := by
  rw [UInt32.toNat_and]
  exact Nat.and_two_pow_sub_one_eq_mod v.toNat 8

theorem channelOf_lt (v shift : UInt32) : channelOf v shift < 256 := by
  rw [channelOf, and_255]
  exact Nat.mod_lt _ (by omega)

section Exact
variable (dst src : UInt32)

def weightSrc : Nat := alphaOf src * 255

def weightDst : Nat := alphaOf dst * (255 - alphaOf src)

def weightSum : Nat := weightSrc src + weightDst dst src

/-- A channel before its division. -/
def numerator (shift : UInt32) : Nat :=
  channelOf src shift * weightSrc src + channelOf dst shift * weightDst dst src +
    weightSum dst src / 2

def exactAlpha : Nat := (weightSum dst src + 127) / 255

def exactChannel (shift : UInt32) : Nat := numerator dst src shift / weightSum dst src

/-- The divisor is not zero and no intermediate value of the blend needs more than 32 bits, nor
a field of the result more than its eight. -/
structure Fits : Prop where
  alpha_le : alphaOf src ≤ 255
  sum_pos : 0 < weightSum dst src
  sum_lt : weightSum dst src + 127 < 2 ^ 32
  numerator_lt : ∀ shift, numerator dst src shift < 2 ^ 32
  exactAlpha_le : exactAlpha dst src ≤ 255
  exactChannel_le : ∀ shift, exactChannel dst src shift ≤ 255

/-- The blend in numbers that cannot wrap. -/
def exactOver : Nat :=
  if alphaOf src = 0 then dst.toNat
  else if alphaOf src = 255 then src.toNat
  else if alphaOf dst = 0 then src.toNat
  else
    exactAlpha dst src * 2 ^ 24 + exactChannel dst src 16 * 2 ^ 16 + exactChannel dst src 8 * 2 ^ 8 +
      exactChannel dst src 0

end Exact

variable {dst src shift : UInt32}

theorem weightSum_le (dst src : UInt32) : weightSum dst src ≤ 255 * 255 := by
  obtain ⟨rest, hrest⟩ := Nat.exists_eq_add_of_le (alphaOf_le src)
  have hdst := alphaOf_le dst
  have hkeep : 255 - alphaOf src = rest := by omega
  rw [weightSum, weightSrc, weightDst, hkeep]
  nlinarith

/-- The weights add up to at least 255 times either alpha. -/
theorem le_weightSum (dst src : UInt32) : max (alphaOf dst) (alphaOf src) * 255 ≤ weightSum dst src := by
  obtain ⟨rest, hrest⟩ := Nat.exists_eq_add_of_le (alphaOf_le src)
  have hdst := alphaOf_le dst
  have hkeep : 255 - alphaOf src = rest := by omega
  rw [weightSum, weightSrc, weightDst, hkeep]
  rcases Nat.le_total (alphaOf dst) (alphaOf src) with hle | hle
  · rw [max_eq_right hle]
    omega
  · rw [max_eq_left hle]
    nlinarith

theorem le_exactAlpha : max (alphaOf dst) (alphaOf src) ≤ exactAlpha dst src := by
  have hsum := le_weightSum dst src
  rw [exactAlpha]
  omega

/-- The rounded mean of two channels lies between them. -/
theorem exactChannel_between (hpos : 0 < weightSum dst src) (shift : UInt32) :
    min (channelOf dst shift) (channelOf src shift) ≤ exactChannel dst src shift ∧
      exactChannel dst src shift ≤ max (channelOf dst shift) (channelOf src shift) := by
  have hlow : min (channelOf dst shift) (channelOf src shift) * weightSum dst src ≤
      channelOf src shift * weightSrc src + channelOf dst shift * weightDst dst src := by
    rw [weightSum, Nat.mul_add]
    exact Nat.add_le_add (Nat.mul_le_mul_right _ (min_le_right _ _))
      (Nat.mul_le_mul_right _ (min_le_left _ _))
  have hhigh : channelOf src shift * weightSrc src + channelOf dst shift * weightDst dst src ≤
      max (channelOf dst shift) (channelOf src shift) * weightSum dst src := by
    rw [weightSum, Nat.mul_add]
    exact Nat.add_le_add (Nat.mul_le_mul_right _ (le_max_right _ _))
      (Nat.mul_le_mul_right _ (le_max_left _ _))
  constructor
  · apply (Nat.le_div_iff_mul_le hpos).mpr
    rw [numerator]
    omega
  · apply Nat.le_of_lt_succ
    apply (Nat.div_lt_iff_lt_mul hpos).mpr
    rw [numerator, Nat.succ_mul]
    omega

theorem fits_of_pos (hpos : 0 < weightSum dst src) : Fits dst src := by
  have hsum := weightSum_le dst src
  have hchannel (shift : UInt32) : exactChannel dst src shift ≤ 255 := by
    have hsrc := channelOf_lt src shift
    have hdst := channelOf_lt dst shift
    have hbetween := (exactChannel_between hpos shift).2
    omega
  refine ⟨alphaOf_le src, hpos, by omega, fun shift => ?_, ?_, hchannel⟩
  · have hle : numerator dst src shift < (exactChannel dst src shift + 1) * weightSum dst src := by
      rw [exactChannel, Nat.add_mul, Nat.one_mul, Nat.mul_comm]
      exact Nat.lt_mul_div_succ _ hpos
    have hbound := Nat.mul_le_mul (Nat.succ_le_succ (hchannel shift)) hsum
    exact hle.trans_le (hbound.trans (by norm_num))
  · rw [exactAlpha]
    omega

theorem weightSum_pos (h : alphaOf src ≠ 0) : 0 < weightSum dst src := by
  have hle := le_weightSum dst src
  have hmax := le_max_right (alphaOf dst) (alphaOf src)
  omega

theorem fits (dst : UInt32) (h : alphaOf src ≠ 0) : Fits dst src := fits_of_pos (weightSum_pos h)

/-- The words of the blend hold the exact values. -/
theorem toNat_ws (src : UInt32) : ((src >>> 24) * 255).toNat = weightSrc src := by
  have hsrc := alphaOf_le src
  have hword : (255 : UInt32).toNat = 255 := rfl
  rw [UInt32.toNat_mul, hword, weightSrc, alphaOf]
  rw [alphaOf] at hsrc
  omega

theorem toNat_wd (dst src : UInt32) :
    ((dst >>> 24) * ((255 : UInt32) - (src >>> 24))).toNat = weightDst dst src := by
  have hsrc := alphaOf_le src
  have hdst := alphaOf_le dst
  have hkeep : ((255 : UInt32) - (src >>> 24)).toNat = 255 - alphaOf src :=
    UInt32.toNat_sub_of_le _ _ (UInt32.le_iff_toNat_le.mpr hsrc)
  have hle : alphaOf dst * (255 - alphaOf src) ≤ 255 * 255 :=
    Nat.mul_le_mul hdst (Nat.sub_le 255 (alphaOf src))
  rw [UInt32.toNat_mul, hkeep, weightDst]
  exact Nat.mod_eq_of_lt (by rw [← alphaOf]; omega)

theorem toNat_sum (dst src : UInt32) :
    ((src >>> 24) * (255 : UInt32) + (dst >>> 24) * ((255 : UInt32) - (src >>> 24))).toNat = weightSum dst src := by
  have hle := weightSum_le dst src
  rw [UInt32.toNat_add, toNat_ws, toNat_wd, weightSum]
  rw [weightSum] at hle
  exact Nat.mod_eq_of_lt (by omega)

theorem toNat_channel (hfits : Fits dst src) (shift ws wd sum : UInt32) (hws : ws.toNat = weightSrc src)
    (hwd : wd.toNat = weightDst dst src) (hsum : sum.toNat = weightSum dst src) :
    ((((src >>> shift) &&& 255) * ws + ((dst >>> shift) &&& 255) * wd + sum / 2) / sum).toNat =
      exactChannel dst src shift := by
  have hlt := hfits.numerator_lt shift
  have htwo : (2 : UInt32).toNat = 2 := rfl
  have hs : ((src >>> shift) &&& 255).toNat = channelOf src shift := rfl
  have hd : ((dst >>> shift) &&& 255).toNat = channelOf dst shift := rfl
  rw [numerator] at hlt
  rw [UInt32.toNat_div, UInt32.toNat_add, UInt32.toNat_add, UInt32.toNat_mul, UInt32.toNat_mul,
    UInt32.toNat_div, hws, hwd, hsum, htwo, hs, hd, exactChannel, numerator]
  generalize channelOf src shift * weightSrc src = s at hlt ⊢
  generalize channelOf dst shift * weightDst dst src = d at hlt ⊢
  congr 1
  omega

/-- A shifted field and the fields below it share no bit. -/
theorem toNat_or_below {x y : UInt32} {n k : Nat} (hx : x.toNat = n * 2 ^ k) (hy : y.toNat < 2 ^ k) :
    (x ||| y).toNat = n * 2 ^ k + y.toNat := by
  rw [UInt32.toNat_or, hx, Nat.mul_comm]
  exact (Nat.two_pow_add_eq_or_of_lt hy n).symm

theorem toNat_field {v shift : UInt32} (hv : v.toNat ≤ 255) (hshift : shift.toNat ≤ 24) :
    (v <<< shift).toNat = v.toNat * 2 ^ shift.toNat := by
  have hpow : 2 ^ shift.toNat ≤ 2 ^ 24 := Nat.pow_le_pow_right (by omega) hshift
  have hlt := Nat.mul_le_mul hv hpow
  rw [UInt32.toNat_shiftLeft, Nat.mod_eq_of_lt (by omega : shift.toNat < 32), Nat.shiftLeft_eq]
  exact Nat.mod_eq_of_lt (by omega)

theorem toNat_pack {a r g b : UInt32} (ha : a.toNat ≤ 255) (hr : r.toNat ≤ 255)
    (hg : g.toNat ≤ 255) (hb : b.toNat ≤ 255) :
    ((a <<< 24) ||| (r <<< 16) ||| (g <<< 8) ||| b).toNat =
      a.toNat * 2 ^ 24 + r.toNat * 2 ^ 16 + g.toNat * 2 ^ 8 + b.toNat := by
  have ha24 : (a <<< 24).toNat = a.toNat * 2 ^ 24 := toNat_field ha (by decide)
  have har : (a <<< 24 ||| r <<< 16).toNat = (a.toNat * 2 ^ 8 + r.toNat) * 2 ^ 16 := by
    have hr16 : (r <<< 16).toNat = r.toNat * 2 ^ 16 := toNat_field hr (by decide)
    rw [toNat_or_below ha24 (by rw [hr16]; omega), hr16]
    ring
  have harg : (a <<< 24 ||| r <<< 16 ||| g <<< 8).toNat =
      (a.toNat * 2 ^ 16 + r.toNat * 2 ^ 8 + g.toNat) * 2 ^ 8 := by
    have hg8 : (g <<< 8).toNat = g.toNat * 2 ^ 8 := toNat_field hg (by decide)
    rw [toNat_or_below har (by rw [hg8]; omega), hg8]
    ring
  rw [toNat_or_below harg (by omega)]
  ring

theorem canvasOver_exact (dst src : UInt32) : (canvasOver dst src).toNat = exactOver dst src := by
  have hzero (v : UInt32) : v >>> 24 = 0 ↔ alphaOf v = 0 := UInt32.toNat_inj.symm
  have hfull (v : UInt32) : v >>> 24 = 255 ↔ alphaOf v = 255 := UInt32.toNat_inj.symm
  simp only [canvasOver, exactOver, hzero, hfull]
  split
  · rfl
  split
  · rfl
  split
  · rfl
  · rename_i hsrc _ _
    have hfits := fits dst hsrc
    have ha : ((((src >>> 24) * (255 : UInt32) + (dst >>> 24) * ((255 : UInt32) - (src >>> 24))) + 127) / 255).toNat =
        exactAlpha dst src := by
      have hlt := hfits.sum_lt
      rw [UInt32.toNat_div, UInt32.toNat_add, toNat_sum, exactAlpha]
      congr 1
      exact Nat.mod_eq_of_lt hlt
    have hchannel (shift : UInt32) := toNat_channel hfits shift _ _ _ (toNat_ws src)
      (toNat_wd dst src) (toNat_sum dst src)
    have hblue := hchannel 0
    simp only [UInt32.shiftRight_zero] at hblue
    rw [toNat_pack]
    · rw [ha, hchannel, hchannel, hblue]
    · rw [ha]
      exact hfits.exactAlpha_le
    · rw [hchannel]
      exact hfits.exactChannel_le 16
    · rw [hchannel]
      exact hfits.exactChannel_le 8
    · rw [hblue]
      exact hfits.exactChannel_le 0

/-- Two pixels that are not blended by the formula. -/
theorem canvasOver_special (h : alphaOf src = 0 ∨ alphaOf src = 255 ∨ alphaOf dst = 0) :
    canvasOver dst src = if alphaOf src = 0 then dst else src := by
  apply UInt32.toNat_inj.mp
  rw [canvasOver_exact, exactOver]
  split
  · rfl
  · rename_i hsrc
    by_cases hfull : alphaOf src = 255
    · rw [if_pos hfull]
    · rw [if_neg hfull, if_pos (by omega)]

/-- The fields of a word are read back. -/
theorem fields_of_toNat {v : UInt32} {a r g b : Nat} (hr : r ≤ 255) (hg : g ≤ 255) (hb : b ≤ 255)
    (hv : v.toNat = a * 2 ^ 24 + r * 2 ^ 16 + g * 2 ^ 8 + b) :
    alphaOf v = a ∧ channelOf v 16 = r ∧ channelOf v 8 = g ∧ channelOf v 0 = b := by
  have hfield (shift : UInt32) : channelOf v shift = v.toNat / 2 ^ (shift.toNat % 32) % 256 := by
    rw [channelOf, and_255, UInt32.toNat_shiftRight, Nat.shiftRight_eq_div_pow]
  rw [alphaOf_eq, hfield, hfield, hfield, hv]
  refine ⟨?_, ?_, ?_, ?_⟩
  · omega
  · change _ / 2 ^ 16 % 256 = _
    omega
  · change _ / 2 ^ 8 % 256 = _
    omega
  · change _ / 2 ^ 0 % 256 = _
    omega

/-- The fields of a blend by the formula. -/
theorem canvasOver_fields (hsrc : alphaOf src ≠ 0) (hfull : alphaOf src ≠ 255)
    (hdst : alphaOf dst ≠ 0) :
    alphaOf (canvasOver dst src) = exactAlpha dst src ∧
      ∀ shift ∈ ([16, 8, 0] : List UInt32),
        channelOf (canvasOver dst src) shift = exactChannel dst src shift := by
  have hfits := fits dst hsrc
  have hword := canvasOver_exact dst src
  rw [exactOver, if_neg hsrc, if_neg hfull, if_neg hdst] at hword
  obtain ⟨ha, hr, hg, hb⟩ := fields_of_toNat (hfits.exactChannel_le 16) (hfits.exactChannel_le 8)
    (hfits.exactChannel_le 0) hword
  refine ⟨ha, fun shift hshift => ?_⟩
  simp only [List.mem_cons, List.not_mem_nil, or_false] at hshift
  rcases hshift with rfl | rfl | rfl
  · exact hr
  · exact hg
  · exact hb

theorem le_alphaOf_canvasOver (dst src : UInt32) :
    max (alphaOf dst) (alphaOf src) ≤ alphaOf (canvasOver dst src) := by
  by_cases h : alphaOf src = 0 ∨ alphaOf src = 255 ∨ alphaOf dst = 0
  · have hsrc := alphaOf_le src
    have hdst := alphaOf_le dst
    rw [canvasOver_special h]
    split <;> omega
  · simp only [not_or] at h
    rw [(canvasOver_fields h.1 h.2.1 h.2.2).1]
    exact le_exactAlpha

theorem canvasOver_between (hdst : alphaOf dst ≠ 0) (hsrc : alphaOf src ≠ 0)
    (hshift : shift ∈ ([16, 8, 0] : List UInt32)) :
    min (channelOf dst shift) (channelOf src shift) ≤ channelOf (canvasOver dst src) shift ∧
      channelOf (canvasOver dst src) shift ≤ max (channelOf dst shift) (channelOf src shift) := by
  by_cases hfull : alphaOf src = 255
  · rw [canvasOver_special (.inr (.inl hfull)), if_neg hsrc]
    exact ⟨min_le_right _ _, le_max_right _ _⟩
  · rw [(canvasOver_fields hsrc hfull hdst).2 shift hshift]
    exact exactChannel_between (weightSum_pos hsrc) shift

theorem canvasOver_solid (hdst : alphaOf dst = 255) (src : UInt32) :
    alphaOf (canvasOver dst src) = 255 := by
  have hle := le_alphaOf_canvasOver dst src
  have htop := alphaOf_le (canvasOver dst src)
  rw [hdst] at hle
  omega

/-- Every pixel of the canvas has full alpha. -/
def Solid (c : Canvas) : Prop :=
  ∀ p : Int × Int, 0 ≤ p.1 ∧ p.1 < c.w ∧ 0 ≤ p.2 ∧ p.2 < c.h → alphaOf (c.px p) = 255

/-- The calls of `canvas_blend.c`. -/
inductive Blend where
  | pixel (x y : Int) (col : UInt32)
  | rect (x y w h : Int) (col : UInt32)
  | roundRect (x y w h r : Int) (col : UInt32)

section Run
variable (D : Type) [CFloat D]

def Blend.run (s : CornerTable × Canvas) : Blend → CornerTable × Canvas
  | .pixel x y col => (s.1, canvasBlend s.2 x y col)
  | .rect x y w h col => (s.1, canvasBlendRect s.2 x y w h col)
  | .roundRect x y w h r col => drawRoundRect D s.1 s.2 x y w h r col

variable {t : CornerTable} {z : CanvasSize} {px : Int × Int → UInt32}

theorem Solid.blended (hsolid : Solid ⟨z, px⟩) (x y w h : Int) (src : Int × Int → UInt32) :
    Solid ⟨z, fun p => blended z x y w h src p (px p)⟩ := by
  intro p hp
  change alphaOf (Graphics.blended z x y w h src p (px p)) = 255
  rw [Graphics.blended]
  split
  · exact canvasOver_solid (hsolid p hp) (src p)
  · exact hsolid p hp

/-- One call keeps a solid canvas solid, and leaves a table the program can have. -/
theorem Blend.run_solid (ht : CornerTable.Reached D t) (hsolid : Solid ⟨z, px⟩) (op : Blend) :
    CornerTable.Reached D (op.run D (t, ⟨z, px⟩)).1 ∧ Solid (op.run D (t, ⟨z, px⟩)).2 := by
  cases op with
  | pixel x y col =>
    refine ⟨ht, ?_⟩
    change Solid (canvasBlend ⟨z, px⟩ x y col)
    rw [canvasBlend]
    split
    · intro p hp
      change alphaOf (Function.update px (x, y) (canvasOver (px (x, y)) col) p) = 255
      by_cases heq : p = (x, y)
      · subst heq
        rw [Function.update_self]
        exact canvasOver_solid (hsolid _ hp) col
      · rw [Function.update_of_ne heq]
        exact hsolid p hp
    · exact hsolid
  | rect x y w h col =>
    refine ⟨ht, ?_⟩
    change Solid (canvasBlendRect ⟨z, px⟩ x y w h col)
    rw [canvasBlendRect_eq]
    exact hsolid.blended x y w h _
  | roundRect x y w h r col =>
    refine ⟨ht.drawn _ x y w h r col, ?_⟩
    change Solid (drawRoundRect D t ⟨z, px⟩ x y w h r col).2
    rw [(drawRoundRect_eq D (ht.sound D) _ x y w h r col).2, canvasBlendRoundRect_eq]
    exact hsolid.blended x y w h _

theorem foldl_run_solid (ht : CornerTable.Reached D t) {c : Canvas} (hsolid : Solid c)
    (ops : List Blend) : Solid (ops.foldl (Blend.run D) (t, c)).2 := by
  induction ops generalizing t c with
  | nil => exact hsolid
  | cons op rest ih =>
    obtain ⟨htable, hcanvas⟩ := Blend.run_solid D ht hsolid op
    exact ih htable hcanvas

/-- A blend never wraps, never lowers the alpha and never leaves the range of its two colours;
so a solid canvas stays solid. -/
theorem blends_keep_solid (dst src : UInt32) (t : CornerTable) (ht : CornerTable.Reached D t)
    (c : Canvas) (hsolid : Solid c) (ops : List Blend) :
    (alphaOf src ≠ 0 → Fits dst src) ∧ (canvasOver dst src).toNat = exactOver dst src ∧
      max (alphaOf dst) (alphaOf src) ≤ alphaOf (canvasOver dst src) ∧
      alphaOf (canvasOver dst src) ≤ 255 ∧
      (alphaOf dst ≠ 0 → alphaOf src ≠ 0 → ∀ shift ∈ ([16, 8, 0] : List UInt32),
        min (channelOf dst shift) (channelOf src shift) ≤ channelOf (canvasOver dst src) shift ∧
          channelOf (canvasOver dst src) shift ≤ max (channelOf dst shift) (channelOf src shift)) ∧
      (alphaOf dst = 255 → alphaOf (canvasOver dst src) = 255) ∧
      Solid (ops.foldl (Blend.run D) (t, c)).2 :=
  ⟨fun h => fits dst h, canvasOver_exact dst src, le_alphaOf_canvasOver dst src, alphaOf_le _,
    fun hdst hsrc _ hshift => canvasOver_between hdst hsrc hshift,
    fun hdst => canvasOver_solid hdst src, foldl_run_solid D ht hsolid ops⟩

end Run

/-- Glass over a solid background, a row and a pill among the calls. -/
theorem glass_keeps_solid :
    let c : Canvas := ⟨⟨40, 20, 0, 0, 0, 0⟩, fun _ => 0xff102030⟩
    let ops : List Blend := [.rect (-4) 2 30 6 0x80ffffff, .roundRect 3 1 30 15 7 0xc0ff8000,
      .pixel 5 5 0x01ff00ff]
    alphaOf (canvasOver 0xff102030 0x80ffffff) = 255 ∧
      Solid (ops.foldl (Blend.run ℚ) (CornerTable.zero, c)).2 := by
  intro c ops
  have hblend := blends_keep_solid ℚ 0xff102030 0x80ffffff .zero .start c
    (fun _ _ => (by decide : alphaOf 0xff102030 = 255)) ops
  exact ⟨hblend.2.2.2.2.2.1 (by decide), hblend.2.2.2.2.2.2⟩

end Taq102.Graphics
