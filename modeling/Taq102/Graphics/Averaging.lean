import Taq102.Graphics.Over
import Taq102.Lib.WeightedMean

/-! A picture painted at four times its size is averaged down, weighted by alpha, and laid over a canvas
(`downsample` of `statusbar.c`). -/
namespace Taq102.Graphics
open Taq102.Lib WeightedMean

abbrev ss : Int := 4

structure ColorSums where
  a : UInt32
  r : UInt32
  g : UInt32
  b : UInt32
  deriving DecidableEq, Repr

def ColorSums.add (s : ColorSums) (p : UInt32) : ColorSums :=
  let pa := p >>> 24
  { a := s.a + pa
    r := s.r + ((p >>> 16) &&& 255) * pa
    g := s.g + ((p >>> 8) &&& 255) * pa
    b := s.b + (p &&& 255) * pa }

def ColorSums.mean (s : ColorSums) : UInt32 :=
  let sa := s.a / 16
  let sr := s.r / s.a
  let sg := s.g / s.a
  let sb := s.b / s.a
  (sa <<< 24) ||| (sr <<< 16) ||| (sg <<< 8) ||| sb

/-- The supersampled pixels of one pixel, row by row. -/
def block (src : Canvas) (x y : Int) : List UInt32 :=
  (pixels 0 0 ss ss).map fun p => src.px (x * ss + p.1, y * ss + p.2)

def blockSums (src : Canvas) (x y : Int) : ColorSums := (block src x y).foldl ColorSums.add ⟨0, 0, 0, 0⟩

def downsample (dst src : Canvas) (rows : Int) : Canvas :=
  (pixels 0 0 dst.w rows).foldl (fun dst p =>
    let s := blockSums src p.1 p.2
    if s.a = 0 then dst else canvasBlend dst p.1 p.2 s.mean) dst

/-- The pixel that is laid over the canvas; 0 is none. -/
def averaged (src : Canvas) (p : Int × Int) : UInt32 :=
  let s := blockSums src p.1 p.2
  if s.a = 0 then 0 else s.mean

variable {src : Canvas} {z : CanvasSize} {l : List UInt32}

theorem length_block (src : Canvas) (x y : Int) : (block src x y).length = 16 := by
  rw [block, List.length_map]
  rfl

theorem foldl_colorSums (s : ColorSums) : l.foldl ColorSums.add s =
    { a := l.foldl (fun (t p : UInt32) => t + (p >>> 24)) s.a
      r := l.foldl (fun (t p : UInt32) => t + ((p >>> 16) &&& (255 : UInt32)) * (p >>> 24)) s.r
      g := l.foldl (fun (t p : UInt32) => t + ((p >>> 8) &&& (255 : UInt32)) * (p >>> 24)) s.g
      b := l.foldl (fun (t p : UInt32) => t + (p &&& (255 : UInt32)) * (p >>> 24)) s.b } := by
  induction l generalizing s with
  | nil => rfl
  | cons p l ih => exact ih (s.add p)

/-- A channel weighted by its alpha. -/
theorem toNat_weighted {c pa : UInt32} (hc : c.toNat < 256) (hpa : pa.toNat ≤ 255) :
    (c * pa).toNat = c.toNat * pa.toNat := by
  have hle : c.toNat * pa.toNat ≤ 255 * 255 := Nat.mul_le_mul (by omega) hpa
  rw [UInt32.toNat_mul]
  exact Nat.mod_eq_of_lt (by omega)

/-- No sum of a block needs more than 32 bits. -/
theorem toNat_channelSum (hl : l.length = 16) (shift : UInt32) :
    (l.foldl (fun (t p : UInt32) => t + ((p >>> shift) &&& (255 : UInt32)) * (p >>> 24)) 0).toNat =
      total alphaOf (fun p => channelOf p shift) l := by
  have hterm (p : UInt32) : (((p >>> shift) &&& (255 : UInt32)) * (p >>> 24)).toNat =
      channelOf p shift * alphaOf p :=
    toNat_weighted (channelOf_lt p shift) (alphaOf_le p)
  have hsum : weight (fun (p : UInt32) => (((p >>> shift) &&& (255 : UInt32)) * (p >>> 24)).toNat) l =
      total alphaOf (fun p => channelOf p shift) l := by
    unfold weight total
    simp only [hterm]
  have hbound : weight (fun (p : UInt32) => (((p >>> shift) &&& (255 : UInt32)) * (p >>> 24)).toNat) l ≤
      l.length * (255 * 255) := by
    refine weight_le fun p _ => ?_
    rw [hterm]
    exact Nat.mul_le_mul (Nat.le_of_lt_succ (channelOf_lt p shift)) (alphaOf_le p)
  rw [toNat_foldl_add, hsum]
  · exact Nat.zero_add _
  · have hzero : (0 : UInt32).toNat = 0 := rfl
    unfold UInt32.size
    omega

theorem toNat_alphaSum (hl : l.length = 16) :
    (l.foldl (fun (t p : UInt32) => t + (p >>> 24)) 0).toNat = weight alphaOf l ∧
      weight alphaOf l ≤ 16 * 255 := by
  have hbound : weight alphaOf l ≤ l.length * 255 := weight_le fun p _ => alphaOf_le p
  rw [hl] at hbound
  refine ⟨?_, hbound⟩
  rw [toNat_foldl_add]
  · exact Nat.zero_add _
  · change 0 + weight alphaOf l < _
    unfold UInt32.size
    omega

/-- The sums of a block are exact. -/
theorem blockSums_toNat (src : Canvas) (x y : Int) :
    (blockSums src x y).a.toNat = weight alphaOf (block src x y) ∧
      (blockSums src x y).r.toNat = total alphaOf (fun p => channelOf p 16) (block src x y) ∧
      (blockSums src x y).g.toNat = total alphaOf (fun p => channelOf p 8) (block src x y) ∧
      (blockSums src x y).b.toNat = total alphaOf (fun p => channelOf p 0) (block src x y) := by
  have hblue := toNat_channelSum (length_block src x y) 0
  simp only [UInt32.shiftRight_zero] at hblue
  rw [blockSums, foldl_colorSums]
  exact ⟨(toNat_alphaSum (length_block src x y)).1, toNat_channelSum (length_block src x y) 16,
    toNat_channelSum (length_block src x y) 8, hblue⟩

theorem averaged_clear {p : Int × Int} (h : weight alphaOf (block src p.1 p.2) = 0) : averaged src p = 0 := by
  have hsum := (blockSums_toNat src p.1 p.2).1
  rw [averaged, if_pos]
  apply UInt32.toNat_inj.mp
  rw [hsum, h]
  rfl

/-- The averaged pixel has the mean alpha of its block, and its channels are their means weighted by
alpha. -/
theorem averaged_fields {p : Int × Int} (h : 0 < weight alphaOf (block src p.1 p.2)) :
    alphaOf (averaged src p) = weight alphaOf (block src p.1 p.2) / 16 ∧
      ∀ shift ∈ ([16, 8, 0] : List UInt32), channelOf (averaged src p) shift =
        mean alphaOf (fun q => channelOf q shift) (block src p.1 p.2) := by
  obtain ⟨ha, hr, hg, hb⟩ := blockSums_toNat src p.1 p.2
  have hsum := (toNat_alphaSum (length_block src p.1 p.2)).2
  have hmean (shift : UInt32) : mean alphaOf (fun q => channelOf q shift) (block src p.1 p.2) ≤ 255 := by
    have hbyte (q : UInt32) : 0 ≤ channelOf q shift ∧ channelOf q shift ≤ 255 :=
      ⟨Nat.zero_le _, Nat.le_of_lt_succ (channelOf_lt q shift)⟩
    exact (mean_between h fun q _ _ => hbyte q).2
  have hne : (blockSums src p.1 p.2).a ≠ 0 := by
    intro hzero
    rw [hzero] at ha
    exact absurd ha.symm h.ne'
  have hdiv {s : UInt32} {shift : UInt32}
      (hs : s.toNat = total alphaOf (fun q => channelOf q shift) (block src p.1 p.2)) :
      (s / (blockSums src p.1 p.2).a).toNat =
        mean alphaOf (fun q => channelOf q shift) (block src p.1 p.2) := by
    rw [UInt32.toNat_div, hs, ha]
    rfl
  have hsixteen : ((blockSums src p.1 p.2).a / 16).toNat = weight alphaOf (block src p.1 p.2) / 16 := by
    rw [UInt32.toNat_div, ha]
    rfl
  have hpack : (averaged src p).toNat = weight alphaOf (block src p.1 p.2) / 16 * 2 ^ 24 +
      mean alphaOf (fun q => channelOf q 16) (block src p.1 p.2) * 2 ^ 16 +
      mean alphaOf (fun q => channelOf q 8) (block src p.1 p.2) * 2 ^ 8 +
      mean alphaOf (fun q => channelOf q 0) (block src p.1 p.2) := by
    rw [averaged, if_neg hne, ColorSums.mean, toNat_pack, hsixteen, hdiv hr, hdiv hg, hdiv hb]
    · rw [hsixteen]
      omega
    · rw [hdiv hr]
      exact hmean 16
    · rw [hdiv hg]
      exact hmean 8
    · rw [hdiv hb]
      exact hmean 0
  obtain ⟨halpha, hred, hgreen, hblue⟩ := fields_of_toNat (hmean 16) (hmean 8) (hmean 0) hpack
  refine ⟨halpha, fun shift hshift => ?_⟩
  simp only [List.mem_cons, List.not_mem_nil, or_false] at hshift
  rcases hshift with rfl | rfl | rfl
  · exact hred
  · exact hgreen
  · exact hblue

/-- An averaged channel stays between those of the pixels that show. -/
theorem averaged_between {p : Int × Int} (h : 0 < weight alphaOf (block src p.1 p.2)) {shift : UInt32}
    (hshift : shift ∈ ([16, 8, 0] : List UInt32)) {lo hi : Nat}
    (hblock : ∀ q ∈ block src p.1 p.2, alphaOf q ≠ 0 → lo ≤ channelOf q shift ∧ channelOf q shift ≤ hi) :
    lo ≤ channelOf (averaged src p) shift ∧ channelOf (averaged src p) shift ≤ hi := by
  rw [(averaged_fields h).2 shift hshift]
  exact mean_between h fun q hq hpos => hblock q hq hpos.ne'

/-- A block of full alpha is averaged to full alpha. -/
theorem averaged_solid {p : Int × Int} (h : ∀ q ∈ block src p.1 p.2, alphaOf q = 255) :
    alphaOf (averaged src p) = 255 := by
  have hweight : weight alphaOf (block src p.1 p.2) = 16 * 255 := by
    rw [weight, List.map_congr_left h, List.map_const', List.sum_replicate, length_block]
    rfl
  rw [(averaged_fields (by omega)).1, hweight]

theorem canvasOver_none (v : UInt32) : canvasOver v 0 = v := rfl

/-- Each visible pixel of the rows has the averaged picture laid over it. -/
theorem downsample_eq (px : Int × Int → UInt32) (src : Canvas) (rows : Int) : downsample ⟨z, px⟩ src rows =
    ⟨z, fun p => if p.2 < rows ∧ canvasVisible z p.1 p.2 = true then canvasOver (px p) (averaged src p)
      else px p⟩ := by
  have hstep (px : Int × Int → UInt32) (p : Int × Int) :
      (if (blockSums src p.1 p.2).a = 0 then (⟨z, px⟩ : Canvas)
        else canvasBlend ⟨z, px⟩ p.1 p.2 (blockSums src p.1 p.2).mean) =
      Canvas.set ⟨z, px⟩ p (if canvasVisible z p.1 p.2 then canvasOver (px p) (averaged src p) else px p) := by
    rw [averaged]
    split
    · rw [canvasOver_none, ite_self, Canvas.set, Function.update_eq_self]
    · exact canvasBlend_eq p
  have hfold : downsample ⟨z, px⟩ src rows = _ :=
    foldl_pixels (fun p v => if canvasVisible z p.1 p.2 then canvasOver v (averaged src p) else v) hstep
      (pixels_nodup 0 0 z.w rows) px
  rw [hfold]
  apply congrArg (Canvas.mk z)
  funext p
  by_cases hv : canvasVisible z p.1 p.2 = true
  · have hon := canvasVisible_on hv
    have hin : p ∈ pixels 0 0 z.w rows ↔ p.2 < rows ∧ canvasVisible z p.1 p.2 = true := by
      rw [mem_pixels]
      exact ⟨fun h => ⟨h.2.2.2, hv⟩, fun h => ⟨hon.1, hon.2.1, hon.2.2.1, h.1⟩⟩
    rw [if_pos hv]
    exact ite_congr (propext hin) (fun _ => rfl) fun _ => rfl
  · rw [if_neg hv, ite_self]
    exact (if_neg fun h => hv h.2).symm

/-- Averaging down changes the visible pixels of the rows only. A block without alpha leaves its pixel as it
was; any other is laid over it as one pixel of the block's mean alpha, whose channels are the means of the
block's weighted by alpha, rounded down, and stay between those of the pixels that show: no sum wraps and no
channel spills into the next. -/
theorem downsample_averages (dst src : Canvas) (rows : Int) :
    (downsample dst src rows).toCanvasSize = dst.toCanvasSize ∧ ∀ p : Int × Int,
      if p.2 < rows ∧ canvasVisible dst.toCanvasSize p.1 p.2 = true then
        (weight alphaOf (block src p.1 p.2) = 0 → (downsample dst src rows).px p = dst.px p) ∧
        (0 < weight alphaOf (block src p.1 p.2) → ∃ v, (downsample dst src rows).px p = canvasOver (dst.px p) v ∧
          alphaOf v = weight alphaOf (block src p.1 p.2) / 16 ∧ ∀ shift ∈ ([16, 8, 0] : List UInt32),
            channelOf v shift = mean alphaOf (fun q => channelOf q shift) (block src p.1 p.2) ∧
            ∀ lo hi, (∀ q ∈ block src p.1 p.2, alphaOf q ≠ 0 → lo ≤ channelOf q shift ∧ channelOf q shift ≤ hi) →
              lo ≤ channelOf v shift ∧ channelOf v shift ≤ hi)
      else (downsample dst src rows).px p = dst.px p := by
  rw [canvas_eta (rfl : dst.toCanvasSize = _), downsample_eq]
  refine ⟨rfl, fun p => ?_⟩
  dsimp only
  split
  · refine ⟨fun hclear => ?_, fun hpos => ⟨averaged src p, rfl, (averaged_fields hpos).1, ?_⟩⟩
    · rw [averaged_clear hclear, canvasOver_none]
    · intro shift hshift
      exact ⟨(averaged_fields hpos).2 shift hshift, fun lo hi hblock => averaged_between hpos hshift hblock⟩
  · rfl

/-- One white pixel of a block keeps its colour, and a sixteenth of its alpha. -/
example : averaged ⟨⟨4, 4, 0, 0, 0, 0⟩, fun p => if p = (1, 2) then 0xffffffff else 0⟩ (0, 0) = 0x0fffffff := by
  decide

end Taq102.Graphics
