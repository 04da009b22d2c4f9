import Mathlib.Data.List.Nodup
import Mathlib.Data.List.Range
import Taq102.Lib.CFloat
import Taq102.Lib.Raster
import Taq102.Lib.Sweep

/-! The software canvas (`canvas.c`, `canvas_blend.c`): blending, rectangles, antialiased
rounded rectangles and the bitmap text, with the region each operation paints. -/
namespace Taq102.Graphics
open Taq102.Lib CFloat Raster

/-- The canvas without its pixels. -/
structure CanvasSize where
  w : Int
  h : Int
  clipX : Int
  clipY : Int
  clipW : Int
  clipH : Int
  deriving DecidableEq, Repr

/-- Pixels are 0xAARRGGBB by column and row; those off the canvas are never touched. -/
structure Canvas extends CanvasSize where
  px : Int × Int → UInt32

def canvasVisible (c : CanvasSize) (x y : Int) : Bool :=
  if x < 0 ∨ y < 0 ∨ c.w ≤ x ∨ c.h ≤ y then false
  else if c.clipW ≤ 0 then true
  else c.clipX ≤ x && x < c.clipX + c.clipW && c.clipY ≤ y && y < c.clipY + c.clipH

def Canvas.set (c : Canvas) (p : Int × Int) (col : UInt32) : Canvas :=
  { c with px := Function.update c.px p col }

/-- The values of a loop counter from `lo` up to `hi`, excluded. -/
def intRange (lo hi : Int) : List Int := (List.range (hi - lo).toNat).map fun (n : Nat) => lo + n

theorem mem_intRange {lo hi i : Int} : i ∈ intRange lo hi ↔ lo ≤ i ∧ i < hi := by
  unfold intRange
  rw [List.mem_map]
  constructor
  · rintro ⟨n, hn, rfl⟩
    have hlt := List.mem_range.mp hn
    omega
  · rintro ⟨hlo, hhi⟩
    exact ⟨(i - lo).toNat, List.mem_range.mpr (by omega), by omega⟩

theorem intRange_nodup (lo hi : Int) : (intRange lo hi).Nodup := by
  refine List.Nodup.map (fun a b h => ?_) List.nodup_range
  have heq : lo + (a : Int) = lo + b := h
  omega

/-- Rows `y0` to `y1` and in each the columns `x0` to `x1`, in the order of the loops. -/
def pixels (x0 y0 x1 y1 : Int) : List (Int × Int) :=
  (intRange y0 y1).flatMap fun j => (intRange x0 x1).map fun i => (i, j)

theorem mem_pixels {x0 y0 x1 y1 : Int} {p : Int × Int} :
    p ∈ pixels x0 y0 x1 y1 ↔ x0 ≤ p.1 ∧ p.1 < x1 ∧ y0 ≤ p.2 ∧ p.2 < y1 := by
  unfold pixels
  rw [List.mem_flatMap]
  constructor
  · rintro ⟨j, hj, hp⟩
    obtain ⟨i, hi, rfl⟩ := List.mem_map.mp hp
    have hrow := mem_intRange.mp hj
    have hcol := mem_intRange.mp hi
    exact ⟨hcol.1, hcol.2, hrow.1, hrow.2⟩
  · rintro ⟨h1, h2, h3, h4⟩
    exact ⟨p.2, mem_intRange.mpr ⟨h3, h4⟩, List.mem_map.mpr ⟨p.1, mem_intRange.mpr ⟨h1, h2⟩, rfl⟩⟩

theorem pixels_nodup (x0 y0 x1 y1 : Int) : (pixels x0 y0 x1 y1).Nodup := by
  unfold pixels
  refine List.nodup_flatMap.mpr ⟨fun j _ => ?_, ?_⟩
  · exact (intRange_nodup x0 x1).map fun a b h => (Prod.mk.inj h).1
  · refine (intRange_nodup y0 y1).imp fun {a b} hab => ?_
    intro p ha hb
    obtain ⟨i, _, rfl⟩ := List.mem_map.mp ha
    obtain ⟨i', _, he⟩ := List.mem_map.mp hb
    exact hab (Prod.mk.inj he).2.symm

/-- A loop that rewrites each pixel it visits from its old value. -/
theorem foldl_pixels {z : CanvasSize} {step : Canvas → Int × Int → Canvas}
    (new : Int × Int → UInt32 → UInt32)
    (hstep : ∀ px p, step ⟨z, px⟩ p = Canvas.set ⟨z, px⟩ p (new p (px p)))
    {l : List (Int × Int)} (hl : l.Nodup) (px : Int × Int → UInt32) :
    l.foldl step ⟨z, px⟩ = ⟨z, fun p => if p ∈ l then new p (px p) else px p⟩ := by
  have hhom : l.foldl step ⟨z, px⟩ =
      ⟨z, l.foldl (fun t p => Function.update t p (new p (t p))) px⟩ := by
    clear hl
    induction l generalizing px with
    | nil => rfl
    | cons p rest ih =>
      rw [List.foldl_cons, hstep]
      exact ih (Function.update px p (new p (px p)))
  rw [hhom, Sweep.foldl_modify new hl]
  apply congrArg (Canvas.mk z)
  funext p
  by_cases hp : p ∈ l
  · rw [if_pos hp, if_pos hp]
  · rw [if_neg hp, if_neg hp]

/-- Straight-alpha source over destination. -/
def canvasOver (dst src : UInt32) : UInt32 :=
  let sa := src >>> 24
  if sa = 0 then dst
  else if sa = 255 then src
  else if dst >>> 24 = 0 then src
  else
    let ws := sa * 255
    let wd := (dst >>> 24) * (255 - sa)
    let sum := ws + wd
    let a := (sum + 127) / 255
    let channel (s d : UInt32) : UInt32 := ((s &&& 255) * ws + (d &&& 255) * wd + sum / 2) / sum
    let r := channel (src >>> 16) (dst >>> 16)
    let g := channel (src >>> 8) (dst >>> 8)
    let b := channel src dst
    (a <<< 24) ||| (r <<< 16) ||| (g <<< 8) ||| b

def canvasBlend (c : Canvas) (x y : Int) (col : UInt32) : Canvas :=
  if canvasVisible c.toCanvasSize x y then c.set (x, y) (canvasOver (c.px (x, y)) col) else c

/-- The pixels of a rectangle that are on the canvas, up to a clip. -/
def boxPixels (z : CanvasSize) (x y w h : Int) : List (Int × Int) :=
  let right := if x + w > z.w then z.w else x + w
  let bottom := if y + h > z.h then z.h else y + h
  pixels (if x < 0 then 0 else x) (if y < 0 then 0 else y) right bottom

def canvasBlendRect (c : Canvas) (x y w h : Int) (col : UInt32) : Canvas :=
  if w ≤ 0 ∨ h ≤ 0 then c
  else (boxPixels c.toCanvasSize x y w h).foldl (fun c p => canvasBlend c p.1 p.2 col) c

/-- How many of the 16 subpixels of a corner pixel lie inside the corner's circle. -/
def cornerCoverage (r x y : Int) : Nat :=
  ((List.range 4).map fun (sy : Nat) => (List.range 4).countP fun (sx : Nat) =>
    let dx := (x - r) * 8 + sx * 2 + 1
    let dy := (y - r) * 8 + sy * 2 + 1
    decide (dx * dx + dy * dy ≤ r * r * 64)).sum

/-- A corner pixel whose farthest subpixel is inside the circle is covered. -/
theorem cornerCoverage_full {r x y : Int} (hx : x < r) (hy : y < r)
    (h : ((r - x) * 8 - 1) * ((r - x) * 8 - 1) + ((r - y) * 8 - 1) * ((r - y) * 8 - 1) ≤ r * r * 64) :
    cornerCoverage r x y = 16 := by
  have hsample (sx sy : Nat) (hsx : sx < 4) (hsy : sy < 4) :
      ((x - r) * 8 + sx * 2 + 1) * ((x - r) * 8 + sx * 2 + 1) +
        ((y - r) * 8 + sy * 2 + 1) * ((y - r) * 8 + sy * 2 + 1) ≤ r * r * 64 := by
    have hdx : ((x - r) * 8 + sx * 2 + 1) * ((x - r) * 8 + sx * 2 + 1) ≤
        ((r - x) * 8 - 1) * ((r - x) * 8 - 1) := by
      nlinarith
    have hdy : ((y - r) * 8 + sy * 2 + 1) * ((y - r) * 8 + sy * 2 + 1) ≤
        ((r - y) * 8 - 1) * ((r - y) * 8 - 1) := by
      nlinarith
    omega
  have hrow (sy : Nat) (hsy : sy < 4) : (List.range 4).countP (fun (sx : Nat) =>
      decide (((x - r) * 8 + sx * 2 + 1) * ((x - r) * 8 + sx * 2 + 1) +
        ((y - r) * 8 + sy * 2 + 1) * ((y - r) * 8 + sy * 2 + 1) ≤ r * r * 64)) = 4 := by
    refine List.countP_eq_length.mpr fun sx hsx => ?_
    exact decide_eq_true (hsample sx sy (List.mem_range.mp hsx) hsy)
  unfold cornerCoverage
  simp only [List.range_succ, List.range_zero, List.nil_append, List.map_append, List.map_cons,
    List.map_nil] at hrow ⊢
  rw [hrow 0 (by omega), hrow 1 (by omega), hrow 2 (by omega), hrow 3 (by omega)]
  rfl

/-- The last blend of a rounded rectangle, reused while its operands repeat. -/
structure BlendCache where
  lastSrc : UInt32
  lastDst : UInt32
  lastResult : UInt32
  cached : Bool

/-- One pixel of a rounded rectangle. -/
def blendCached (src : Int × Int → UInt32) (state : BlendCache × Canvas) (p : Int × Int) :
    BlendCache × Canvas :=
  let cache := state.1
  let c := state.2
  if ¬ canvasVisible c.toCanvasSize p.1 p.2 then state
  else
    let dst := c.px p
    let cache :=
      if ¬ cache.cached ∨ cache.lastSrc ≠ src p ∨ cache.lastDst ≠ dst then
        { lastSrc := src p, lastDst := dst, lastResult := canvasOver dst (src p), cached := true }
      else cache
    (cache, c.set p cache.lastResult)

section Rounded
variable (D : Type) [CFloat D]

/-- The subpixels of a pixel inside a corner circle too large for the table. -/
def largeCoverage (x y w h r i j : Int) : Nat :=
  ((List.range 4).map fun (sy : Nat) => (List.range 4).countP fun (sx : Nat) =>
    let px : D := ofInt i - ofInt x + (ofInt sx + lit 0.5) / lit 4
    let py : D := ofInt j - ofInt y + (ofInt sy + lit 0.5) / lit 4
    let cx : D := if px < ofInt r then ofInt r else if ofInt (w - r) < px then ofInt (w - r) else px
    let cy : D := if py < ofInt r then ofInt r else if ofInt (h - r) < py then ofInt (h - r) else py
    let dx := px - cx
    let dy := py - cy
    decide (dx * dx + dy * dy ≤ ofInt r * ofInt r)).sum

/-- The subpixels of a pixel inside the rounded rectangle. -/
def roundCoverage (x y w h r i j : Int) : Nat :=
  if (x + r ≤ i ∧ i < x + w - r) ∨ (y + r ≤ j ∧ j < y + h - r) then 16
  else if r ≤ 64 then
    let cx := i - x
    let cy := j - y
    cornerCoverage r (if r ≤ cx then w - 1 - cx else cx) (if r ≤ cy then h - 1 - cy else cy)
  else largeCoverage D x y w h r i j

/-- The colour with its alpha scaled to the coverage. -/
def coveredColor (col : UInt32) (inside : Nat) : UInt32 :=
  ((((col >>> 24) * UInt32.ofNat inside) / 16) <<< 24) ||| (col &&& 0x00FFFFFF)

def clampRadius (w h r : Int) : Int :=
  let r := if r < 0 then 0 else r
  let r := if r > w / 2 then w / 2 else r
  if r > h / 2 then h / 2 else r

def canvasBlendRoundRect (c : Canvas) (x y w h r : Int) (col : UInt32) : Canvas :=
  if w ≤ 0 ∨ h ≤ 0 then c
  else
    let r := clampRadius w h r
    let src (p : Int × Int) := coveredColor col (roundCoverage D x y w h r p.1 p.2)
    ((boxPixels c.toCanvasSize x y w h).foldl (blendCached src)
      ({ lastSrc := 0, lastDst := 0, lastResult := 0, cached := false }, c)).2

end Rounded

def canvasPut (c : Canvas) (x y : Int) (col : UInt32) : Canvas :=
  if canvasVisible c.toCanvasSize x y then c.set (x, y) col else c

/-- A row segment clipped to the canvas. -/
def span (c : Canvas) (x y w : Int) (col : UInt32) : Canvas :=
  if y < 0 ∨ y ≥ c.h then c
  else if c.clipW > 0 ∧ (y < c.clipY ∨ y ≥ c.clipY + c.clipH) then c
  else
    let x0 := if x < 0 then 0 else x
    let x1 := if x + w > c.w then c.w else x + w
    let x0 := if c.clipW > 0 ∧ x0 < c.clipX then c.clipX else x0
    let x1 := if c.clipW > 0 ∧ x1 > c.clipX + c.clipW then c.clipX + c.clipW else x1
    (intRange x0 x1).foldl (fun c i => c.set (i, y) col) c

def canvasFillRect (c : Canvas) (x y w h : Int) (col : UInt32) : Canvas :=
  (intRange 0 h).foldl (fun c j => span c x (y + j) w col) c

/-- 3x5 glyphs, three bits a row: A to Z, 0 to 9, then `. : - / %`. -/
def glyphTable : List (List Nat) := [
  [2,5,7,5,5], [6,5,6,5,6], [7,4,4,4,7], [6,5,5,5,6], [7,4,7,4,7], [7,4,7,4,4],
  [7,4,5,5,7], [5,5,7,5,5], [7,2,2,2,7], [1,1,1,5,7], [5,5,6,5,5], [4,4,4,4,7],
  [5,7,7,5,5], [6,5,5,5,5], [7,5,5,5,7], [7,5,7,4,4], [7,5,5,7,1], [7,5,6,5,5],
  [7,4,7,1,7], [7,2,2,2,2], [5,5,5,5,7], [5,5,5,5,2], [5,5,7,7,5], [5,5,2,5,5],
  [5,5,2,2,2], [7,1,2,4,7],
  [7,5,5,5,7], [2,6,2,2,7], [7,1,7,4,7], [7,1,7,1,7], [5,5,7,1,1],
  [7,4,7,1,7], [7,4,7,5,7], [7,1,1,1,1], [7,5,7,5,7], [7,5,7,1,7],
  [0,0,0,0,2], [0,2,0,2,0], [0,0,7,0,0], [1,1,2,4,4], [5,1,2,4,5]]

/-- A character's row of the table; the others advance without drawing. -/
def glyphIndex (ch : UInt8) : Option Nat :=
  if 65 ≤ ch.toNat ∧ ch.toNat ≤ 90 then some (ch.toNat - 65)
  else if 97 ≤ ch.toNat ∧ ch.toNat ≤ 122 then some (ch.toNat - 97)
  else if 48 ≤ ch.toNat ∧ ch.toNat ≤ 57 then some (26 + ch.toNat - 48)
  else match ch.toNat with
    | 46 => some 36
    | 58 => some 37
    | 45 => some 38
    | 47 => some 39
    | 37 => some 40
    | _ => none

def drawGlyph (c : Canvas) (x y : Int) (g : Nat) (s : Int) (col : UInt32) : Canvas :=
  (pixels 0 0 3 5).foldl (fun c p =>
    if ((glyphTable.getD g []).getD p.2.toNat 0) &&& (4 >>> p.1.toNat) ≠ 0 then
      canvasFillRect c (x + p.1 * s) (y + p.2 * s) s s col
    else c) c

def canvasText (c : Canvas) (x y : Int) : List UInt8 → Int → UInt32 → Canvas
  | [], _, _ => c
  | ch :: rest, s, col =>
    let c := match glyphIndex ch with
      | none => c
      | some g => drawGlyph c x y g s col
    canvasText c (x + 4 * s) y rest s col

def canvasTextWidth (str : List UInt8) (s : Int) : Int := str.length * 4 * s - s

end Taq102.Graphics
