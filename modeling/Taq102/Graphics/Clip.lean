import Taq102.Graphics.RoundFill
import Taq102.Lib.CString

/-! Drawing under a clip: every primitive, and so every sequence of them, paints inside the clip what
it paints without one, and nothing outside. -/
namespace Taq102.Graphics
open Set
open Taq102.Lib CFloat

def canvasSetClip (c : Canvas) (x y w h : Int) : Canvas :=
  { c with clipX := x, clipY := y, clipW := w, clipH := h }

def canvasClearClip (c : Canvas) : Canvas := { c with clipW := 0, clipH := 0 }

/-- 5x7 digits and `%`, five bits a row. -/
def digitTable : List (List Nat) := [
  [0x0E,0x11,0x13,0x15,0x19,0x11,0x0E], [0x04,0x0C,0x04,0x04,0x04,0x04,0x0E],
  [0x0E,0x11,0x01,0x02,0x04,0x08,0x1F], [0x1F,0x02,0x04,0x02,0x01,0x11,0x0E],
  [0x02,0x06,0x0A,0x12,0x1F,0x02,0x02], [0x1F,0x10,0x1E,0x01,0x01,0x11,0x0E],
  [0x06,0x08,0x10,0x1E,0x11,0x11,0x0E], [0x1F,0x01,0x02,0x04,0x08,0x08,0x08],
  [0x0E,0x11,0x11,0x0E,0x11,0x11,0x0E], [0x0E,0x11,0x11,0x0F,0x01,0x02,0x0C],
  [0x19,0x1A,0x02,0x04,0x08,0x0B,0x13]]

def digitIndex (ch : UInt8) : Option Nat :=
  if 48 ≤ ch.toNat ∧ ch.toNat ≤ 57 then some (ch.toNat - 48)
  else if ch.toNat = 37 then some 10
  else none

def drawDigit (c : Canvas) (x y : Int) (g : Nat) (s : Int) (col : UInt32) : Canvas :=
  (pixels 0 0 5 7).foldl (fun c p =>
    if ((digitTable.getD g []).getD p.2.toNat 0) &&& (16 >>> p.1.toNat) ≠ 0 then
      canvasFillRect c (x + p.1 * s) (y + p.2 * s) s s col
    else c) c

def canvasText7 (c : Canvas) (x y : Int) : List UInt8 → Int → UInt32 → Canvas
  | [], _, _ => c
  | ch :: rest, s, col =>
    let c := match digitIndex ch with
      | none => c
      | some g => drawDigit c x y g s col
    canvasText7 c (x + 6 * s) y rest s col

/-- The drawing primitives with their arguments. -/
inductive Draw where
  | put (x y : Int) (col : UInt32)
  | fillRect (x y w h : Int) (col : UInt32)
  | roundRect (x y w h r : Int) (col : UInt32)
  | text (x y : Int) (str : List UInt8) (s : Int) (col : UInt32)
  | text7 (x y : Int) (str : List UInt8) (s : Int) (col : UInt32)
  | blend (x y : Int) (col : UInt32)
  | blendRect (x y w h : Int) (col : UInt32)
  | blendRoundRect (x y w h r : Int) (col : UInt32)

def Draw.run (F D : Type) [CFloat F] [CFloat D] (c : Canvas) : Draw → Canvas
  | .put x y col => canvasPut c x y col
  | .fillRect x y w h col => canvasFillRect c x y w h col
  | .roundRect x y w h r col => canvasRoundRect F c x y w h r col
  | .text x y str s col => canvasText c x y str s col
  | .text7 x y str s col => canvasText7 c x y str s col
  | .blend x y col => canvasBlend c x y col
  | .blendRect x y w h col => canvasBlendRect c x y w h col
  | .blendRoundRect x y w h r col => canvasBlendRoundRect D c x y w h r col

/-- A property of operations that composing them keeps. -/
structure Composes (P : (Canvas → Canvas) → Prop) : Prop where
  id : P fun c => c
  comp : ∀ {f g : Canvas → Canvas}, P f → P g → P fun c => g (f c)

/-- A property that row segments of a colour have too. -/
structure Spans (P : (Canvas → Canvas) → Prop) (col : UInt32) : Prop extends Composes P where
  span : ∀ x y w : Int, P fun c => span c x y w col

section Closed
variable {P : (Canvas → Canvas) → Prop} {col : UInt32}

theorem Composes.ite (h : Composes P) {q : Prop} [Decidable q] {f : Canvas → Canvas} (hf : P f) :
    P fun c => if q then f c else c := by
  by_cases hq : q
  · simp only [if_pos hq]
    exact hf
  · simp only [if_neg hq]
    exact h.id

theorem Composes.foldl (h : Composes P) {α : Type} {step : Canvas → α → Canvas}
    (hstep : ∀ a, P fun c => step c a) (l : List α) : P fun c => l.foldl step c := by
  induction l with
  | nil => exact h.id
  | cons a rest ih => exact h.comp (hstep a) ih

namespace Spans

theorem fillRect (h : Spans P col) (x y w height : Int) : P fun c => canvasFillRect c x y w height col :=
  h.foldl (fun j => h.span x (y + j) w) _

theorem roundRect (h : Spans P col) (F : Type) [CFloat F] (x y w height r : Int) :
    P fun c => canvasRoundRect F c x y w height r col := by
  refine h.foldl (fun j => ?_) _
  simp only [roundRectRow_eq]
  exact h.span _ (y + j) _

theorem glyph (h : Spans P col) (x y : Int) (g : Nat) (s : Int) : P fun c => drawGlyph c x y g s col := by
  refine h.foldl (fun p => ?_) _
  exact h.ite (h.fillRect (x + p.1 * s) (y + p.2 * s) s s)

theorem digit (h : Spans P col) (x y : Int) (g : Nat) (s : Int) : P fun c => drawDigit c x y g s col := by
  refine h.foldl (fun p => ?_) _
  exact h.ite (h.fillRect (x + p.1 * s) (y + p.2 * s) s s)

theorem text (h : Spans P col) (x y : Int) (str : List UInt8) (s : Int) :
    P fun c => canvasText c x y str s col := by
  induction str generalizing x with
  | nil => exact h.id
  | cons ch rest ih =>
    cases hg : glyphIndex ch with
    | none =>
      simp only [canvasText, hg]
      exact ih (x + 4 * s)
    | some g =>
      simp only [canvasText, hg]
      exact h.comp (h.glyph x y g s) (ih (x + 4 * s))

theorem text7 (h : Spans P col) (x y : Int) (str : List UInt8) (s : Int) :
    P fun c => canvasText7 c x y str s col := by
  induction str generalizing x with
  | nil => exact h.id
  | cons ch rest ih =>
    cases hg : digitIndex ch with
    | none =>
      simp only [canvasText7, hg]
      exact ih (x + 6 * s)
    | some g =>
      simp only [canvasText7, hg]
      exact h.comp (h.digit x y g s) (ih (x + 6 * s))

end Spans

end Closed

/-- On the first canvas the operation does inside the region what it does there on the second, and
nothing outside. -/
structure Clips (z z' : CanvasSize) (R : Set (Int × Int)) (f : Canvas → Canvas) : Prop where
  size : ∀ px, (f ⟨z, px⟩).toCanvasSize = z
  size' : ∀ px, (f ⟨z', px⟩).toCanvasSize = z'
  inside : ∀ px px', EqOn px px' R → EqOn (f ⟨z, px⟩).px (f ⟨z', px'⟩).px R
  outside : ∀ px, ∀ p ∉ R, (f ⟨z, px⟩).px p = px p

/-- What is visible on the first canvas is what the second shows in the region. -/
def Shares (z z' : CanvasSize) (R : Set (Int × Int)) : Prop :=
  ∀ p : Int × Int, canvasVisible z p.1 p.2 = true ↔ canvasVisible z' p.1 p.2 = true ∧ p ∈ R

variable {z z' : CanvasSize} {R : Set (Int × Int)} {f g : Canvas → Canvas}

namespace Clips

theorem id : Clips z z' R fun c => c :=
  ⟨fun _ => rfl, fun _ => rfl, fun _ _ h => h, fun _ _ _ => rfl⟩

theorem comp (hf : Clips z z' R f) (hg : Clips z z' R g) : Clips z z' R fun c => g (f c) := by
  have hfirst (px : Int × Int → UInt32) : f ⟨z, px⟩ = ⟨z, (f ⟨z, px⟩).px⟩ := canvas_eta (hf.size px)
  have hsecond (px : Int × Int → UInt32) : f ⟨z', px⟩ = ⟨z', (f ⟨z', px⟩).px⟩ :=
    canvas_eta (hf.size' px)
  refine ⟨fun px => ?_, fun px => ?_, fun px px' heq => ?_, fun px p hp => ?_⟩
  · rw [hfirst]
    exact hg.size _
  · rw [hsecond]
    exact hg.size' _
  · rw [hfirst, hsecond]
    exact hg.inside _ _ (hf.inside px px' heq)
  · rw [hfirst, hg.outside _ p hp]
    exact hf.outside px p hp

theorem composes : Composes (Clips z z' R) := ⟨id, fun hf hg => hf.comp hg⟩

/-- An operation that rewrites each visible pixel of a shape from its own old value. -/
theorem visible (hshare : Shares z z' R) (shape : Int × Int → Prop) [DecidablePred shape]
    (new : Int × Int → UInt32 → UInt32)
    (hf : ∀ z px, f ⟨z, px⟩ =
      ⟨z, fun p => if shape p ∧ canvasVisible z p.1 p.2 = true then new p (px p) else px p⟩) :
    Clips z z' R f := by
  refine ⟨fun px => by rw [hf], fun px => by rw [hf], fun px px' heq p hp => ?_, fun px p hp => ?_⟩
  · have hsame : shape p ∧ canvasVisible z p.1 p.2 = true ↔
        shape p ∧ canvasVisible z' p.1 p.2 = true :=
      and_congr_right fun _ => (hshare p).trans (and_iff_left hp)
    rw [hf, hf]
    exact ite_congr (propext hsame) (fun _ => congrArg (new p) (heq hp)) fun _ => heq hp
  · rw [hf]
    exact if_neg fun h => hp ((hshare p).mp h.2).2

end Clips

/-- One pixel rewritten if it is visible. -/
theorem set_visible {x y : Int} (px : Int × Int → UInt32) (new : UInt32 → UInt32) :
    (if canvasVisible z x y then Canvas.set ⟨z, px⟩ (x, y) (new (px (x, y))) else ⟨z, px⟩) =
      ⟨z, fun p => if p = (x, y) ∧ canvasVisible z p.1 p.2 = true then new (px p) else px p⟩ := by
  split
  · rename_i hv
    apply congrArg (Canvas.mk z)
    funext p
    by_cases hp : p = (x, y)
    · rw [hp, Function.update_self]
      exact (if_pos ⟨rfl, hv⟩).symm
    · rw [Function.update_of_ne hp]
      exact (if_neg fun h => hp h.1).symm
  · rename_i hv
    apply congrArg (Canvas.mk z)
    funext p
    refine (if_neg fun h => hv ?_).symm
    have hvisible := h.2
    rw [h.1] at hvisible
    exact hvisible

section Primitives
variable (h : Shares z z' R)
include h

theorem clips_span (x y w : Int) (col : UInt32) : Clips z z' R fun c => span c x y w col :=
  Clips.visible h (· ∈ box x y w 1) (fun _ _ => col) fun _ px => span_eq px x y w col

theorem clips_spans (col : UInt32) : Spans (Clips z z' R) col :=
  ⟨Clips.composes, fun x y w => clips_span h x y w col⟩

theorem clips_draw (F D : Type) [CFloat F] [CFloat D] (op : Draw) :
    Clips z z' R fun c => op.run F D c := by
  cases op with
  | put x y col =>
    exact Clips.visible h (· = (x, y)) (fun _ _ => col) fun _ px => set_visible px fun _ => col
  | fillRect x y w height col => exact (clips_spans h col).fillRect x y w height
  | roundRect x y w height r col => exact (clips_spans h col).roundRect F x y w height r
  | text x y str s col => exact (clips_spans h col).text x y str s
  | text7 x y str s col => exact (clips_spans h col).text7 x y str s
  | blend x y col =>
    exact Clips.visible h (· = (x, y)) (fun _ v => canvasOver v col) fun _ px =>
      set_visible px fun v => canvasOver v col
  | blendRect x y w height col =>
    exact Clips.visible h (· ∈ box x y w height) (fun _ v => canvasOver v col) fun _ px =>
      canvasBlendRect_eq px x y w height col
  | blendRoundRect x y w height r col =>
    exact Clips.visible h (· ∈ box x y w height)
      (fun p v => canvasOver v (roundSource D x y w height r col p)) fun _ px =>
        canvasBlendRoundRect_eq D px x y w height r col

end Primitives

theorem shares_clip (z : CanvasSize) (x y h : Int) {w : Int} (hw : 0 < w) :
    Shares { z with clipX := x, clipY := y, clipW := w, clipH := h }
      { z with clipW := 0, clipH := 0 } (box x y w h) := by
  intro p
  rw [canvasVisible_iff, canvasVisible_iff, mem_box]
  dsimp only
  omega

theorem shares_none (z : CanvasSize) (x y h : Int) {w : Int} (hw : w ≤ 0) :
    Shares { z with clipX := x, clipY := y, clipW := w, clipH := h }
      { z with clipW := 0, clipH := 0 } univ := by
  intro p
  rw [canvasVisible_iff, canvasVisible_iff, and_iff_left (mem_univ p)]
  dsimp only
  omega

/-- Drawing under a clip of positive width keeps of the whole drawing what lies in the clip, and
every other pixel as it was; a clip without width is none. -/
theorem draw_clipped (F D : Type) [CFloat F] [CFloat D] (c : Canvas) (x y w h : Int)
    (ops : List Draw) :
    let clipped := ops.foldl (Draw.run F D) (canvasSetClip c x y w h)
    let whole := ops.foldl (Draw.run F D) (canvasClearClip c)
    (0 < w → (∀ p ∈ box x y w h, clipped.px p = whole.px p) ∧
      ∀ p ∉ box x y w h, clipped.px p = c.px p) ∧
      (w ≤ 0 → clipped.px = whole.px) := by
  intro clipped whole
  refine ⟨fun hw => ?_, fun hw => ?_⟩
  · have hops := Clips.composes.foldl (clips_draw (shares_clip c.toCanvasSize x y h hw) F D) ops
    exact ⟨fun p hp => hops.inside c.px c.px (fun _ _ => rfl) hp, hops.outside c.px⟩
  · have hops := Clips.composes.foldl (clips_draw (shares_none c.toCanvasSize x y h hw) F D) ops
    funext p
    exact hops.inside c.px c.px (fun _ _ => rfl) (mem_univ p)

/-- A status line repainted under a clip that cuts its text and its pill. -/
theorem repainted_status_line :
    let c : Canvas := ⟨⟨64, 16, 5, 5, 1, 1⟩, fun _ => 0xff102030⟩
    let ops : List Draw := [.fillRect 0 0 64 16 0xff000000, .blendRoundRect (-3) 2 20 12 6 0xc0ff8000,
      .roundRect 30 1 9 14 4 0xff00ff00, .text7 4 4 (cstr "42%") 1 0xffffffff, .blend 8 8 0x80ffffff]
    let clipped := ops.foldl (Draw.run Binary32 ℚ) (canvasSetClip c 6 3 30 8)
    let whole := ops.foldl (Draw.run Binary32 ℚ) (canvasClearClip c)
    (∀ p ∈ box 6 3 30 8, clipped.px p = whole.px p) ∧ ∀ p ∉ box 6 3 30 8, clipped.px p = c.px p :=
  (draw_clipped Binary32 ℚ _ 6 3 30 8 _).1 (by decide)

/-- Under a clip without width everything is painted. -/
theorem empty_clip_painted :
    let c : Canvas := ⟨⟨8, 8, 0, 0, 0, 0⟩, fun _ => 0⟩
    let clipped := canvasPut (canvasSetClip c 2 2 0 4) 5 5 0xffffffff
    (5, 5) ∉ box 2 2 0 4 ∧ clipped.px (5, 5) ≠ c.px (5, 5) := by
  decide

end Taq102.Graphics
