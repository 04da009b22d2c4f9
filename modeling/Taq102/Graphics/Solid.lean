import Taq102.Graphics.Clip
import Taq102.Graphics.Over

/-! What is painted in colours of full alpha, or blended, leaves full alpha where it was. -/
namespace Taq102.Graphics
open Taq102.Lib CFloat

/-- The operation keeps the size of the canvas, and full alpha where it was. -/
structure KeepsSolid (f : Canvas → Canvas) : Prop where
  size : ∀ c, (f c).toCanvasSize = c.toCanvasSize
  solid : ∀ c p, alphaOf (c.px p) = 255 → alphaOf ((f c).px p) = 255

variable {f g : Canvas → Canvas}

theorem Solid.kept {c : Canvas} (h : Solid c) (hf : KeepsSolid f) : Solid (f c) := by
  intro p hp
  rw [hf.size] at hp
  exact hf.solid c p (h p hp)

namespace KeepsSolid

theorem id : KeepsSolid fun c => c := ⟨fun _ => rfl, fun _ _ h => h⟩

theorem comp (hf : KeepsSolid f) (hg : KeepsSolid g) : KeepsSolid fun c => g (f c) :=
  ⟨fun c => (hg.size (f c)).trans (hf.size c), fun c p h => hg.solid (f c) p (hf.solid c p h)⟩

theorem composes : Composes KeepsSolid := ⟨id, fun hf hg => hf.comp hg⟩

/-- An operation that may leave the canvas alone, by what it is. -/
theorem guarded {q : Canvas → Prop} [DecidablePred q] (hf : KeepsSolid f) :
    KeepsSolid fun c => if q c then c else f c := by
  constructor
  · intro c
    by_cases hq : q c
    · exact congrArg Canvas.toCanvasSize (if_pos hq)
    · exact (congrArg Canvas.toCanvasSize (if_neg hq)).trans (hf.size c)
  · intro c p h
    by_cases hq : q c
    · simpa only [if_pos hq] using h
    · simpa only [if_neg hq] using hf.solid c p h

/-- An operation that rewrites some visible pixels from their old values. -/
theorem visible (shape : Int × Int → Prop) [DecidablePred shape] (new : Int × Int → UInt32 → UInt32)
    (hf : ∀ z px, f ⟨z, px⟩ =
      ⟨z, fun p => if shape p ∧ canvasVisible z p.1 p.2 = true then new p (px p) else px p⟩)
    (hnew : ∀ p v, alphaOf v = 255 → alphaOf (new p v) = 255) : KeepsSolid f := by
  refine ⟨fun c => by rw [canvas_eta (rfl : c.toCanvasSize = _), hf], fun c p h => ?_⟩
  rw [canvas_eta (rfl : c.toCanvasSize = _), hf]
  dsimp only
  split
  · exact hnew p _ h
  · exact h

end KeepsSolid

section Primitives
variable {col : UInt32}

theorem keepsSolid_put (hcol : alphaOf col = 255) (x y : Int) : KeepsSolid fun c => canvasPut c x y col :=
  .visible (· = (x, y)) (fun _ _ => col) (fun _ px => set_visible px fun _ => col) fun _ _ _ => hcol

theorem keepsSolid_spans (hcol : alphaOf col = 255) : Spans KeepsSolid col :=
  ⟨KeepsSolid.composes, fun x y w => .visible (· ∈ box x y w 1) (fun _ _ => col)
    (fun _ px => span_eq px x y w col) fun _ _ _ => hcol⟩

theorem keepsSolid_blend (x y : Int) (col : UInt32) : KeepsSolid fun c => canvasBlend c x y col :=
  .visible (· = (x, y)) (fun _ v => canvasOver v col) (fun _ px => set_visible px fun v => canvasOver v col)
    fun _ _ h => canvasOver_solid h col

/-- A fill of a canvas from its top to at least its bottom. -/
theorem solid_filled (hcol : alphaOf col = 255) {z : CanvasSize} (hclip : z.clipW ≤ 0) {h : Int}
    (hh : z.h ≤ h) (px : Int × Int → UInt32) : Solid (canvasFillRect ⟨z, px⟩ 0 0 z.w h col) := by
  have hfill : canvasFillRect ⟨z, px⟩ 0 0 z.w h col = _ :=
    foldl_span (intRange 0 h) px (fun _ => 0) (fun _ => z.w) 0 col
  rw [hfill]
  intro p hp
  dsimp only at hp ⊢
  rw [if_pos]
  · exact hcol
  · rw [mem_intRange, canvasVisible_iff]
    exact ⟨by omega, by omega, hp, fun hpos => by omega⟩

end Primitives

end Taq102.Graphics
