import Taq102.Graphics.Canvas

/-! The region of the canvas each drawing operation paints, and what it puts there. -/
namespace Taq102.Graphics
open Set
open Taq102.Lib CFloat Raster

/-- On a canvas of this size the operation paints the region only, from the region only. -/
structure Paints (z : CanvasSize) (R : Set (Int × Int)) (f : Canvas → Canvas) : Prop where
  size : ∀ px, (f ⟨z, px⟩).toCanvasSize = z
  patch : Patch R fun px => (f ⟨z, px⟩).px

/-- The pixels of a rectangle. -/
def box (x y w h : Int) : Set (Int × Int) := {p | x ≤ p.1 ∧ p.1 < x + w ∧ y ≤ p.2 ∧ p.2 < y + h}

theorem mem_box {x y w h : Int} {p : Int × Int} :
    p ∈ box x y w h ↔ x ≤ p.1 ∧ p.1 < x + w ∧ y ≤ p.2 ∧ p.2 < y + h := Iff.rfl

instance (x y w h : Int) (p : Int × Int) : Decidable (p ∈ box x y w h) :=
  decidable_of_iff _ mem_box.symm

variable {z : CanvasSize} {R S : Set (Int × Int)} {f g : Canvas → Canvas}

theorem canvas_eta {c : Canvas} (h : c.toCanvasSize = z) : c = ⟨z, c.px⟩ := by
  cases h
  rfl

namespace Paints

theorem apply_eq (h : Paints z R f) (px : Int × Int → UInt32) : f ⟨z, px⟩ = ⟨z, (f ⟨z, px⟩).px⟩ :=
  canvas_eta (h.size px)

theorem id : Paints z R fun c => c := ⟨fun _ => rfl, Patch.refl R⟩

theorem mono (h : Paints z R f) (hsub : R ⊆ S) : Paints z S f := ⟨h.size, h.patch.mono hsub⟩

theorem comp (hf : Paints z R f) (hg : Paints z R g) : Paints z R fun c => g (f c) := by
  have heq (px : Int × Int → UInt32) : g (f ⟨z, px⟩) = g ⟨z, (f ⟨z, px⟩).px⟩ :=
    congrArg g (hf.apply_eq px)
  constructor
  · intro px
    rw [heq]
    exact hg.size _
  · have hcomp := hf.patch.comp hg.patch
    simp only [heq]
    exact hcomp

theorem congr (h : ∀ px, f ⟨z, px⟩ = g ⟨z, px⟩) (hg : Paints z R g) : Paints z R f := by
  constructor
  · intro px
    rw [h]
    exact hg.size px
  · simp only [h]
    exact hg.patch

theorem ite {q : Prop} [Decidable q] (hf : Paints z R f) (hg : Paints z R g) :
    Paints z R fun c => if q then f c else g c := by
  by_cases hq : q
  · simp only [if_pos hq]
    exact hf
  · simp only [if_neg hq]
    exact hg

/-- A loop stays in the region of its body. -/
theorem foldl {α : Type} {step : Canvas → α → Canvas} {l : List α}
    (h : ∀ a ∈ l, Paints z R fun c => step c a) : Paints z R fun c => l.foldl step c := by
  induction l with
  | nil => exact id
  | cons a rest ih =>
    have hrest := ih fun b hb => h b (List.mem_cons_of_mem a hb)
    exact (h a List.mem_cons_self).comp hrest

/-- An operation that computes each pixel of the region from its old value. -/
theorem pixelwise {t : Int × Int → UInt32 → UInt32}
    (heq : ∀ px, f ⟨z, px⟩ = ⟨z, fun p => t p (px p)⟩) (ht : ∀ p ∉ R, ∀ v, t p v = v) :
    Paints z R f := by
  constructor
  · intro px
    rw [heq]
  · simp only [heq]
    exact Patch.pixelwise ht

theorem set {p : Int × Int} (hp : p ∈ R) (new : UInt32 → UInt32) :
    Paints z R fun c => c.set p (new (c.px p)) := by
  apply pixelwise (t := fun q v => if q = p then new v else v)
  · intro px
    apply congrArg (Canvas.mk z)
    funext q
    by_cases hq : q = p
    · subst hq
      simp
    · simp [hq]
  · intro q hq v
    exact if_neg fun heq => hq (by rw [heq]; exact hp)

theorem outside (h : Paints z R f) {c : Canvas} (hc : c.toCanvasSize = z) {p : Int × Int}
    (hp : p ∉ R) : (f c).px p = c.px p := by
  rw [canvas_eta hc]
  exact h.patch.outside c.px p hp

end Paints

theorem mem_boxPixels {x y w h : Int} {p : Int × Int} :
    p ∈ boxPixels z x y w h ↔
      p ∈ box x y w h ∧ 0 ≤ p.1 ∧ p.1 < z.w ∧ 0 ≤ p.2 ∧ p.2 < z.h := by
  rw [boxPixels, mem_pixels, mem_box]
  split <;> split <;> split <;> split <;> omega

theorem canvasBlend_eq (p : Int × Int) {px : Int × Int → UInt32} {col : UInt32} :
    canvasBlend ⟨z, px⟩ p.1 p.2 col =
      Canvas.set ⟨z, px⟩ p (if canvasVisible z p.1 p.2 then canvasOver (px p) col else px p) := by
  by_cases hv : canvasVisible z p.1 p.2
  · rw [canvasBlend, if_pos hv, if_pos hv]
  · rw [canvasBlend, if_neg hv, if_neg hv, Canvas.set, Function.update_eq_self]

theorem canvasVisible_on {x y : Int} (h : canvasVisible z x y = true) :
    0 ≤ x ∧ x < z.w ∧ 0 ≤ y ∧ y < z.h := by
  by_cases hoff : x < 0 ∨ y < 0 ∨ z.w ≤ x ∨ z.h ≤ y
  · rw [canvasVisible, if_pos hoff] at h
    cases h
  · omega

theorem paints_blend {x y : Int} {col : UInt32} (hp : (x, y) ∈ R) :
    Paints z R fun c => canvasBlend c x y col := by
  apply Paints.pixelwise
    (t := fun q v => if q = (x, y) ∧ canvasVisible z x y then canvasOver v col else v)
  · intro px
    rw [canvasBlend_eq (x, y)]
    apply congrArg (Canvas.mk z)
    funext q
    by_cases hq : q = (x, y)
    · subst hq
      simp
    · simp [hq]
  · intro q hq v
    exact if_neg fun heq => hq (by rw [heq.1]; exact hp)

/-- A pixel after a rectangle of colours has been blended over it. -/
def blended (z : CanvasSize) (x y w h : Int) (src : Int × Int → UInt32) (p : Int × Int)
    (v : UInt32) : UInt32 :=
  if p ∈ box x y w h ∧ canvasVisible z p.1 p.2 then canvasOver v (src p) else v

theorem blended_outside {x y w h : Int} {src : Int × Int → UInt32} {p : Int × Int}
    (hp : p ∉ box x y w h) (v : UInt32) : blended z x y w h src p v = v :=
  if_neg fun hin => hp hin.1

theorem blended_inside {x y w h : Int} {src : Int × Int → UInt32} {p : Int × Int}
    (hp : p ∈ box x y w h) (hv : canvasVisible z p.1 p.2 = true) (v : UInt32) :
    blended z x y w h src p v = canvasOver v (src p) := if_pos ⟨hp, hv⟩

theorem blended_empty {x y w h : Int} (hempty : w ≤ 0 ∨ h ≤ 0) (src : Int × Int → UInt32)
    (px : Int × Int → UInt32) : (fun p => blended z x y w h src p (px p)) = px := by
  funext p
  apply blended_outside
  rw [mem_box]
  omega

theorem foldl_blend (px : Int × Int → UInt32) (x y w h : Int) (src : Int × Int → UInt32) :
    (boxPixels z x y w h).foldl (fun c p => canvasBlend c p.1 p.2 (src p)) ⟨z, px⟩ =
      ⟨z, fun p => blended z x y w h src p (px p)⟩ := by
  have hfold : (boxPixels z x y w h).foldl (fun c p => canvasBlend c p.1 p.2 (src p)) ⟨z, px⟩ = _ :=
    foldl_pixels (fun p v => if canvasVisible z p.1 p.2 then canvasOver v (src p) else v)
      (fun px p => canvasBlend_eq p) (l := boxPixels z x y w h) (pixels_nodup _ _ _ _) px
  rw [hfold]
  apply congrArg (Canvas.mk z)
  funext p
  by_cases hv : canvasVisible z p.1 p.2
  · have hon := canvasVisible_on hv
    by_cases hp : p ∈ box x y w h
    · rw [if_pos (mem_boxPixels.mpr ⟨hp, hon⟩), if_pos hv, blended_inside hp hv]
    · rw [if_neg fun hin => hp (mem_boxPixels.mp hin).1, blended_outside hp]
  · rw [if_neg hv, ite_self]
    exact (if_neg fun hin => hv hin.2).symm

/-- A blended rectangle, pixel by pixel. -/
theorem canvasBlendRect_eq (px : Int × Int → UInt32) (x y w h : Int) (col : UInt32) :
    canvasBlendRect ⟨z, px⟩ x y w h col = ⟨z, fun p => blended z x y w h (fun _ => col) p (px p)⟩ := by
  by_cases hempty : w ≤ 0 ∨ h ≤ 0
  · rw [canvasBlendRect, if_pos hempty, blended_empty hempty]
  · rw [canvasBlendRect, if_neg hempty]
    exact foldl_blend px x y w h fun _ => col

/-- The cache only saves work. -/
theorem blendCached_eq (src : Int × Int → UInt32) (l : List (Int × Int)) (cache : BlendCache)
    (px : Int × Int → UInt32)
    (hcache : cache.cached → cache.lastResult = canvasOver cache.lastDst cache.lastSrc) :
    (l.foldl (blendCached src) (cache, ⟨z, px⟩)).2 =
      l.foldl (fun c p => canvasBlend c p.1 p.2 (src p)) ⟨z, px⟩ := by
  induction l generalizing cache px with
  | nil => rfl
  | cons p rest ih =>
    rw [List.foldl_cons, List.foldl_cons, canvasBlend_eq]
    by_cases hv : canvasVisible z p.1 p.2
    · rw [if_pos hv]
      by_cases hmiss : ¬ cache.cached ∨ cache.lastSrc ≠ src p ∨ cache.lastDst ≠ px p
      · have hstep : blendCached src (cache, ⟨z, px⟩) p =
            ({ lastSrc := src p, lastDst := px p, lastResult := canvasOver (px p) (src p),
               cached := true },
              Canvas.set ⟨z, px⟩ p (canvasOver (px p) (src p))) := by
          simp only [blendCached, hv, not_true, if_false, if_pos hmiss]
        rw [hstep]
        exact ih _ _ fun _ => rfl
      · have hstep : blendCached src (cache, ⟨z, px⟩) p =
            (cache, Canvas.set ⟨z, px⟩ p cache.lastResult) := by
          simp only [blendCached, hv, not_true, if_false, if_neg hmiss]
        simp only [not_or, not_not] at hmiss
        obtain ⟨hc, hsrc, hdst⟩ := hmiss
        rw [hstep, hcache hc, hsrc, hdst]
        apply ih
        intro _
        rw [hcache hc, hsrc, hdst]
    · have hstep : blendCached src (cache, ⟨z, px⟩) p = (cache, ⟨z, px⟩) := by
        simp [blendCached, hv]
      rw [hstep, if_neg hv, Canvas.set, Function.update_eq_self]
      exact ih cache px hcache

section Rounded
variable (D : Type) [CFloat D]

/-- The colour of each pixel of a rounded rectangle. -/
def roundSource (x y w h r : Int) (col : UInt32) (p : Int × Int) : UInt32 :=
  coveredColor col (roundCoverage D x y w h (clampRadius w h r) p.1 p.2)

/-- A rounded rectangle, pixel by pixel. -/
theorem canvasBlendRoundRect_eq (px : Int × Int → UInt32) (x y w h r : Int) (col : UInt32) :
    canvasBlendRoundRect D ⟨z, px⟩ x y w h r col =
      ⟨z, fun p => blended z x y w h (roundSource D x y w h r col) p (px p)⟩ := by
  by_cases hempty : w ≤ 0 ∨ h ≤ 0
  · rw [canvasBlendRoundRect, if_pos hempty, blended_empty hempty]
  · rw [canvasBlendRoundRect, if_neg hempty]
    change (List.foldl (blendCached (roundSource D x y w h r col)) _ _).2 = _
    rw [blendCached_eq _ _ _ _ (fun h => Bool.noConfusion h)]
    exact foldl_blend px x y w h (roundSource D x y w h r col)

theorem paints_blendRoundRect {x y w h r : Int} {col : UInt32} (hsub : box x y w h ⊆ R) :
    Paints z R fun c => canvasBlendRoundRect D c x y w h r col :=
  Paints.pixelwise (t := blended z x y w h (roundSource D x y w h r col))
    (fun px => canvasBlendRoundRect_eq D px x y w h r col)
    fun _ hp v => blended_outside (fun hin => hp (hsub hin)) v

end Rounded

theorem paints_span {x y w : Int} {col : UInt32} (hsub : box x y w 1 ⊆ R) :
    Paints z R fun c => span c x y w col := by
  let x0 := if x < 0 then 0 else x
  let x1 := if x + w > z.w then z.w else x + w
  let left := if z.clipW > 0 ∧ x0 < z.clipX then z.clipX else x0
  let right := if z.clipW > 0 ∧ x1 > z.clipX + z.clipW then z.clipX + z.clipW else x1
  have hleft : x ≤ left := by
    simp only [left, x0]
    split <;> split <;> omega
  have hright : right ≤ x + w := by
    simp only [right, x1]
    split <;> split <;> omega
  have hloop : Paints z R fun c => (intRange left right).foldl (fun c i => c.set (i, y) col) c := by
    apply Paints.foldl
    intro i hi
    have hrange := mem_intRange.mp hi
    have hpixel : (i, y) ∈ box x y w 1 := mem_box.mpr (by omega)
    exact Paints.set (hsub hpixel) fun _ => col
  have hspan := Paints.ite (q := y < 0 ∨ y ≥ z.h) Paints.id
    (Paints.ite (q := z.clipW > 0 ∧ (y < z.clipY ∨ y ≥ z.clipY + z.clipH)) Paints.id hloop)
  exact hspan.congr fun _ => rfl

theorem paints_fillRect {x y w h : Int} {col : UInt32} (hsub : box x y w h ⊆ R) :
    Paints z R fun c => canvasFillRect c x y w h col := by
  apply Paints.foldl
  intro j hj
  have hrow := mem_intRange.mp hj
  apply paints_span
  intro p hp
  have hspan := mem_box.mp hp
  exact hsub (mem_box.mpr (by omega))

theorem paints_glyph {x y s : Int} {g : Nat} {col : UInt32} (hs : 0 ≤ s)
    (hsub : box x y (3 * s) (5 * s) ⊆ R) : Paints z R fun c => drawGlyph c x y g s col := by
  apply Paints.foldl
  intro p hp
  have hcell := mem_pixels.mp hp
  apply Paints.ite _ Paints.id
  apply paints_fillRect
  intro q hq
  have hfill := mem_box.mp hq
  have hx : 0 ≤ p.1 * s ∧ p.1 * s + s ≤ 3 * s := by
    constructor <;> nlinarith
  have hy : 0 ≤ p.2 * s ∧ p.2 * s + s ≤ 5 * s := by
    constructor <;> nlinarith
  exact hsub (mem_box.mpr (by omega))

/-- A text stays within its width and the height of its glyphs. -/
theorem paints_text {x y s : Int} (str : List UInt8) (col : UInt32) (hs : 0 ≤ s)
    (hsub : box x y (canvasTextWidth str s) (5 * s) ⊆ R) :
    Paints z R fun c => canvasText c x y str s col := by
  induction str generalizing x with
  | nil => exact Paints.id
  | cons ch rest ih =>
    have hwidth : canvasTextWidth (ch :: rest) s = canvasTextWidth rest s + 4 * s := by
      rw [canvasTextWidth, canvasTextWidth, List.length_cons]
      push_cast
      ring
    have hrest : 0 ≤ canvasTextWidth rest s + s := by
      have hlen : (0 : Int) ≤ rest.length * 4 * s := by positivity
      rw [canvasTextWidth]
      omega
    have hglyph : box x y (3 * s) (5 * s) ⊆ R := by
      intro p hp
      have hin := mem_box.mp hp
      exact hsub (mem_box.mpr (by omega))
    have htail : box (x + 4 * s) y (canvasTextWidth rest s) (5 * s) ⊆ R := by
      intro p hp
      have hin := mem_box.mp hp
      exact hsub (mem_box.mpr (by omega))
    cases hg : glyphIndex ch with
    | none =>
      simp only [canvasText, hg]
      exact ih htail
    | some g =>
      simp only [canvasText, hg]
      exact (paints_glyph hs hglyph).comp (ih htail)

end Taq102.Graphics
