import Taq102.Panel.Freshness
import Taq102.Panel.Repaint

/-! The panel in a frame (`control_overlay_draw`): when its texture is brought up to date, and where it
is drawn. -/
namespace Taq102.Panel
open Taq102.Lib CFloat Marking
open Taq102.Graphics
open Paint Overlay Controls Repaint

/-- The overlay between two frames. -/
structure OverlayState (F : Type) where
  overlay : ControlOverlay F
  prepared : Bool
  paintedAtMs : Int

/-- What is drawn over the scene. -/
inductive Layer where
  | scrim
  | panel
  | bar
  deriving DecidableEq, Repr

/-- A call of `quad`. -/
structure Quad (F : Type) where
  layer : Layer
  x : F
  y : F
  w : Int
  h : Int
  flipped : Bool

structure ScreenSize where
  w : Int
  h : Int

def statusbarHeight (w : Int) : Int := 12 * w.tdiv 256

section Model
variable {F : Type} (D : Type) [CFloat F] [CFloat D]

def ccSlideOffset (m : CcModel F) : F := (lit 1 - m.slide) * lit 408

/-- The first texture is prepared before the first frame. -/
def prepareOverlay (fonts : Option CcFonts) (o : OverlayState F) (m : CcModel F) :
    OverlayState F × CcModel F :=
  if o.prepared then (o, m)
  else
    ({ o with overlay := prepare D o.overlay.panel o.overlay.panelTex m fonts, prepared := true },
      { m with dirty := 0 })

/-- A drag's changes are painted 33 ms apart. -/
def paintDue (o : OverlayState F) (m : CcModel F) (now : Int) (deferUpdates : Bool) : Prop :=
  deferUpdates = false ∧ m.dirty ≠ 0 ∧ (m.draggingBrightness = 0 ∨ 33 ≤ now - o.paintedAtMs)

instance (o : OverlayState F) (m : CcModel F) (now : Int) (deferUpdates : Bool) :
    Decidable (paintDue o m now deferUpdates) := by
  unfold paintDue
  infer_instance

/-- The quads are in the order they are drawn in. -/
def controlOverlayDraw (fonts : Option CcFonts) (screen : ScreenSize) (o : OverlayState F) (m : CcModel F)
    (flipped : Bool) (now : Int) (deferUpdates : Bool) :
    OverlayState F × CcModel F × List (Quad F) :=
  let ready := prepareOverlay D fonts o m
  let bar : Quad F := ⟨.bar, lit 0, lit 0, screen.w, statusbarHeight screen.w, flipped⟩
  if ccVisible ready.2 then
    let painted : OverlayState F × CcModel F :=
      if paintDue ready.1 ready.2 now deferUpdates then
        ({ ready.1 with overlay := update D fonts ready.1.overlay ready.2, paintedAtMs := now },
          { ready.2 with dirty := 0 })
      else ready
    (painted.1, painted.2,
      [⟨.scrim, lit 0, lit 0, screen.w, screen.h, flipped⟩,
        ⟨.panel, ofInt ccPanel.x, ofInt ccPanel.y - ccSlideOffset painted.2, ccPanel.w, ccPanel.h, flipped⟩,
        bar])
  else (ready.1, ready.2, [bar])

theorem controlOverlayDraw_prepared (fonts : Option CcFonts) (screen : ScreenSize) (o : OverlayState F)
    (m : CcModel F) (flipped : Bool) (now : Int) (deferUpdates : Bool) :
    (controlOverlayDraw D fonts screen o m flipped now deferUpdates).1.prepared = true := by
  have hready : (prepareOverlay D fonts o m).1.prepared = true := by
    unfold prepareOverlay
    split
    · assumption
    · rfl
  unfold controlOverlayDraw
  dsimp only
  split
  · dsimp only
    split <;> exact hready
  · exact hready

theorem controlOverlayDraw_flipped {fonts : Option CcFonts} {screen : ScreenSize} {o : OverlayState F}
    {m : CcModel F} {flipped : Bool} {now : Int} {deferUpdates : Bool} {q : Quad F}
    (hq : q ∈ (controlOverlayDraw D fonts screen o m flipped now deferUpdates).2.2) : q.flipped = flipped := by
  unfold controlOverlayDraw at hq
  dsimp only at hq
  split at hq
  · simp only [List.mem_cons, List.not_mem_nil, or_false] at hq
    rcases hq with rfl | rfl | rfl <;> rfl
  · obtain rfl := List.mem_singleton.mp hq
    rfl

end Model

section Shown
variable {F D : Type} [CFloat D] {z : CanvasSize} {fonts : Option CcFonts}

/-- A painting depends on the appearance alone. -/
theorem ccPaint_congr (c : Canvas) {m m' : CcModel F} (h : appearance m = appearance m') :
    ccPaint D c m fonts = ccPaint D c m' fonts := by
  unfold appearance at h
  simp only [Appearance.mk.injEq, Prod.mk.injEq] at h
  obtain ⟨⟨hlevel, hmax⟩, hauto, ⟨hwifi, hssid, haddr, hdbm⟩, harmed, hminutes, hnote, hcap, hword, hbuild,
    hkernel⟩ := h
  have hpainter (i : Control) (hi : SameState m m' i) (c : Canvas) :
      painter D (faces fonts) m i c = painter D (faces fonts) m' i c := congrFun (painter_congr D hi) c
  have hwifi' := hpainter .wifi ⟨hwifi, hssid, haddr, fun _ => hdbm⟩
  have hbright' := hpainter .bright ⟨hlevel, hmax⟩
  have hauto' := hpainter .auto hauto
  have hactions' := hpainter .actions harmed
  have htimer' := hpainter .timer hminutes
  have hnote' := hpainter .note hnote
  have hfooter' := hpainter .footer ⟨hcap, hword, hbuild, hkernel⟩
  unfold painter at hwifi' hbright' hauto' hactions' htimer' hnote' hfooter'
  unfold ccPaint
  simp only [hwifi', hbright', hauto', hactions', htimer', hnote', hfooter']

variable (D) in
/-- What a frame can rely on: a prepared texture shows the model last painted, and that is the model's
appearance unless it is marked. -/
structure UpToDate (z : CanvasSize) (px : Int × Int → UInt32) (fonts : Option CcFonts) (o : OverlayState F)
    (m : CcModel F) : Prop where
  empty : o.prepared = false → o.overlay.panel = ⟨z, px⟩
  inStep : o.prepared = true → InStep D fonts ⟨z, px⟩ o.overlay ∧ o.overlay.painted.brightnessMax < 2147483648
  fresh : o.prepared = true → panelMarking.Fresh (appearance o.overlay.painted) m

variable {px : Int × Int → UInt32} {o : OverlayState F} {m m' : CcModel F}

theorem UpToDate.marked (h : UpToDate D z px fonts o m) (hmarked : Marked m m') : UpToDate D z px fonts o m' :=
  ⟨h.empty, h.inStep, fun hp => hmarked.fresh (h.fresh hp)⟩

/-- The texture is a full painting of the model. -/
def ShowsPanel (D : Type) [CFloat D] (z : CanvasSize) (px : Int × Int → UInt32) (fonts : Option CcFonts)
    (o : OverlayState F) (m : CcModel F) : Prop :=
  ∀ p ∈ area ccPanel, o.overlay.panelTex p = rgba ((ccPaint D ⟨z, px⟩ m fonts).px p)

theorem UpToDate.shows (h : UpToDate D z px fonts o m) (hprepared : o.prepared = true) (hclean : m.dirty = 0) :
    ShowsPanel D z px fonts o m := by
  intro p hp
  have hinStep := (h.inStep hprepared).1
  have happearance : appearance m = appearance o.overlay.painted :=
    h.fresh hprepared (fun hdirty => hdirty hclean)
  rw [hinStep.texture p hp, hinStep.panel, ccPaint_congr ⟨z, px⟩ happearance]

variable [LawfulShare D]

theorem prepareOverlay_kept (hz : Whole z) (hf : Confined z (faces fonts)) (h : UpToDate D z px fonts o m)
    (hmax : m.brightnessMax < 2147483648) :
    UpToDate D z px fonts (prepareOverlay D fonts o m).1 (prepareOverlay D fonts o m).2 ∧
      (prepareOverlay D fonts o m).1.prepared = true := by
  unfold prepareOverlay
  by_cases hprepared : o.prepared = true
  · rw [if_pos hprepared]
    exact ⟨h, hprepared⟩
  · rw [if_neg hprepared]
    have hpanel := h.empty (by simpa using hprepared)
    have hinStep := prepare_inStep (D := D) hz hf px o.overlay.panelTex ⟨m, hmax⟩
    refine ⟨⟨nofun, fun _ => ⟨?_, hmax⟩, fun _ _ => rfl⟩, rfl⟩
    rw [hpanel]
    exact hinStep

variable [CFloat F] (screen : ScreenSize) (flipped : Bool) (now : Int) (deferUpdates : Bool)

theorem controlOverlayDraw_kept (hz : Whole z) (hf : Confined z (faces fonts)) (h : UpToDate D z px fonts o m)
    (hmax : m.brightnessMax < 2147483648) :
    UpToDate D z px fonts (controlOverlayDraw D fonts screen o m flipped now deferUpdates).1
        (controlOverlayDraw D fonts screen o m flipped now deferUpdates).2.1 ∧
      (controlOverlayDraw D fonts screen o m flipped now deferUpdates).1.prepared = true := by
  obtain ⟨hready, hprepared⟩ := prepareOverlay_kept hz hf h hmax
  have hsame : (prepareOverlay D fonts o m).2.brightnessMax = m.brightnessMax := by
    unfold prepareOverlay
    split <;> rfl
  unfold controlOverlayDraw
  dsimp only
  generalize prepareOverlay D fonts o m = ready at *
  split
  · dsimp only
    split
    · obtain ⟨hinStep, hint⟩ := hready.inStep hprepared
      have hupdated := update_inStep hz hf px hint hinStep ⟨ready.2, hsame ▸ hmax⟩
      refine ⟨⟨fun hnot => ?_, fun _ => ⟨hupdated, hsame ▸ hmax⟩, fun _ _ => rfl⟩, hprepared⟩
      exact nomatch hnot.symm.trans hprepared
    · exact ⟨hready, hprepared⟩
  · exact ⟨hready, hprepared⟩

omit [LawfulShare D] in
/-- A visible panel is brought up to date, unless that is put off or a drag was painted just before. -/
theorem controlOverlayDraw_clean (hvisible : ccVisible m = true) (hdefer : deferUpdates = false)
    (hdrag : m.draggingBrightness = 0 ∨ 33 ≤ now - o.paintedAtMs) :
    (controlOverlayDraw D fonts screen o m flipped now deferUpdates).2.1.dirty = 0 := by
  have hready : ccVisible (prepareOverlay D fonts o m).2 = true ∧
      ((prepareOverlay D fonts o m).2.draggingBrightness = 0 ∨
        33 ≤ now - (prepareOverlay D fonts o m).1.paintedAtMs) := by
    unfold prepareOverlay
    split
    · exact ⟨hvisible, hdrag⟩
    · exact ⟨hvisible, hdrag⟩
  unfold controlOverlayDraw
  dsimp only
  rw [if_pos hready.1]
  dsimp only
  split
  · rfl
  · rename_i hnot
    by_contra hdirty
    exact hnot ⟨hdefer, hdirty, hready.2⟩

omit [LawfulShare D] in
/-- Of the model, a frame only clears the mark. -/
theorem controlOverlayDraw_model : (controlOverlayDraw D fonts screen o m flipped now deferUpdates).2.1 = m ∨
    (controlOverlayDraw D fonts screen o m flipped now deferUpdates).2.1 = { m with dirty := 0 } := by
  have hready : (prepareOverlay D fonts o m).2 = m ∨ (prepareOverlay D fonts o m).2 = { m with dirty := 0 } := by
    unfold prepareOverlay
    split
    · exact .inl rfl
    · exact .inr rfl
  unfold controlOverlayDraw
  dsimp only
  generalize prepareOverlay D fonts o m = ready at *
  split
  · dsimp only
    split
    · rcases hready with hready | hready
      · exact .inr (by rw [hready])
      · exact .inr (by rw [hready])
    · exact hready
  · exact hready

end Shown

end Taq102.Panel
