import Taq102.Panel.Controls
import Taq102.Panel.Overlay

/-! The panel as a picture of its controls: repainting the ones that changed gives the picture
of the new model, and the texture follows. -/
namespace Taq102.Panel.Repaint
open Set
open Taq102.Lib CFloat Raster
open Taq102.Graphics
open Paint Controls

/-- The part of the panel that is uniform glass, away from its rounded corners. -/
def interior : CcRect := ⟨432, 80, 528, 360⟩

theorem rects_interior : ∀ i, i ≠ .handle → ∀ r ∈ rects i, within r interior = true := by
  intro i
  cases i <;> decide

section Coverage
variable {D : Type} [CFloat D]

/-- A rounded rectangle covers the pixels at a distance from its corners. -/
theorem roundCoverage_full {x y w h r a b i j : Int} (hr : r ≤ 64)
    (hcircle : ((r - a) * 8 - 1) * ((r - a) * 8 - 1) + ((r - b) * 8 - 1) * ((r - b) * 8 - 1) ≤
      r * r * 64)
    (hx : x + a ≤ i ∧ i < x + w - a) (hy : y + b ≤ j ∧ j < y + h - b) :
    roundCoverage D x y w h r i j = 16 := by
  by_cases hmiddle : (x + r ≤ i ∧ i < x + w - r) ∨ (y + r ≤ j ∧ j < y + h - r)
  · rw [roundCoverage, if_pos hmiddle]
  · rw [roundCoverage, if_neg hmiddle, if_pos hr]
    have hsquare {s t : Int} (hs : 0 < s) (hst : s ≤ t) :
        (s * 8 - 1) * (s * 8 - 1) ≤ (t * 8 - 1) * (t * 8 - 1) := by
      nlinarith
    have hcorner {u v : Int} (hu : a ≤ u ∧ u < r) (hv : b ≤ v ∧ v < r) :
        cornerCoverage r u v = 16 := by
      apply cornerCoverage_full hu.2 hv.2
      have hcolumn := hsquare (s := r - u) (t := r - a) (by omega) (by omega)
      have hrow := hsquare (s := r - v) (t := r - b) (by omega) (by omega)
      omega
    apply hcorner
    · split <;> omega
    · split <;> omega

end Coverage

theorem coveredColor_glass : coveredColor glass 16 = glass := by decide

theorem coveredColor_tile : coveredColor tileColor 16 = tileColor := by decide

theorem over_clear : canvasOver 0 glass = glass := by decide

/-- A model whose slider range is an `int`. -/
abbrev IntModel (F : Type) := {m : CcModel F // m.brightnessMax < 2 ^ 31}

section Picture
variable {F : Type} (D : Type) [CFloat D] {z : CanvasSize} {f : CcFonts}

/-- The cleared panel with its glass, before any control. -/
def background (c : Canvas) : Canvas := rectangle D (clear c) ccPanel ccCardRadius glass

theorem clear_eq (px : Int × Int → UInt32) :
    clear ⟨z, px⟩ = ⟨z, fun p => if p ∈ pixels 0 0 z.w z.h then 0 else px p⟩ :=
  foldl_pixels (fun _ _ => 0) (fun _ _ => rfl) (pixels_nodup _ _ _ _) px

theorem paints_background : Paints z univ (background D) := by
  have hclear : Paints z univ clear :=
    Paints.pixelwise (t := fun p v => if p ∈ pixels 0 0 z.w z.h then 0 else v) clear_eq
      fun p hp => absurd (mem_univ p) hp
  exact paints_rectangle (subset_univ _) hclear

theorem interior_panel : area interior ⊆ area ccPanel := area_mono rfl

/-- Under every control but the handle there is glass. -/
theorem background_glass (hz : Whole z) (px : Int × Int → UInt32) {p : Int × Int}
    (hp : p ∈ area interior) : (background D ⟨z, px⟩).px p = glass := by
  have hin := mem_area.mp hp
  simp only [interior] at hin
  have hpixel : p ∈ pixels 0 0 z.w z.h := by
    rw [hz.w, hz.h, mem_pixels]
    omega
  have hcover : roundCoverage D 0 0 560 400 (clampRadius 560 400 28) p.1 p.2 = 16 :=
    roundCoverage_full (a := 16) (b := 16) (by decide) (by decide) (by omega) (by omega)
  have hsource : roundSource D 0 0 560 400 28 glass p = glass := by
    rw [roundSource, hcover, coveredColor_glass]
  have hbox : p ∈ box 0 0 560 400 := interior_panel hp
  change (canvasBlendRoundRect D (clear ⟨z, px⟩) 0 0 560 400 28 glass).px p = glass
  rw [clear_eq, canvasBlendRoundRect_eq]
  simp only
  rw [blended_inside hbox (visible hz (interior_panel hp)), hsource, if_pos hpixel, over_clear]

theorem restoreGlass_eq (hz : Whole z) {r : CcRect} (hr : within r ccPanel = true)
    (px : Int × Int → UInt32) :
    (restoreGlass ⟨z, px⟩ r).toCanvasSize = z ∧
      (∀ p ∈ area r, (restoreGlass ⟨z, px⟩ r).px p = glass) ∧
      ∀ p ∉ area r, (restoreGlass ⟨z, px⟩ r).px p = px p := by
  let x := r.x - ccPanel.x
  let y := r.y - ccPanel.y
  have hzero : (boxPixels z x y r.w r.h).foldl (fun c p => Canvas.set c p 0) ⟨z, px⟩ =
      ⟨z, fun p => if p ∈ boxPixels z x y r.w r.h then 0 else px p⟩ :=
    foldl_pixels (fun _ _ => 0) (fun _ _ => rfl) (pixels_nodup _ _ _ _) px
  have hrestore : restoreGlass ⟨z, px⟩ r =
      ⟨z, fun p => blended z x y r.w r.h (fun _ => glass) p
        (if p ∈ boxPixels z x y r.w r.h then 0 else px p)⟩ := by
    rw [← canvasBlendRect_eq, ← hzero]
    rfl
  rw [hrestore]
  refine ⟨rfl, fun p hp => ?_, fun p hp => ?_⟩
  · have hpanel := area_mono hr hp
    have hon := canvasVisible_on (visible hz hpanel)
    have hpixel : p ∈ boxPixels z x y r.w r.h := mem_boxPixels.mpr ⟨hp, hon⟩
    simp only
    rw [blended_inside hp (visible hz hpanel), if_pos hpixel, over_clear]
  · simp only
    rw [blended_outside hp, if_neg fun hin => hp (mem_boxPixels.mp hin).1]

/-- The fields a control's painter reads are those of the other model. -/
def SameState (m old : CcModel F) : Control → Prop
  | .handle => True
  | .wifi => m.wifi = old.wifi ∧ m.ssid = old.ssid ∧ m.addr = old.addr ∧
      (m.wifi = .connected → m.levelDbm = old.levelDbm)
  | .bright => m.brightness = old.brightness ∧ m.brightnessMax = old.brightnessMax
  | .auto => m.autoOn = old.autoOn
  | .off => True
  | .actions => m.armed = old.armed
  | .timer => m.sleepMinutes = old.sleepMinutes
  | .note => m.note = old.note
  | .footer => m.cap = old.cap ∧ m.battWord = old.battWord ∧ m.build = old.build ∧
      m.kernel = old.kernel

theorem wifiBody_congr {m old : CcModel F} (hwifi : m.wifi = old.wifi) (hssid : m.ssid = old.ssid)
    (haddr : m.addr = old.addr) (c : Canvas) : wifiBody D c m f = wifiBody D c old f := by
  simp only [wifiBody, wifiTexts, Paint.wifiName, wifiDetail, hwifi, hssid, haddr]

theorem painter_congr {m old : CcModel F} {i : Control} (h : SameState m old i) :
    painter D f m i = painter D f old i := by
  funext c
  cases i with
  | handle => rfl
  | wifi =>
    obtain ⟨hwifi, hssid, haddr, hlevel⟩ := h
    change wifi D c m f = wifi D c old f
    rw [wifi_eq, wifi_eq, wifiBody_congr D hwifi hssid haddr]
    by_cases hc : m.wifi = .connected
    · rw [if_pos hc, if_pos (hwifi ▸ hc), wifiSignal, wifiSignal, hlevel hc]
    · rw [if_neg hc, if_neg (hwifi ▸ hc)]
  | bright =>
    obtain ⟨hlevel, hmax⟩ := h
    have hmaximum : brightnessMaximum m = brightnessMaximum old := by
      rw [brightnessMaximum, brightnessMaximum, hmax]
    have hshown : brightnessLevel m = brightnessLevel old := by
      rw [brightnessLevel, brightnessLevel, hlevel, hmaximum]
    have hheight : fillHeight D m = fillHeight D old := by
      rw [fillHeight, fillHeight, hmaximum, hshown]
    change Paint.brightness D c m f = Paint.brightness D c old f
    simp only [Paint.brightness, hmaximum, hshown, hheight]
  | auto =>
    have hon : m.autoOn = old.autoOn := h
    change paintAuto D c m f = paintAuto D c old f
    simp only [paintAuto, hon]
  | off => rfl
  | actions =>
    have harmed : m.armed = old.armed := h
    change paintActions D c m f = paintActions D c old f
    simp only [paintActions, harmed]
  | timer =>
    have hminutes : m.sleepMinutes = old.sleepMinutes := h
    change paintTimer D c m f = paintTimer D c old f
    simp only [paintTimer, hminutes]
  | note =>
    have hnote : m.note = old.note := h
    change paintNote c m f = paintNote c old f
    simp only [paintNote, hnote]
  | footer =>
    obtain ⟨hcap, hword, hbuild, hkernel⟩ := h
    change paintFooter c m f = paintFooter c old f
    simp only [paintFooter, hcap, hword, hbuild, hkernel]

variable [LawfulShare D]

/-- The panel's controls as tiles. -/
def picture (hf : Confined z f) : Tiling Control (IntModel F) (Int × Int) UInt32 where
  region := region
  paint i m px := (painter D f m.val i ⟨z, px⟩).px
  disjoint := region_disjoint
  patch i m := (paints_control hf m.property i).patch

/-- The controls in the order of the painter. -/
def order : List Control := [.handle, .wifi, .bright, .auto, .off, .actions, .timer, .note, .footer]

/-- A full paint shows every control in the model's state. -/
theorem ccPaint_shows (hz : Whole z) {fonts : Option CcFonts} (hf : Confined z (faces fonts))
    (px : Int × Int → UInt32) (m : IntModel F) :
    (ccPaint D ⟨z, px⟩ m.val fonts).toCanvasSize = z ∧
      (picture D hf).Shows (background D ⟨z, px⟩).px (fun _ => some m)
        (ccPaint D ⟨z, px⟩ m.val fonts).px := by
  have hloop (l : List Control) (img : Int × Int → UInt32) :
      l.foldl (fun c i => painter D (faces fonts) m.val i c) ⟨z, img⟩ =
        ⟨z, l.foldl (fun img i => (picture D hf).paint i m img) img⟩ := by
    induction l generalizing img with
    | nil => rfl
    | cons i rest ih =>
      rw [List.foldl_cons, (paints_control hf m.property i).apply_eq img]
      exact ih _
  have hsize : ¬ (z.w ≤ 0 ∨ z.h ≤ 0) := by
    have hw := hz.w
    have hh := hz.h
    omega
  have hpaint : ccPaint D ⟨z, px⟩ m.val fonts =
      order.foldl (fun c i => painter D (faces fonts) m.val i c) (background D ⟨z, px⟩) :=
    if_neg hsize
  rw [hpaint, (paints_background D).apply_eq px, hloop]
  exact ⟨rfl, Tiling.shows_foldl (by decide) (fun i => by cases i <;> decide) m⟩

/-! The update. -/

variable {D}

/-- How far an update has come: the controls are shown in these states, what differs from the
canvas it started from is damaged, and without a change it is that canvas. -/
structure Progress (hf : Confined z f) (base : Int × Int → UInt32) (c : Canvas)
    (states : Control → Option (IntModel F)) (u : Update) : Prop where
  size : u.canvas.toCanvasSize = z
  shows : (picture D hf).Shows base states u.canvas.px
  damaged : ∀ p, u.canvas.px p ≠ c.px p → p ∈ area u.dirty
  bounded : u.dirty.w = 0 ∨ within u.dirty ccPanel = true
  unchanged : u.changed = 0 → u.canvas = c

omit [LawfulShare D] in
theorem damage_spec {dirty r : CcRect} (hr : within r ccPanel = true)
    (hd : dirty.w = 0 ∨ within dirty ccPanel = true) :
    area dirty ⊆ area (damage dirty r) ∧ area r ⊆ area (damage dirty r) ∧
      within (damage dirty r) ccPanel = true := by
  by_cases hw : dirty.w = 0
  · rw [damage, if_pos hw]
    refine ⟨fun p hp => ?_, subset_rfl, hr⟩
    have hin := mem_area.mp hp
    omega
  · have hin := hd.resolve_left hw
    simp only [within, Bool.and_eq_true, decide_eq_true_eq] at hr hin
    have hx : (if r.x < dirty.x then r.x else dirty.x) = min r.x dirty.x := by
      split <;> omega
    have hy : (if r.y < dirty.y then r.y else dirty.y) = min r.y dirty.y := by
      split <;> omega
    have hright : (if r.x + r.w > dirty.x + dirty.w then r.x + r.w else dirty.x + dirty.w) =
        max (r.x + r.w) (dirty.x + dirty.w) := by
      split <;> omega
    have hbottom : (if r.y + r.h > dirty.y + dirty.h then r.y + r.h else dirty.y + dirty.h) =
        max (r.y + r.h) (dirty.y + dirty.h) := by
      split <;> omega
    rw [damage, if_neg hw]
    simp only [hx, hy, hright, hbottom]
    refine ⟨fun p hp => ?_, fun p hp => ?_, ?_⟩
    · have hp := mem_area.mp hp
      exact mem_area.mpr (by simp only; omega)
    · have hp := mem_area.mp hp
      exact mem_area.mpr (by simp only; omega)
    · simp only [within, Bool.and_eq_true, decide_eq_true_eq]
      omega

section Stages
variable {hf : Confined z f} {base : Int × Int → UInt32} {c : Canvas}
  {states : Control → Option (IntModel F)} {u : Update} {m old : IntModel F} {i : Control}

/-- A control whose fields have not changed already shows the new model. -/
theorem Progress.keep (hp : Progress (D := D) hf base c states u) (hold : states i = some old)
    (hsame : SameState m.val old.val i) :
    Progress (D := D) hf base c (Function.update states i (some m)) u := by
  refine { hp with shows := hp.shows.congr fun j => ?_ }
  by_cases hj : j = i
  · subst hj
    rw [Function.update_self, hold]
    change (painter D f m.val j ⟨z, base⟩).px = (painter D f old.val j ⟨z, base⟩).px
    rw [painter_congr D hsame]
  · rw [Function.update_of_ne hj]

/-- Restoring the glass under some rectangles. -/
structure Restored (u v : Update) (R : Set (Int × Int)) : Prop where
  size : v.canvas.toCanvasSize = u.canvas.toCanvasSize
  inside : ∀ p ∈ R, v.canvas.px p = glass
  outside : ∀ p ∉ R, v.canvas.px p = u.canvas.px p
  dirty : area u.dirty ⊆ area v.dirty
  covered : R ⊆ area v.dirty
  bounded : v.dirty.w = 0 ∨ within v.dirty ccPanel = true

omit [LawfulShare D] in
theorem Restored.rect (hz : Whole z) (hsize : u.canvas.toCanvasSize = z)
    (hb : u.dirty.w = 0 ∨ within u.dirty ccPanel = true) {r : CcRect}
    (hr : within r ccPanel = true) : Restored u (u.restore r) (area r) := by
  obtain ⟨hwhole, hin, hout⟩ := restoreGlass_eq hz hr u.canvas.px
  obtain ⟨hdirty, hcover, hpanel⟩ := damage_spec hr hb
  rw [← canvas_eta hsize] at hwhole hin hout
  exact ⟨hwhole.trans hsize.symm, hin, hout, hdirty, hcover, .inr hpanel⟩

theorem Restored.trans {v w : Update} {R S : Set (Int × Int)} (h : Restored u v R)
    (h' : Restored v w S) : Restored u w (R ∪ S) := by
  refine ⟨h'.size.trans h.size, fun p hp => ?_, fun p hp => ?_, h.dirty.trans h'.dirty, ?_, h'.bounded⟩
  · by_cases hS : p ∈ S
    · exact h'.inside p hS
    · rw [h'.outside p hS]
      exact h.inside p (hp.resolve_right hS)
  · rw [h'.outside p fun hS => hp (.inr hS), h.outside p fun hR => hp (.inl hR)]
  · exact union_subset (h.covered.trans h'.dirty) h'.covered

omit [LawfulShare D] in
theorem Restored.rects (hz : Whole z) (l : List CcRect) (u : Update)
    (hsize : u.canvas.toCanvasSize = z) (hb : u.dirty.w = 0 ∨ within u.dirty ccPanel = true)
    (hl : ∀ r ∈ l, within r ccPanel = true) :
    Restored u (l.foldl Update.restore u) {p | ∃ r ∈ l, p ∈ area r} := by
  induction l generalizing u with
  | nil =>
    refine ⟨rfl, ?_, fun _ _ => rfl, subset_rfl, ?_, hb⟩
    · rintro p ⟨r, hr, _⟩
      cases hr
    · rintro p ⟨r, hr, _⟩
      cases hr
  | cons r rest ih =>
    have hfirst := Restored.rect hz hsize hb (hl r List.mem_cons_self)
    have hrest := ih (u.restore r) (hfirst.size.trans hsize) hfirst.bounded
      fun s hs => hl s (List.mem_cons_of_mem r hs)
    have hunion : {p | ∃ s ∈ r :: rest, p ∈ area s} =
        area r ∪ {p | ∃ s ∈ rest, p ∈ area s} := by
      ext p
      change (∃ s ∈ r :: rest, p ∈ area s) ↔ p ∈ area r ∨ ∃ s ∈ rest, p ∈ area s
      simp only [List.mem_cons, exists_eq_or_imp]
    rw [hunion]
    exact hfirst.trans hrest

/-- A control repainted over restored glass shows the new model. -/
theorem Progress.repaint (hp : Progress (D := D) hf base c states u) {v : Update}
    (hv : Restored u v (region i)) (hglass : ∀ p ∈ region i, base p = glass) :
    Progress (D := D) hf base c (Function.update states i (some m))
      (v.paint (painter D f m.val i)) := by
  have hpaints := paints_control (D := D) hf m.property i
  have heta := canvas_eta (hv.size.trans hp.size)
  have houtside (p : Int × Int) (hpi : p ∉ region i) :
      (painter D f m.val i v.canvas).px p = u.canvas.px p := by
    rw [hpaints.outside (hv.size.trans hp.size) hpi, hv.outside p hpi]
  refine ⟨?_, hp.shows.update houtside ?_, fun p hpx => ?_, hv.bounded, fun h => ?_⟩
  · change (painter D f m.val i v.canvas).toCanvasSize = z
    rw [heta]
    exact hpaints.size _
  · have hsame : EqOn v.canvas.px base (region i) := fun p hpi => by
      rw [hv.inside p hpi, hglass p hpi]
    change EqOn (painter D f m.val i v.canvas).px _ _
    rw [heta]
    exact hpaints.patch.inside _ _ hsame
  · by_cases hpi : p ∈ region i
    · exact hv.covered hpi
    · apply hv.dirty
      apply hp.damaged p
      rw [← houtside p hpi]
      exact hpx
  · cases h

/-- One stage of the update: the control is repainted where its fields may have changed. -/
theorem Progress.stage {q : Prop} [Decidable q] (hz : Whole z)
    (hp : Progress (D := D) hf base c states u) (hold : states i = some old) (hi : i ≠ .handle)
    (hglass : ∀ p ∈ area interior, base p = glass) (hsame : ¬ q → SameState m.val old.val i) :
    Progress (D := D) hf base c (Function.update states i (some m))
      (if q then ((rects i).foldl Update.restore u).paint (painter D f m.val i) else u) := by
  by_cases hq : q
  · rw [if_pos hq]
    have hin (r : CcRect) (hr : r ∈ rects i) : area r ⊆ area interior :=
      area_mono (rects_interior i hi r hr)
    have hpanel : ∀ r ∈ rects i, within r ccPanel = true := by
      cases i <;> decide
    apply hp.repaint (Restored.rects hz (rects i) u hp.size hp.bounded hpanel)
    rintro p ⟨r, hr, hpr⟩
    exact hglass p (hin r hr hpr)
  · rw [if_neg hq]
    exact hp.keep hold (hsame hq)

omit [LawfulShare D] in
/-- Under the signal the tile is uniform. -/
theorem wifiBody_signal (hz : Whole z) (hf : Confined z f) (m : CcModel F)
    (hglass : ∀ p ∈ area interior, base p = glass) {p : Int × Int} (hp : p ∈ area ccWifiSignal) :
    (wifiBody D ⟨z, base⟩ m f).px p = canvasOver glass tileColor := by
  have hapart (r : CcRect) (hr : apart r ccWifiSignal = true) : area r ⊆ (area ccWifiSignal)ᶜ :=
    Set.disjoint_left.mp (area_disjoint hr)
  have htexts : Paints z (area ccWifiSignal)ᶜ fun c => wifiTexts D c m f :=
    paints_wifiTexts hf (hapart _ rfl) (hapart _ rfl) (hapart _ rfl) (hapart _ rfl)
  have hin := mem_area.mp hp
  simp only [ccWifiSignal] at hin
  have hcover : roundCoverage D 16 24 264 160 (clampRadius 264 160 20) p.1 p.2 = 16 :=
    roundCoverage_full (a := 16) (b := 12) (by decide) (by decide) (by omega) (by omega)
  have hsource : roundSource D 16 24 264 160 20 tileColor p = tileColor := by
    rw [roundSource, hcover, coveredColor_tile]
  have htile : p ∈ box 16 24 264 160 := area_mono (r := ccWifiSignal) (s := ccWifi) rfl hp
  have hpanel : p ∈ area ccPanel := area_mono (r := ccWifiSignal) rfl hp
  have hrect : rectangle D ⟨z, base⟩ ccWifi ccTileRadius tileColor =
      ⟨z, fun p => blended z 16 24 264 160 (roundSource D 16 24 264 160 20 tileColor) p (base p)⟩ :=
    canvasBlendRoundRect_eq D base 16 24 264 160 20 tileColor
  rw [wifiBody, hrect, htexts.outside rfl (not_not_intro hp)]
  simp only
  rw [blended_inside htile (visible hz hpanel), hsource,
    hglass p (area_mono (r := ccWifiSignal) rfl hp)]

/-- Repainting only the signal of a connection shows the new model. -/
theorem Progress.signal (hz : Whole z) (hp : Progress (D := D) hf base c states u)
    (hold : states .wifi = some old) (hglass : ∀ p ∈ area interior, base p = glass)
    (hwifi : m.val.wifi = old.val.wifi) (hssid : m.val.ssid = old.val.ssid)
    (haddr : m.val.addr = old.val.addr) (hc : m.val.wifi = .connected) :
    Progress (D := D) hf base c (Function.update states .wifi (some m))
      ((u.restore ccWifiSignal).paint fun c => paintSignal c m.val f) := by
  have hv := Restored.rect hz hp.size hp.bounded (r := ccWifiSignal) rfl
  have heta := canvas_eta (hv.size.trans hp.size)
  have htile : area ccWifiSignal ⊆ region .wifi := area_region (s := ccWifi) (by simp [rects]) rfl
  have hsignal (m : CcModel F) := paints_wifiSignal (m := m) hf
  have hbody := (paints_wifiBody (D := D) (m := m.val) hf).apply_eq base
  let under := canvasBlendRect (u.restore ccWifiSignal).canvas (ccWifiSignal.x - ccPanel.x)
    (ccWifiSignal.y - ccPanel.y) ccWifiSignal.w ccWifiSignal.h tileColor
  have hunder : under = ⟨z, fun p => blended z (ccWifiSignal.x - ccPanel.x)
      (ccWifiSignal.y - ccPanel.y) ccWifiSignal.w ccWifiSignal.h (fun _ => tileColor) p
      ((u.restore ccWifiSignal).canvas.px p)⟩ := by
    rw [← canvasBlendRect_eq, ← heta]
  have hunderSize : under.toCanvasSize = z := congrArg Canvas.toCanvasSize hunder
  have hinside : EqOn under.px (wifiBody D ⟨z, base⟩ m.val f).px (area ccWifiSignal) := by
    intro p hpi
    have hpanel : p ∈ area ccPanel := area_mono (r := ccWifiSignal) rfl hpi
    rw [wifiBody_signal hz hf m.val hglass hpi, hunder]
    simp only
    rw [blended_inside hpi (visible hz hpanel), hv.inside p hpi]
  have houtside (p : Int × Int) (hpi : p ∉ area ccWifiSignal) :
      (wifiSignal under m.val f).px p = u.canvas.px p := by
    rw [(hsignal m.val).outside hunderSize hpi, hunder]
    simp only
    rw [blended_outside hpi, hv.outside p hpi]
  have hcontent (m : CcModel F) (hm : m.wifi = .connected) :
      painter D f m .wifi ⟨z, base⟩ = wifiSignal (wifiBody D ⟨z, base⟩ m f) m f := by
    change wifi D ⟨z, base⟩ m f = _
    rw [wifi_eq, if_pos hm]
  refine ⟨?_, hp.shows.update (fun p hpi => houtside p fun h => hpi (htile h)) ?_,
    fun p hpx => ?_, hv.bounded, fun h => ?_⟩
  · change (wifiSignal under m.val f).toCanvasSize = z
    rw [canvas_eta hunderSize]
    exact (hsignal m.val).size _
  · intro p hpi
    change (wifiSignal under m.val f).px p = (painter D f m.val .wifi ⟨z, base⟩).px p
    rw [hcontent m.val hc]
    by_cases hps : p ∈ area ccWifiSignal
    · rw [canvas_eta hunderSize, hbody]
      exact (hsignal m.val).patch.inside _ _ hinside hps
    · have hshown := hp.shows.tile .wifi hpi
      rw [hold] at hshown
      change u.canvas.px p = (painter D f old.val .wifi ⟨z, base⟩).px p at hshown
      rw [houtside p hps, hshown, hcontent old.val (hwifi ▸ hc), ← wifiBody_congr D hwifi hssid haddr,
        hbody, (hsignal old.val).outside rfl hps, (hsignal m.val).outside rfl hps]
  · by_cases hps : p ∈ area ccWifiSignal
    · exact hv.covered hps
    · apply hv.dirty
      apply hp.damaged p
      rw [← houtside p hps]
      exact hpx
  · cases h

/-- The Wi-Fi stage of the update. -/
theorem Progress.wifi (hz : Whole z) (hp : Progress (D := D) hf base c states u)
    (hold : states .wifi = some old) (hglass : ∀ p ∈ area interior, base p = glass) :
    Progress (D := D) hf base c (Function.update states .wifi (some m))
      (updateWifi D u m.val old.val f) := by
  by_cases hname : m.val.wifi ≠ old.val.wifi ∨ m.val.ssid ≠ old.val.ssid ∨ m.val.addr ≠ old.val.addr
  · rw [updateWifi, if_pos hname]
    have hstage := hp.stage (m := m) (q := True) hz hold (by decide) hglass fun h => absurd trivial h
    rw [if_pos trivial] at hstage
    exact hstage
  · rw [updateWifi, if_neg hname]
    simp only [not_or, not_not] at hname
    obtain ⟨hwifi, hssid, haddr⟩ := hname
    by_cases hsignal : m.val.wifi = .connected ∧ m.val.levelDbm ≠ old.val.levelDbm
    · rw [if_pos hsignal]
      exact hp.signal hz hold hglass hwifi hssid haddr hsignal.1
    · rw [if_neg hsignal]
      apply hp.keep hold
      exact ⟨hwifi, hssid, haddr, fun hc => not_not.mp fun hlevel => hsignal ⟨hc, hlevel⟩⟩

end Stages

/-- A whole update: the new model's picture, damage over all that differs, and no change only
where there is none to make. -/
theorem update_progress (hz : Whole z) {fonts : Option CcFonts} (hf : Confined z (faces fonts))
    (px : Int × Int → UInt32) (m old : IntModel F) :
    Progress (D := D) hf (background D ⟨z, px⟩).px (ccPaint D ⟨z, px⟩ old.val fonts)
      (fun _ => some m) (ccPaintUpdate D (ccPaint D ⟨z, px⟩ old.val fonts) m.val (some old.val) fonts) := by
  have hglass (p : Int × Int) (hp : p ∈ area interior) := background_glass (D := D) hz px hp
  obtain ⟨hsize, hshows⟩ := ccPaint_shows D hz hf px old
  have hstart : Progress (D := D) hf (background D ⟨z, px⟩).px (ccPaint D ⟨z, px⟩ old.val fonts)
      (fun _ => some old)
      { canvas := ccPaint D ⟨z, px⟩ old.val fonts, dirty := ⟨0, 0, 0, 0⟩, changed := 0 } :=
    ⟨hsize, hshows, fun p hp => absurd rfl hp, .inl rfl, fun _ => rfl⟩
  have hbright := hstart.stage (m := m) (i := .bright)
    (q := m.val.brightness ≠ old.val.brightness ∨ m.val.brightnessMax ≠ old.val.brightnessMax)
    hz rfl (by decide) hglass fun h => by
      simp only [not_or, not_not] at h
      exact h
  have hauto := hbright.stage (m := m) (i := .auto) (q := m.val.autoOn ≠ old.val.autoOn)
    hz rfl (by decide) hglass fun h => not_not.mp h
  have hwifi := hauto.wifi (m := m) hz rfl hglass
  have hactions := hwifi.stage (m := m) (i := .actions) (q := m.val.armed ≠ old.val.armed)
    hz rfl (by decide) hglass fun h => not_not.mp h
  have htimer := hactions.stage (m := m) (i := .timer)
    (q := m.val.sleepMinutes ≠ old.val.sleepMinutes)
    hz rfl (by decide) hglass fun h => not_not.mp h
  have hnote := htimer.stage (m := m) (i := .note) (q := m.val.note ≠ old.val.note)
    hz rfl (by decide) hglass fun h => not_not.mp h
  have hfooter := hnote.stage (m := m) (i := .footer)
    (q := m.val.cap ≠ old.val.cap ∨ m.val.battWord ≠ old.val.battWord ∨
      m.val.build ≠ old.val.build ∨ m.val.kernel ≠ old.val.kernel)
    hz rfl (by decide) hglass fun h => by
      simp only [not_or, not_not] at h
      exact h
  refine { hfooter with shows := hfooter.shows.congr fun i => ?_ }
  cases i <;> rfl

theorem ccPaint_eq (hz : Whole z) {fonts : Option CcFonts} (hf : Confined z (faces fonts))
    (px : Int × Int → UInt32) (m : IntModel F) {c : Canvas} (hc : c.toCanvasSize = z)
    (h : (picture D hf).Shows (background D ⟨z, px⟩).px (fun _ => some m) c.px) :
    c = ccPaint D ⟨z, px⟩ m.val fonts := by
  obtain ⟨hsize, hshows⟩ := ccPaint_shows D hz hf px m
  rw [canvas_eta hc, canvas_eta hsize, h.unique hshows]

open Overlay

theorem uploadRegion_eq (tex : Texture) (c : Canvas) (x y w h : Int) (p : Int × Int) :
    uploadRegion tex c x y w h p = if p ∈ box x y w h then rgba (c.px p) else tex p := by
  rw [uploadRegion, Sweep.foldl_modify (fun p _ => rgba (c.px p)) (pixels_nodup _ _ _ _)]
  by_cases hp : p ∈ box x y w h
  · rw [if_pos hp]
    exact if_pos (mem_pixels.mpr hp)
  · rw [if_neg hp]
    exact if_neg fun hin => hp (mem_pixels.mp hin)

/-- The overlay shows its last painted model, on the canvas and in the texture. -/
structure InStep (D : Type) [CFloat D] (fonts : Option CcFonts) (c : Canvas)
    (o : ControlOverlay F) : Prop where
  panel : o.panel = ccPaint D c o.painted fonts
  texture : ∀ p ∈ area ccPanel, o.panelTex p = rgba (o.panel.px p)

theorem prepare_inStep (hz : Whole z) {fonts : Option CcFonts} (hf : Confined z (faces fonts))
    (px : Int × Int → UInt32) (tex : Texture) (m : IntModel F) :
    InStep D fonts ⟨z, px⟩ (prepare D ⟨z, px⟩ tex m.val fonts) := by
  have hsize := (ccPaint_shows D hz hf px m).1
  refine ⟨rfl, fun p hp => ?_⟩
  have hw : (ccPaint D ⟨z, px⟩ m.val fonts).w = 560 := (congrArg CanvasSize.w hsize).trans hz.w
  have hh : (ccPaint D ⟨z, px⟩ m.val fonts).h = 400 := (congrArg CanvasSize.h hsize).trans hz.h
  simp only [prepare, uploadRegion_eq, hw, hh]
  exact if_pos hp

theorem update_inStep (hz : Whole z) {fonts : Option CcFonts} (hf : Confined z (faces fonts))
    (px : Int × Int → UInt32) {o : ControlOverlay F} (hint : o.painted.brightnessMax < 2 ^ 31)
    (ho : InStep D fonts ⟨z, px⟩ o) (m : IntModel F) :
    InStep D fonts ⟨z, px⟩ (update D fonts o m.val) := by
  have hprogress := update_progress (D := D) hz hf px m ⟨o.painted, hint⟩
  simp only [← ho.panel] at hprogress
  have hpanel := ccPaint_eq hz hf px m hprogress.size hprogress.shows
  refine ⟨hpanel, fun p hp => ?_⟩
  have hold := ho.texture p hp
  let u := ccPaintUpdate D o.panel m.val (some o.painted) fonts
  change (if u.changed ≠ 0 then uploadRegion o.panelTex u.canvas (u.dirty.x - ccPanel.x)
    (u.dirty.y - ccPanel.y) u.dirty.w u.dirty.h else o.panelTex) p = rgba (u.canvas.px p)
  by_cases hchanged : u.changed ≠ 0
  · rw [if_pos hchanged, uploadRegion_eq]
    by_cases hd : p ∈ area u.dirty
    · exact if_pos hd
    · have hkept : u.canvas.px p = o.panel.px p := by
        by_contra hne
        exact hd (hprogress.damaged p hne)
      rw [hkept, ← hold]
      exact if_neg hd
  · rw [if_neg hchanged, hold, hprogress.unchanged (not_not.mp hchanged)]

/-- The partial repaint is the full one: the canvas after an update is the full paint of the new
model, what changed is damaged, no change is reported only between models that paint the same,
and a texture that receives only the damage stays the full paint over any models. -/
theorem update_matches_paint (hz : Whole z) {fonts : Option CcFonts}
    (hf : Confined z (faces fonts)) (px : Int × Int → UInt32) :
    (∀ m old : IntModel F,
      let c := ccPaint D ⟨z, px⟩ old.val fonts
      let u := ccPaintUpdate D c m.val (some old.val) fonts
      u.canvas = ccPaint D ⟨z, px⟩ m.val fonts ∧
        (∀ p, u.canvas.px p ≠ c.px p → p ∈ area u.dirty) ∧
        (u.changed = 0 → c = ccPaint D ⟨z, px⟩ m.val fonts)) ∧
    ∀ (tex : Texture) (first : IntModel F) (models : List (IntModel F)),
      let o := (models.map Subtype.val).foldl (update D fonts)
        (prepare D ⟨z, px⟩ tex first.val fonts)
      ∀ p ∈ area ccPanel,
        o.panelTex p = rgba ((ccPaint D ⟨z, px⟩ (models.getLastD first).val fonts).px p) := by
  constructor
  · intro m old
    have hprogress := update_progress (D := D) hz hf px m old
    have hcanvas := ccPaint_eq hz hf px m hprogress.size hprogress.shows
    refine ⟨hcanvas, hprogress.damaged, fun h => ?_⟩
    rw [← hcanvas, hprogress.unchanged h]
  · intro tex first models
    have hrun (models : List (IntModel F)) (o : ControlOverlay F) (last : IntModel F)
        (hpainted : o.painted = last.val) (ho : InStep D fonts ⟨z, px⟩ o) :
        ((models.map Subtype.val).foldl (update D fonts) o).painted = (models.getLastD last).val ∧
          InStep D fonts ⟨z, px⟩ ((models.map Subtype.val).foldl (update D fonts) o) := by
      induction models generalizing o last with
      | nil => exact ⟨hpainted, ho⟩
      | cons m rest ih =>
        rw [List.getLastD_cons, List.map_cons, List.foldl_cons]
        exact ih (update D fonts o m.val) m rfl
          (update_inStep hz hf px (hpainted ▸ last.property) ho m)
    obtain ⟨hpainted, hstep⟩ := hrun models _ first rfl (prepare_inStep hz hf px tex first)
    intro o p hp
    have hshown : o.panelTex p = rgba (o.panel.px p) := hstep.texture p hp
    rw [hshown, hstep.panel, hpainted]

end Picture

/-- A face whose texts are one dot on the baseline. -/
def dotFace : TtFont where
  width text := text.length
  height := 1
  baseline := 1
  drawFit c x y _ text col := if text = [] then c else canvasBlend c x (y - 1) col

theorem fits_dotFace {z : CanvasSize} {slots : List Slot}
    (hslots : ∀ s ∈ slots, 0 < s.1.w ∧ 0 < s.1.h ∧ (s.2 = 0 ∨ s.1.y < s.2 ∧ s.2 ≤ s.1.y + s.1.h)) :
    Fits z (some dotFace) slots := by
  intro face hface s hs value color centered
  cases hface
  obtain ⟨hw, hh, hbase⟩ := hslots s hs
  refine Paints.ite (q := value = []) Paints.id (paints_blend (mem_area.mpr ?_))
  have hcolumn : s.1.x - 416 ≤ textX (some dotFace) s.1 value centered ∧
      textX (some dotFace) s.1 value centered < s.1.x - 416 + s.1.w := by
    by_cases hcenter : centered ∧ dotFace.width value < s.1.w
    · have hlen : 0 ≤ dotFace.width value := Int.natCast_nonneg _
      simp only [textX, if_pos hcenter, ccPanel]
      rw [Int.tdiv_eq_ediv_of_nonneg (by omega)]
      omega
    · simp only [textX, if_neg hcenter, ccPanel]
      omega
  refine ⟨hcolumn.1, hcolumn.2, ?_⟩
  simp only [ccPanel, dotFace]
  rw [Int.tdiv_eq_ediv_of_nonneg (by omega)]
  split <;> omega

def dotFonts : CcFonts :=
  ⟨some dotFace, some dotFace, some dotFace, some dotFace, some dotFace⟩

theorem confined_dotFonts {z : CanvasSize} : Confined z dotFonts :=
  ⟨fits_dotFace (by decide), fits_dotFace (by decide), fits_dotFace (by decide),
    fits_dotFace (by decide), fits_dotFace (by decide)⟩

def panelSize : CanvasSize := ⟨560, 400, 0, 0, 0, 0⟩

def sliderAt (level : Int) : CcModel ℚ := { ccInit 200 255 1 5 with brightness := level }

/-- The panel of a fresh start with the slider at a level. -/
def freshPanel (fonts : Option CcFonts) (level : Int) : Canvas :=
  ccPaint ℚ ⟨panelSize, fun _ => 0⟩ (sliderAt level) fonts

/-- A slider moved from 200 to 100 of 255, without a font and with a face of dots. -/
theorem dragged_matches_paint :
    (ccPaintUpdate ℚ (freshPanel none 200) (sliderAt 100) (some (sliderAt 200)) none).canvas =
        freshPanel none 100 ∧
      (ccPaintUpdate ℚ (freshPanel (some dotFonts) 200) (sliderAt 100) (some (sliderAt 200))
        (some dotFonts)).canvas = freshPanel (some dotFonts) 100 := by
  have hint (level : Int) : (sliderAt level).brightnessMax < 2 ^ 31 := by
    change (255 : Int) < 2 ^ 31
    decide
  have hwhole : Whole panelSize := ⟨rfl, rfl, le_refl 0⟩
  have hnone : Confined panelSize (faces none) := confined_noFonts
  have hdots : Confined panelSize (faces (some dotFonts)) := confined_dotFonts
  constructor
  · exact ((update_matches_paint hwhole hnone fun _ => 0).1
      ⟨sliderAt 100, hint 100⟩ ⟨sliderAt 200, hint 200⟩).1
  · exact ((update_matches_paint hwhole hdots fun _ => 0).1
      ⟨sliderAt 100, hint 100⟩ ⟨sliderAt 200, hint 200⟩).1

end Taq102.Panel.Repaint
