import Mathlib.Tactic.Linarith
import Taq102.Graphics.Region
import Taq102.Panel.Paint

/-! The controls of the panel: where each of them is, that none overlaps another, and that
each paints inside its own rectangles. -/
namespace Taq102.Panel.Controls
open Set
open Taq102.Lib CFloat Raster
open Taq102.Graphics
open Paint

/-- The panel's own canvas, without a clip. -/
structure Whole (z : CanvasSize) : Prop where
  w : z.w = 560
  h : z.h = 400
  clip : z.clipW ≤ 0

/-- A rectangle's pixels on the panel's canvas. -/
def area (r : CcRect) : Set (Int × Int) := box (r.x - ccPanel.x) (r.y - ccPanel.y) r.w r.h

theorem mem_area {r : CcRect} {p : Int × Int} :
    p ∈ area r ↔ r.x - 416 ≤ p.1 ∧ p.1 < r.x - 416 + r.w ∧ r.y - 56 ≤ p.2 ∧ p.2 < r.y - 56 + r.h :=
  Iff.rfl

def within (r s : CcRect) : Bool :=
  s.x ≤ r.x && r.x + r.w ≤ s.x + s.w && s.y ≤ r.y && r.y + r.h ≤ s.y + s.h

def apart (r s : CcRect) : Bool :=
  r.x + r.w ≤ s.x || s.x + s.w ≤ r.x || r.y + r.h ≤ s.y || s.y + s.h ≤ r.y

theorem area_mono {r s : CcRect} (h : within r s = true) : area r ⊆ area s := by
  intro p hp
  simp only [within, Bool.and_eq_true, decide_eq_true_eq] at h
  have hin := mem_area.mp hp
  exact mem_area.mpr (by omega)

theorem area_disjoint {r s : CcRect} (h : apart r s = true) : Disjoint (area r) (area s) := by
  rw [Set.disjoint_left]
  intro p hr hs
  simp only [apart, Bool.or_eq_true, decide_eq_true_eq] at h
  have hinr := mem_area.mp hr
  have hins := mem_area.mp hs
  omega

theorem visible {z : CanvasSize} (hz : Whole z) {p : Int × Int} (hp : p ∈ area ccPanel) :
    canvasVisible z p.1 p.2 = true := by
  have hin := mem_area.mp hp
  simp only [ccPanel] at hin
  have hw := hz.w
  have hh := hz.h
  rw [canvasVisible, if_neg (by omega), if_pos hz.clip]

/-! Texts. -/

/-- Where a text may stand: its box and baseline, zero for a centred line. -/
abbrev Slot := CcRect × Int

/-- The height and the place of the bitmap glyphs fit the box, and texts that fit it are whole. -/
def bitmapFits (s : Slot) : Bool :=
  15 ≤ s.1.h && s.1.w ≤ 1000 && (s.2 = 0 || (s.1.y + 15 ≤ s.2 && s.2 ≤ s.1.y + s.1.h))

/-- Each text the face draws in one of the slots stays in its box. -/
def Fits (z : CanvasSize) (font : Option TtFont) (slots : List Slot) : Prop :=
  ∀ face, font = some face → ∀ s ∈ slots, ∀ value color centered,
    Paints z (area s.1) fun c => text c (some face) s.1 value color centered s.2

def titleSlots : List Slot := [(ccWifiTitle, 0)]

def valueSlots : List Slot := [(ccWifiName, 0)]

def bigSlots : List Slot := [(ccBrightValue, 0)]

def labelSlots : List Slot :=
  [(ccWifiAddress, 0), (ccWifiSignal, 0), (ccBrightLabel, 0), (ccBrightPercent, 0),
    (ccAutoLabel, 0), (ccOffLabel, 0), (ccOffNow, 0), (ccActionLabel ccRescue, 0),
    (ccArmedLabel ccRescue, 0), (ccArmedHint ccRescue, 0), (ccActionLabel ccLoader, 0),
    (ccArmedLabel ccLoader, 0), (ccArmedHint ccLoader, 0), (ccTimerTitle, 0),
    (ccTimerSelection 0, 0), (ccTimerSelection 1, 0), (ccTimerSelection 2, 0),
    (ccTimerSelection 3, 0)]

def footerSlots : List Slot := [(ccNote, 0), (ccFooter, ccFooterBaseline)]

/-- Every face paints only inside the boxes its texts are given. -/
structure Confined (z : CanvasSize) (f : CcFonts) : Prop where
  title : Fits z f.title titleSlots
  value : Fits z f.value valueSlots
  big : Fits z f.big bigSlots
  label : Fits z f.label labelSlots
  footer : Fits z f.footer footerSlots

theorem confined_noFonts {z : CanvasSize} : Confined z noFonts := by
  constructor <;> intro face hface <;> cases hface

theorem fitText_of_fits {value : CStr} {w : Int} (hfit : canvasTextWidth value 3 ≤ w)
    (hlen : value.length < 128) : fitText value w = value := by
  have hshrink : shrink value w value.length = value.length := by
    cases hn : value.length with
    | zero => rfl
    | succ n =>
      have htake : value.take (n + 1) = value := by rw [← hn, List.take_length]
      rw [shrink, htake, if_neg (by omega)]
  have hcount : (if 128 ≤ value.length then 127 else value.length) = value.length :=
    if_neg (by omega)
  simp only [fitText, hcount, hshrink, lt_irrefl, false_and, if_false, List.take_length]

/-- The bitmap glyphs stay in the box. -/
theorem paints_bitmap {z : CanvasSize} {s : Slot} (hs : bitmapFits s = true) (value : CStr)
    (color : UInt32) (centered : Bool) :
    Paints z (area s.1) fun c => text c none s.1 value color centered s.2 := by
  simp only [bitmapFits, Bool.and_eq_true, Bool.or_eq_true, decide_eq_true_eq] at hs
  obtain ⟨⟨hh, hw⟩, hbase⟩ := hs
  apply Paints.foldl
  intro p hp
  have hcell := mem_pixels.mp hp
  by_cases hblank : (textMask s.1 value color).px p = 0
  · simp only [hblank, ne_eq, not_true, if_false]
    exact Paints.id
  simp only [ne_eq, hblank, not_false_iff, if_true]
  apply paints_blend
  have hsize : (textMask s.1 value color).w = s.1.w ∧ (textMask s.1 value color).h = 15 := by
    have hmask := (Graphics.paints_text (z := ⟨s.1.w, 15, 0, 0, 0, 0⟩) (x := 0) (y := 0) (s := 3)
      (fitText value s.1.w) color (by omega) (subset_univ _)).size fun _ => 0
    exact ⟨congrArg CanvasSize.w hmask, congrArg CanvasSize.h hmask⟩
  rw [hsize.1, hsize.2] at hcell
  have hcolumn : s.1.x - 416 ≤ textX none s.1 value centered + p.1 ∧
      textX none s.1 value centered + p.1 < s.1.x - 416 + s.1.w := by
    by_cases hcenter : centered ∧ canvasTextWidth value 3 < s.1.w
    · have hlen : value.length < 128 := by
        have hwidth := hcenter.2
        rw [canvasTextWidth] at hwidth
        omega
      have hfit := fitText_of_fits hcenter.2.le hlen
      have hin : p.1 < canvasTextWidth value 3 := by
        by_contra hout
        apply hblank
        have hpaint := Graphics.paints_text (z := ⟨s.1.w, 15, 0, 0, 0, 0⟩) (x := 0) (y := 0) (s := 3)
          value color (by omega) (Subset.refl _)
        rw [textMask, hfit]
        apply hpaint.outside rfl
        rw [mem_box]
        omega
      simp only [textX, if_pos hcenter, ccPanel]
      rw [Int.tdiv_eq_ediv_of_nonneg (by omega)]
      omega
    · simp only [textX, if_neg hcenter, ccPanel]
      omega
  refine mem_area.mpr ⟨hcolumn.1, hcolumn.2, ?_⟩
  simp only [ccPanel]
  rw [Int.tdiv_eq_ediv_of_nonneg (by omega)]
  split <;> omega

/-- A text stays in its box, in whichever glyphs. -/
theorem paints_text {z : CanvasSize} {R : Set (Int × Int)} {g : Canvas → Canvas}
    {font : Option TtFont} {slots : List Slot} (hfits : Fits z font slots) (s : Slot)
    (hs : s ∈ slots) (hbitmap : bitmapFits s = true) (hsub : area s.1 ⊆ R) {value : CStr}
    {color : UInt32} {centered : Bool} (hg : Paints z R g) :
    Paints z R fun c => text (g c) font s.1 value color centered s.2 := by
  apply hg.comp (g := fun c => text c font s.1 value color centered s.2)
  apply Paints.mono _ hsub
  cases font with
  | none => exact paints_bitmap hbitmap value color centered
  | some face => exact hfits face rfl s hs value color centered

theorem paints_rectangle {D : Type} [CFloat D] {z : CanvasSize} {R : Set (Int × Int)}
    {g : Canvas → Canvas} {r : CcRect} (hsub : area r ⊆ R) {radius : Int} {color : UInt32}
    (hg : Paints z R g) : Paints z R fun c => rectangle D (g c) r radius color :=
  hg.comp (g := fun c => rectangle D c r radius color) (paints_blendRoundRect D hsub)

/-! Controls. -/

inductive Control where
  | handle
  | wifi
  | bright
  | auto
  | off
  | actions
  | timer
  | note
  | footer
  deriving DecidableEq

/-- The rectangles of a control. -/
def rects : Control → List CcRect
  | .handle => [ccHandle]
  | .wifi => [ccWifi]
  | .bright => [ccBright]
  | .auto => [ccAuto]
  | .off => [ccOffnow]
  | .actions => [ccRescue, ccLoader]
  | .timer => [ccTimer]
  | .note => [ccNote]
  | .footer => [ccFooter]

def region (i : Control) : Set (Int × Int) := {p | ∃ r ∈ rects i, p ∈ area r}

theorem area_region {i : Control} {r s : CcRect} (hs : s ∈ rects i) (h : within r s = true) :
    area r ⊆ region i := fun _ hp => ⟨s, hs, area_mono h hp⟩

theorem rects_apart : ∀ i j, i ≠ j → ∀ r ∈ rects i, ∀ s ∈ rects j, apart r s = true := by
  intro i j
  cases i <;> cases j <;> decide

theorem region_disjoint (i j : Control) (hij : i ≠ j) : Disjoint (region i) (region j) := by
  rw [Set.disjoint_left]
  rintro p ⟨r, hr, hpr⟩ ⟨s, hs, hps⟩
  exact Set.disjoint_left.mp (area_disjoint (rects_apart i j hij r hr s hs)) hpr hps

section Painters
variable {F D : Type} [CFloat D] {z : CanvasSize} {f : CcFonts} {m : CcModel F}

theorem paints_wifiSignal (hf : Confined z f) :
    Paints z (area ccWifiSignal) fun c => wifiSignal c m f :=
  paints_text hf.label (ccWifiSignal, 0) (by simp [labelSlots]) rfl subset_rfl Paints.id

/-- What the Wi-Fi tile shows above its signal. -/
def wifiTexts (D : Type) [CFloat D] (c : Canvas) (m : CcModel F) (f : CcFonts) : Canvas :=
  let c := text c f.title ccWifiTitle (cstr "Wi-Fi") ink false 0
  let c := rectangle D c ccWifiDot ccDotRadius (if m.wifi = .connected then amber else muted)
  let c := text c f.value ccWifiName (Paint.wifiName m) ink false 0
  text c f.label ccWifiAddress (wifiDetail m) muted false 0

/-- The Wi-Fi tile without the signal of a connection. -/
def wifiBody (D : Type) [CFloat D] (c : Canvas) (m : CcModel F) (f : CcFonts) : Canvas :=
  wifiTexts D (rectangle D c ccWifi ccTileRadius tileColor) m f

theorem wifi_eq (c : Canvas) : wifi D c m f =
    if m.wifi = .connected then wifiSignal (wifiBody D c m f) m f else wifiBody D c m f := rfl

theorem paints_wifiTexts (hf : Confined z f) {R : Set (Int × Int)} (htitle : area ccWifiTitle ⊆ R)
    (hdot : area ccWifiDot ⊆ R) (hname : area ccWifiName ⊆ R) (haddress : area ccWifiAddress ⊆ R) :
    Paints z R fun c => wifiTexts D c m f := by
  apply paints_text hf.label (ccWifiAddress, 0) (by simp [labelSlots]) rfl haddress
  apply paints_text hf.value (ccWifiName, 0) (by simp [valueSlots]) rfl hname
  apply paints_rectangle hdot
  exact paints_text hf.title (ccWifiTitle, 0) (by simp [titleSlots]) rfl htitle Paints.id

theorem paints_wifiBody (hf : Confined z f) : Paints z (area ccWifi) fun c => wifiBody D c m f := by
  have htile : Paints z (area ccWifi) fun c => rectangle D c ccWifi ccTileRadius tileColor :=
    paints_rectangle subset_rfl Paints.id
  exact htile.comp (paints_wifiTexts hf (area_mono rfl) (area_mono rfl) (area_mono rfl)
    (area_mono rfl))

theorem paints_wifi (hf : Confined z f) : Paints z (area ccWifi) fun c => wifi D c m f := by
  have hsignal : Paints z (area ccWifi) fun c => wifiSignal c m f :=
    (paints_wifiSignal hf).mono (area_mono rfl)
  exact ((paints_wifiBody hf).comp hsignal).ite (paints_wifiBody hf)

theorem fillHeight_mem [LawfulShare D] (hmax : m.brightnessMax < 2 ^ 31) :
    0 ≤ fillHeight D m ∧ fillHeight D m ≤ 312 := by
  by_cases height : brightnessMaximum m = 8
  · rw [fillHeight, if_pos height]
    omega
  · have hmaximum : 8 ≤ brightnessMaximum m ∧ brightnessMaximum m < 2 ^ 31 := by
      rw [brightnessMaximum]
      split <;> omega
    have hlevel : 8 ≤ brightnessLevel m ∧ brightnessLevel m ≤ brightnessMaximum m := by
      rw [brightnessLevel]
      split
      · omega
      · split <;> omega
    rw [fillHeight, if_neg height]
    obtain ⟨hlow, hone⟩ := LawfulShare.share (F := D) (a := brightnessLevel m - 8)
      (b := brightnessMaximum m - 8) (by omega) (by omega) (by omega) (by omega)
    obtain ⟨hzero, hfull⟩ := LawfulShare.scale hlow hone (n := 312) (by omega) (by omega)
    exact LawfulShare.trunc_mem hzero hfull (by omega) (by omega)

theorem paints_brightness [LawfulShare D] (hf : Confined z f) (hmax : m.brightnessMax < 2 ^ 31) :
    Paints z (area ccBright) fun c => Paint.brightness D c m f := by
  have hheight := fillHeight_mem (D := D) hmax
  have hfill : area { ccBrightFill with
      y := ccBrightFill.y + (ccBrightFill.h - fillHeight D m), h := fillHeight D m } ⊆
      area ccBright := by
    intro p hp
    have hin := mem_area.mp hp
    simp only [ccBrightFill] at hin
    simp only [mem_area, ccBright]
    omega
  have htile : Paints z (area ccBright) fun c => rectangle D c ccBright ccTileRadius tileColor :=
    paints_rectangle subset_rfl Paints.id
  simp only [Paint.brightness]
  apply paints_text hf.label (ccBrightPercent, 0) (by simp [labelSlots]) rfl (area_mono rfl)
  apply paints_text hf.big (ccBrightValue, 0) (by simp [bigSlots]) rfl (area_mono rfl)
  apply paints_text hf.label (ccBrightLabel, 0) (by simp [labelSlots]) rfl (area_mono rfl)
  exact (paints_rectangle hfill htile).ite htile

theorem paints_auto (hf : Confined z f) : Paints z (area ccAuto) fun c => paintAuto D c m f := by
  apply paints_rectangle (area_mono rfl)
  apply paints_text hf.label (ccAutoLabel, 0) (by simp [labelSlots]) rfl (area_mono rfl)
  exact paints_rectangle subset_rfl Paints.id

theorem paints_off (hf : Confined z f) : Paints z (area ccOffnow) fun c => paintOff D c f := by
  simp only [paintOff]
  apply paints_text hf.label (ccOffNow, 0) (by simp [labelSlots]) rfl (area_mono rfl)
  apply paints_text hf.label (ccOffLabel, 0) (by simp [labelSlots]) rfl (area_mono rfl)
  exact paints_rectangle subset_rfl Paints.id

/-- A reboot tile, whose label and hint have a place in it. -/
theorem paints_action (hf : Confined z f) {tile : CcRect}
    (hlabel : (ccActionLabel tile, 0) ∈ labelSlots) (harmed : (ccArmedLabel tile, 0) ∈ labelSlots)
    (hhint : (ccArmedHint tile, 0) ∈ labelSlots)
    (hbitmap : ∀ s ∈ labelSlots, bitmapFits s = true)
    (hin : within (ccActionLabel tile) tile && within (ccArmedLabel tile) tile &&
      within (ccArmedHint tile) tile)
    (label : CStr) (armed : Bool) : Paints z (area tile) fun c => action D c tile label armed f := by
  simp only [Bool.and_eq_true] at hin
  cases armed with
  | false =>
    apply paints_text hf.label _ hlabel (hbitmap _ hlabel) (area_mono hin.1.1)
    exact paints_rectangle subset_rfl Paints.id
  | true =>
    apply paints_text hf.label _ hhint (hbitmap _ hhint) (area_mono hin.2)
    apply paints_text hf.label _ harmed (hbitmap _ harmed) (area_mono hin.1.2)
    exact paints_rectangle subset_rfl Paints.id

theorem paints_actions (hf : Confined z f) :
    Paints z (region .actions) fun c => paintActions D c m f := by
  have hrescue : area ccRescue ⊆ region .actions := area_region (s := ccRescue) (by simp [rects]) rfl
  have hloader : area ccLoader ⊆ region .actions := area_region (s := ccLoader) (by simp [rects]) rfl
  have hbitmap : ∀ s ∈ labelSlots, bitmapFits s = true := by decide
  have htile (tile : CcRect) (htile : tile = ccRescue ∨ tile = ccLoader) (label : CStr)
      (armed : Bool) : Paints z (area tile) fun c => action D c tile label armed f := by
    rcases htile with rfl | rfl
    · exact paints_action hf (by decide) (by decide) (by decide) hbitmap rfl label armed
    · exact paints_action hf (by decide) (by decide) (by decide) hbitmap rfl label armed
  exact ((htile ccRescue (.inl rfl) _ _).mono hrescue).comp
    ((htile ccLoader (.inr rfl) _ _).mono hloader)

theorem paints_timer (hf : Confined z f) : Paints z (area ccTimer) fun c => paintTimer D c m f := by
  have hsegments : ∀ i : Fin 4, (ccTimerSelection i.val, (0 : Int)) ∈ labelSlots ∧
      bitmapFits (ccTimerSelection i.val, 0) = true ∧
      within (ccTimerSelection i.val) ccTimer = true := by decide
  have htitle : Paints z (area ccTimer) fun c =>
      text (rectangle D c ccTimer ccTileRadius tileColor) f.label ccTimerTitle
        (cstr "Screen off after") muted false 0 := by
    apply paints_text hf.label (ccTimerTitle, 0) (by simp [labelSlots]) rfl (area_mono rfl)
    exact paints_rectangle subset_rfl Paints.id
  have hsegment (i : Fin 4) : Paints z (area ccTimer) fun c =>
      text (if m.sleepMinutes = timerMinutes i then
        rectangle D c (ccTimerSelection i.val) ccSegmentRadius amber else c) f.label
        (ccTimerSelection i.val) (timerLabel i) ink true 0 := by
    obtain ⟨hslot, hbitmap, hin⟩ := hsegments i
    apply paints_text hf.label (ccTimerSelection i.val, 0) hslot hbitmap (area_mono hin)
    exact (paints_rectangle (area_mono hin) Paints.id).ite Paints.id
  exact htitle.comp (Paints.foldl fun i _ => hsegment i)

theorem paints_note (hf : Confined z f) : Paints z (area ccNote) fun c => paintNote c m f :=
  (paints_text hf.footer (ccNote, 0) (by simp [footerSlots]) rfl subset_rfl Paints.id).ite Paints.id

theorem paints_footer (hf : Confined z f) : Paints z (area ccFooter) fun c => paintFooter c m f := by
  simp only [paintFooter]
  exact paints_text hf.footer (ccFooter, ccFooterBaseline) (by simp [footerSlots]) rfl subset_rfl Paints.id

/-- The painter of a control. -/
def painter (D : Type) [CFloat D] (f : CcFonts) (m : CcModel F) : Control → Canvas → Canvas
  | .handle, c => rectangle D c ccHandle ccHandleRadius muted
  | .wifi, c => wifi D c m f
  | .bright, c => Paint.brightness D c m f
  | .auto, c => paintAuto D c m f
  | .off, c => paintOff D c f
  | .actions, c => paintActions D c m f
  | .timer, c => paintTimer D c m f
  | .note, c => paintNote c m f
  | .footer, c => paintFooter c m f

/-- Every control paints in its own region only. -/
theorem paints_control [LawfulShare D] (hf : Confined z f) (hmax : m.brightnessMax < 2 ^ 31)
    (i : Control) : Paints z (region i) (painter D f m i) := by
  have hone {r : CcRect} (hr : r ∈ rects i) : area r ⊆ region i := fun p hp => ⟨r, hr, hp⟩
  cases i with
  | handle => exact paints_rectangle (hone (by simp [rects])) Paints.id
  | wifi => exact (paints_wifi hf).mono (hone (by simp [rects]))
  | bright => exact (paints_brightness hf hmax).mono (hone (by simp [rects]))
  | auto => exact (paints_auto hf).mono (hone (by simp [rects]))
  | off => exact (paints_off hf).mono (hone (by simp [rects]))
  | actions => exact paints_actions hf
  | timer => exact (paints_timer hf).mono (hone (by simp [rects]))
  | note => exact (paints_note hf).mono (hone (by simp [rects]))
  | footer => exact (paints_footer hf).mono (hone (by simp [rects]))

end Painters
end Taq102.Panel.Controls
