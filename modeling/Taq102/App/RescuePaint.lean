import Taq102.App.RescueScreen
import Taq102.Panel.StatusBar

/-! The picture of the rescue screen (`rescue_paint.c`): the status bar, a title and five lines, in the two
faces or, without them, in bitmap text. -/
namespace Taq102.App.RescuePaint
open Taq102.Lib CFloat Transition
open Taq102.Graphics Taq102.Runtime Taq102.Text
open Panel StatusBar
open Rescue
open Graphics.Particles (Mode byteOf)

def ink : UInt32 := 0xFF201000

def pale : UInt32 := 0xFFFFF3D0

def dim : UInt32 := 0xFFB8741C

def rescueStyle (fontPath : Option String) : Style :=
  ⟨dim, amber, ink, dim, pale, 0xFF34C759, 0xFFFF3B30, fontPath⟩

/-- A number with at least two digits. -/
def twoDigits (n : Int) : CStr := if 0 ≤ n ∧ n < 10 then 48 :: decimal n else decimal n

/-- The lines in mixed case for the faces, in capitals for the bitmap text. -/
def rescueLines (inter : Bool) (kernel build : CStr) (st : Status) : List CStr :=
  let either (mixed capitals : String) : CStr := cstr (if inter then mixed else capitals)
  [snprintf 160 (either "Kernel " "KERNEL " ++ kernel),
    snprintf 160 (either "Build " "BUILD " ++ build),
    snprintf 160 (
      if st.haveWifi then
        either "Wi-Fi " "WIFI " ++ st.addr ++ cstr " " ++ decimal st.level ++ either " dBm Q" "DBM Q" ++
          decimal st.quality
      else either "Wi-Fi " "WIFI " ++ st.addr),
    snprintf 160 (
      if st.haveBatt then
        either "Battery " "BATTERY " ++ decimal st.cap ++ cstr "% " ++ decimal (st.mv.tdiv 1000) ++ cstr "." ++
          twoDigits ((st.mv.tdiv 10).tmod 100) ++ either " V " "V " ++ st.word ++ cstr " " ++ decimal st.ma ++
          either " mA" "MA"
      else either "Battery unknown" "BATTERY UNKNOWN"),
    snprintf 160 (either "SSH root - ttyGS0 - killall rescue-screen to draw"
      "SSH ROOT - TTYGS0 - KILLALL RESCUE-SCREEN TO DRAW")]

def lineColor (i : Nat) : UInt32 := if i = 2 ∨ i = 3 then pale else ink

/-- The two faces that are open, if both are. -/
def bothFaces : Option Nat → Option Nat → Option (Nat × Nat)
  | some title, some body => some (title, body)
  | _, _ => none

section Paint
variable {F : Type} [CFloat F] [CRound F]

/-- The title and the lines in the faces; `cuts` says whether there is memory for a line's cut copy. -/
def paintFaces (cuts : Nat → Bool) (title body : Nat) (lines : List CStr) (st : FontStore F) (c : Canvas) :
    Option (FontStore F × Canvas) := do
  let text := cstr "Rescue mode" ++ [0]
  let width ← fontWidth (st.font title) text
  let drawn ← drawText st title c ((c.w - width).tdiv 2) (c.h.tdiv 5 + fontBaseline (st.font title)) text ink
    0 c.w
  let x := c.w.tdiv 12
  let y := c.h.tdiv 2
  (List.range 5).foldlM (fun s (i : Nat) =>
    fontDrawFit (cuts i) s.1 (some body) s.2 x (y + 28 * i + fontBaseline (s.1.font body)) (c.w - 2 * x)
      (some (lines.getD i [] ++ [0])) (lineColor i)) drawn

/-- The title and the lines in bitmap text. -/
def paintBitmap (lines : List CStr) (c : Canvas) : Canvas :=
  let big := c.w.tdiv 60
  let title := cstr "RESCUE MODE"
  let s := c.w.tdiv 200
  let x := c.w.tdiv 12
  let y := c.h.tdiv 2
  (List.range 5).foldl (fun c (i : Nat) => canvasText c x (y + 7 * s * i) (lines.getD i []) s (lineColor i))
    (canvasText c ((c.w - canvasTextWidth title big).tdiv 2) (c.h.tdiv 5) title big ink)

variable [CMath F]

def rescuePaint (w : BarWorld F) (cuts : Nat → Bool) (b : BarFont F) (c : Canvas) (kernel build : CStr)
    (st : Status) (title body : Option Nat) (fontPath : Option String) : Option (BarFont F × Canvas) := do
  let (b, c) ← statusbarPaint w b ⟨c.toCanvasSize, fun _ => amber⟩ st (rescueStyle fontPath)
  match bothFaces title body with
  | some (title, body) =>
    let drawn ← paintFaces cuts title body (rescueLines true kernel build st) b.store c
    some ({ b with store := drawn.1 }, drawn.2)
  | none => some (b, paintBitmap (rescueLines false kernel build st) c)

end Paint

/-! Its alpha. -/

theorem lineColor_solid (i : Nat) : alphaOf (lineColor i) = 255 := by
  unfold lineColor
  split <;> decide

theorem paintBitmap_solid {c : Canvas} (lines : List CStr) (h : Solid c) :
    (paintBitmap lines c).toCanvasSize = c.toCanvasSize ∧ Solid (paintBitmap lines c) := by
  have hink : alphaOf ink = 255 := by decide
  have hall (x y big s left top : Int) (title : CStr) : KeepsSolid fun c =>
      (List.range 5).foldl (fun c (i : Nat) => canvasText c x (y + 7 * s * i) (lines.getD i []) s (lineColor i))
        (canvasText c left top title big ink) := by
    refine ((keepsSolid_spans hink).text left top title big).comp (KeepsSolid.composes.foldl (fun i => ?_) _)
    exact (keepsSolid_spans (lineColor_solid i)).text _ _ _ _
  unfold paintBitmap
  dsimp only
  exact ⟨(hall _ _ _ _ _ _ _).size c, h.kept (hall _ _ _ _ _ _ _)⟩

section Solid
variable {F : Type} [CFloat F]

/-- A fitted text is drawn, if at all, in some text that ends. -/
theorem fontDrawFit_solid (allocates : Bool) (st : FontStore F) (a : Option Nat) (c : Canvas) (x y maxW : Int)
    {text : Memory} (h : 0 ∈ text) (col : UInt32) :
    ∃ st' f, KeepsSolid f ∧ fontDrawFit allocates st a c x y maxW (some text) col = some (st', f c) := by
  cases a with
  | none => exact ⟨st, _, .id, rfl⟩
  | some a =>
    obtain ⟨visited, hvisited⟩ := codePoints_total h
    obtain ⟨width, hwidth⟩ := fontWidth_total (st.font a) h
    unfold fontDrawFit
    simp only [hvisited, hwidth, Option.bind_eq_bind, Option.bind_some]
    split
    · exact ⟨st, _, .id, rfl⟩
    split
    · exact drawText_total st a c x y h col _ _
    split
    · exact ⟨st, _, .id, rfl⟩
    split
    · exact ⟨st, _, .id, rfl⟩
    · exact drawText_total st a c x y (List.mem_append_right _ (List.mem_singleton_self 0)) col _ _

variable [CRound F]

theorem paintFaces_solid (cuts : Nat → Bool) (title body : Nat) (lines : List CStr) (st : FontStore F)
    (c : Canvas) :
    ∃ st' f, KeepsSolid f ∧ paintFaces cuts title body lines st c = some (st', f c) := by
  have hlines (x y maxW : Int) (left : List Nat) (st : FontStore F) (c : Canvas) : ∃ st' f, KeepsSolid f ∧
      left.foldlM (fun (s : FontStore F × Canvas) (i : Nat) =>
        fontDrawFit (cuts i) s.1 (some body) s.2 x (y + 28 * i + fontBaseline (s.1.font body)) maxW
          (some (lines.getD i [] ++ [0])) (lineColor i)) (st, c) = some (st', f c) := by
    induction left generalizing st c with
    | nil => exact ⟨st, _, .id, rfl⟩
    | cons i left ih =>
      have hends : 0 ∈ lines.getD i [] ++ [0] := List.mem_append_right _ (List.mem_singleton_self 0)
      obtain ⟨st₁, f, hf, hdrawn⟩ := fontDrawFit_solid (cuts i) st (some body) c x
        (y + 28 * i + fontBaseline (st.font body)) maxW hends (lineColor i)
      obtain ⟨st₂, g, hg, hrest⟩ := ih st₁ (f c)
      exact ⟨st₂, _, hf.comp hg, by rw [List.foldlM_cons, hdrawn]; exact hrest⟩
  have hends : 0 ∈ cstr "Rescue mode" ++ [0] := List.mem_append_right _ (List.mem_singleton_self 0)
  obtain ⟨width, hwidth⟩ := fontWidth_total (st.font title) hends
  obtain ⟨st₁, f, hf, hdrawn⟩ := drawText_total st title c ((c.w - width).tdiv 2)
    (c.h.tdiv 5 + fontBaseline (st.font title)) hends ink 0 c.w
  obtain ⟨st₂, g, hg, hrest⟩ :=
    hlines (c.w.tdiv 12) (c.h.tdiv 2) (c.w - 2 * c.w.tdiv 12) (List.range 5) st₁ (f c)
  refine ⟨st₂, _, hf.comp hg, ?_⟩
  unfold paintFaces
  simp only [hwidth, hdrawn, Option.bind_eq_bind, Option.bind_some]
  exact hrest

variable [CMath F]

/-- Whatever there is to show, with or without the faces and however the calls end, the picture is painted
and lets nothing through. -/
theorem rescuePaint_solid (w : BarWorld F) (cuts : Nat → Bool) (b : BarFont F) (c : Canvas)
    (kernel build : CStr) (st : Status) (title body : Option Nat) (fontPath : Option String) :
    ∃ b' c', rescuePaint w cuts b c kernel build st title body fontPath = some (b', c') ∧
      c'.toCanvasSize = c.toCanvasSize ∧ Solid c' := by
  have hground : Solid ⟨c.toCanvasSize, fun _ => amber⟩ := fun _ _ => (by decide : alphaOf amber = 255)
  obtain ⟨b₁, c₁, hbar, hsize, hkept⟩ := statusbarPaint_solid w b hground st (rescueStyle fontPath)
  unfold rescuePaint
  simp only [hbar, Option.bind_eq_bind, Option.bind_some]
  cases bothFaces title body with
  | none =>
    obtain ⟨hsame, hsolid⟩ := paintBitmap_solid (rescueLines false kernel build st) hkept
    exact ⟨b₁, _, rfl, hsame.trans hsize, hsolid⟩
  | some faces =>
    obtain ⟨st', f, hf, hdrawn⟩ :=
      paintFaces_solid cuts faces.1 faces.2 (rescueLines true kernel build st) b₁.store c₁
    simp only [hdrawn, Option.bind_some]
    exact ⟨_, _, rfl, (hf.size c₁).trans hsize, hkept.kept hf⟩

end Solid

/-! What is scanned out. -/

section Shown
variable {F : Type} [CFloat F] [CRound F] [CMath F]

/-- The canvas of a mode. -/
def modeSize (mode : Mode) : CanvasSize := ⟨mode.W, mode.H, 0, 0, 0, 0⟩

variable (F) in
/-- What the screen draws of a status is what `rescue_paint` leaves, with whatever fonts and however its
calls end. -/
def Painted (setup : Setup) : Prop :=
  ∀ st ground, ∃ (w : BarWorld F) (cuts : Nat → Bool) (b : BarFont F) (px : Int × Int → UInt32)
    (kernel build : CStr) (title body : Option Nat) (fontPath : Option String) (b' : BarFont F) (c' : Canvas),
    rescuePaint w cuts b ⟨modeSize setup.mode, px⟩ kernel build st title body fontPath = some (b', c') ∧
      ∀ i, setup.draw st ground i = c'.px ((i.val % setup.mode.W : Nat), (i.val / setup.mode.W : Nat))

variable {setup : Setup}

theorem Painted.solid (h : Painted F setup) (st : Status) (ground : Fin (setup.mode.W * setup.mode.H) → UInt32)
    (i : Fin (setup.mode.W * setup.mode.H)) : alphaOf (setup.draw st ground i) = 255 := by
  obtain ⟨w, cuts, b, px, kernel, build, title, body, fontPath, b', c', hpaint, hdraw⟩ := h st ground
  obtain ⟨b₁, c₁, hpaint₁, hsize, hsolid⟩ :=
    rescuePaint_solid w cuts b ⟨modeSize setup.mode, px⟩ kernel build st title body fontPath
  obtain ⟨rfl, rfl⟩ := Prod.mk.inj (Option.some.inj (hpaint.symm.trans hpaint₁))
  have hin := i.isLt
  have hwide : 0 < setup.mode.W := Nat.pos_of_ne_zero fun hzero => by simp [hzero] at hin
  have hcolumn : i.val % setup.mode.W < setup.mode.W := Nat.mod_lt _ hwide
  have hrow : i.val / setup.mode.W < setup.mode.H := Nat.div_lt_of_lt_mul hin
  rw [hdraw]
  have hw : c'.w = setup.mode.W := congrArg CanvasSize.w hsize
  have hh : c'.h = setup.mode.H := congrArg CanvasSize.h hsize
  refine hsolid _ ⟨Int.natCast_nonneg _, ?_, Int.natCast_nonneg _, ?_⟩
  · rw [hw]
    exact Int.ofNat_lt.mpr hcolumn
  · rw [hh]
    exact Int.ofNat_lt.mpr hrow

theorem byteOf_alpha {v : UInt32} (h : alphaOf v = 255) : byteOf v 3 = 255 := by
  have hword : v >>> 24 = 255 := UInt32.toNat_inj.mp h
  change (v >>> 24).toUInt8 = 255
  rw [hword]
  rfl

/-- The pixel shown at a place is one of the painting. -/
theorem picture_of_painting (flipped : Bool) (st : Status) {x y : Nat} (hx : x < setup.mode.W)
    (hy : y < setup.mode.H) : ∃ i, picture setup flipped st x y = setup.draw st (fun _ => amber) i := by
  have hin {x y : Nat} (hx : x < setup.mode.W) (hy : y < setup.mode.H) :
      y * setup.mode.W + x < setup.mode.W * setup.mode.H := by
    have hrow : (y + 1) * setup.mode.W ≤ setup.mode.H * setup.mode.W := Nat.mul_le_mul_right _ hy
    rw [Nat.mul_comm setup.mode.W, Nat.add_mul] at *
    omega
  unfold picture
  dsimp only
  split
  · exact ⟨⟨_, hin (by omega) (by omega)⟩, dif_pos (hin (by omega) (by omega))⟩
  · exact ⟨⟨_, hin hx hy⟩, dif_pos (hin hx hy)⟩

/-- After every round of a run in which the display took the mode, each pixel that is scanned out has full
alpha. -/
theorem rescue_screen_solid (hpainted : Painted F setup) {base : Nat → UInt8} {rounds : List Round}
    {s : Screen setup} (hrun : Run (Enabled Screen.next) (Screen.start setup base) rounds s)
    (hsome : rounds ≠ []) (hlit : s.exited = false) :
    ∀ x < setup.mode.W, ∀ y < setup.mode.H, s.base (y * setup.mode.pitch + (4 * x + 3)) = 255 := by
  intro x hx y hy
  obtain ⟨r, _, _, hdisplayed⟩ := (current_run hrun hlit).displayed hsome
  obtain ⟨i, hi⟩ := picture_of_painting s.orientation.flipped (statusRead r.status) hx hy
  have hshows := hdisplayed x hx y hy 3 (by decide)
  rw [hi] at hshows
  exact hshows.trans (byteOf_alpha (hpainted.solid _ _ i))

end Shown

/-- The tablet's screen, without a sensor, and no face to draw with. -/
noncomputable def bareScreen : Setup where
  mode := ⟨1024, 600, 4096, by decide, by decide⟩
  draw st _ i := ((rescuePaint noFile (fun _ => true) noFont ⟨⟨1024, 600, 0, 0, 0, 0⟩, fun _ => 0⟩ (cstr "6.1")
    (cstr "v43") st none none none).map fun painted =>
      painted.2.px ((i.val % 1024 : Nat), (i.val / 1024 : Nat))).getD 0
  forced := none
  sensor := false

theorem bareScreen_painted : Painted ℝ bareScreen := by
  intro st ground
  obtain ⟨b', c', hpaint, _⟩ := rescuePaint_solid noFile (fun _ => true) noFont
    ⟨⟨1024, 600, 0, 0, 0, 0⟩, fun _ => 0⟩ (cstr "6.1") (cstr "v43") st none none none
  refine ⟨noFile, fun _ => true, noFont, fun _ => 0, cstr "6.1", cstr "v43", none, none, none, b', c', hpaint,
    fun i => ?_⟩
  simp only [bareScreen, hpaint, Option.map_some, Option.getD_some]

theorem bare_screen_solid : ∃ s : Screen bareScreen,
    (Screen.start bareScreen fun _ => 0).next ⟨none, linkedStatus, true, true⟩ = some s ∧
      s.base (599 * 4096 + (4 * 1023 + 3)) = 255 := by
  refine ⟨_, rfl, ?_⟩
  exact rescue_screen_solid bareScreen_painted (.single rfl) (List.cons_ne_nil _ _) rfl 1023 (by decide) 599
    (by decide)

end Taq102.App.RescuePaint
