import Taq102.Panel.StatusBar

/-! The bar of the overlay (`control_overlay_draw`): its texture is painted anew when the text that stands
for the status has changed. -/
namespace Taq102.Panel.Bar
open Taq102.Lib Transition
open Taq102.Graphics Taq102.Runtime
open Overlay StatusBar

/-- White over the picture, the fills of the battery green and red. -/
def barStyle (fontPath : Option String) : Style :=
  ⟨0, 0, 0xffffffff, 0x66ffffff, 0xffffffff, 0xFF34C759, 0xFFFF3B30, fontPath⟩

structure BarState where
  bar : Canvas
  barTex : Texture
  barShown : CStr

def barSize (w : Int) : CanvasSize := ⟨w, statusbarHeight w, 0, 0, 0, 0⟩

def BarState.start (w : Int) : BarState where
  bar := ⟨barSize w, fun _ => 0⟩
  barTex _ := rgba 0
  barShown := []

/-- What a frame meets: the sample of the status, whether updates are put off, and, for a painting, the
outcomes of its calls and the open fonts, which are shared with the panel. -/
structure BarFrame (F : Type) where
  sample : StatusEnv
  deferred : Bool
  world : BarWorld F
  font : BarFont F

def BarFrame.status {F : Type} (f : BarFrame F) : Status := statusRead f.sample

def barKey (st : Status) : CStr :=
  snprintf 128 (decimal (if st.haveWifi then 1 else 0) ++ 124 :: (decimal (statusWifiBars st) ++
    124 :: (decimal st.cap ++ 124 :: decimal (if st.plugged then 1 else 0))))

section Draw
variable {F : Type} [CFloat F] [CMath F] [CRound F]

def drawBar (fontPath : Option String) (s : BarState) (f : BarFrame F) : Option BarState :=
  let key := barKey f.status
  if key ≠ s.barShown ∧ (f.deferred = false ∨ s.barShown = []) then do
    let (_, bar) ← statusbarPaint f.world f.font ⟨s.bar.toCanvasSize, fun _ => 0⟩ f.status (barStyle fontPath)
    some { bar, barTex := uploadRegion s.barTex bar 0 0 bar.w bar.h, barShown := key }
  else some s

end Draw

/-! What the key tells apart. -/

/-- Two samples of which the bar shows the same. -/
structure SameBar (st st' : Status) : Prop where
  bars : statusWifiBars st = statusWifiBars st'
  cap : st.cap = st'.cap
  plugged : st.plugged = st'.plugged
  haveBatt : st.haveBatt = st'.haveBatt

theorem statusWifiBars_le (st : Status) : statusWifiBars st ≤ 3 := by
  unfold statusWifiBars
  split
  · omega
  · split
    · omega
    · split <;> omega

theorem isInt_bars (st : Status) : IsInt (statusWifiBars st) := by
  have hle := statusWifiBars_le st
  have hlong : longMax = 2147483647 := by decide
  unfold IsInt
  omega

theorem barKey_whole {st : Status} (h : st.Fits) : barKey st =
    decimal (if st.haveWifi then 1 else 0) ++ 124 :: (decimal (statusWifiBars st) ++
      124 :: (decimal st.cap ++ 124 :: decimal (if st.plugged then 1 else 0))) := by
  have hlength {v : Int} (hv : IsInt v) : (decimal v).length ≤ 11 := by
    have hlong : longMax = 2147483647 := by decide
    obtain ⟨hlow, hhigh⟩ := hv
    exact decimal_length (by omega) (by omega)
  have hwifi := hlength (isInt_flag (st.haveWifi = true))
  have hbars := hlength (isInt_bars st)
  have hcap := hlength h.cap
  have hplugged := hlength (isInt_flag (st.plugged = true))
  refine List.take_of_length_le ?_
  simp only [List.length_append, List.length_cons]
  omega

theorem barKey_ne_nil {st : Status} (h : st.Fits) : barKey st ≠ [] := by
  rw [barKey_whole h]
  simp

/-- The key holds all that the bar shows, but for whether the charge is known. -/
theorem sameBar_of_key {st st' : Status} (h : st.Fits) (h' : st'.Fits) (hkey : barKey st = barKey st') :
    statusWifiBars st = statusWifiBars st' ∧ st.cap = st'.cap ∧ st.plugged = st'.plugged := by
  have hbar (v : Int) : (124 : UInt8) ∉ decimal v := decimal_plain (by decide) (by decide)
  rw [barKey_whole h, barKey_whole h'] at hkey
  obtain ⟨_, hkey⟩ := split_separator (hbar _) (hbar _) hkey
  obtain ⟨hbars, hkey⟩ := split_separator (hbar _) (hbar _) hkey
  obtain ⟨hcap, hplugged⟩ := split_separator (hbar _) (hbar _) hkey
  have hflag := decimal_injective (isInt_flag _) (isInt_flag _) hplugged
  refine ⟨Int.ofNat.inj (decimal_injective (isInt_bars st) (isInt_bars st') hbars),
    decimal_injective h.cap h'.cap hcap, ?_⟩
  cases hp : st.plugged <;> cases hp' : st'.plugged <;> simp_all

/-- A charge other than 0 says whether it is known. -/
theorem statusRead_haveBatt {e : StatusEnv} (h : (statusRead e).cap ≠ 0) :
    (statusRead e).haveBatt = (0 ≤ (statusRead e).cap && (statusRead e).cap ≤ 100) := by
  change ((readRootInt e.files (cstr "/sys/class/power_supply") (cstr "battery/capacity")).any _ : Bool) = _
  change (readRootInt e.files (cstr "/sys/class/power_supply") (cstr "battery/capacity")).getD 0 ≠ 0 at h
  change _ = (0 ≤ (readRootInt e.files (cstr "/sys/class/power_supply") (cstr "battery/capacity")).getD 0 &&
    (readRootInt e.files (cstr "/sys/class/power_supply") (cstr "battery/capacity")).getD 0 ≤ 100 : Bool)
  cases hcap : readRootInt e.files (cstr "/sys/class/power_supply") (cstr "battery/capacity") with
  | none =>
    rw [hcap] at h
    exact absurd rfl h
  | some cap => rfl

theorem statusRead_known {e e' : StatusEnv} (hcap : (statusRead e).cap = (statusRead e').cap)
    (h : (statusRead e').cap ≠ 0) : (statusRead e).haveBatt = (statusRead e').haveBatt := by
  rw [statusRead_haveBatt (hcap ▸ h), statusRead_haveBatt h, hcap]

section Shown
variable {F : Type} [CFloat F] [CMath F] [CRound F] {fontPath : Option String} {w : Int}

theorem paintAt_congr {st st' : Status} (h : SameBar st st') (world : BarWorld F) (b : BarFont F) (c : Canvas)
    (sty : Style) (s : Int) : paintAt world b c st sty s = paintAt world b c st' sty s := by
  obtain ⟨hbars, hcap, hplugged, hbatt⟩ := h
  simp only [paintAt, drawPercent, percentText, hbars, hcap, hplugged, hbatt]

/-- The texture is the bar of a status, as the calls and the fonts of a frame let it be painted. -/
def ShowsBar (fontPath : Option String) (w : Int) (barTex : Texture) (f : BarFrame F) (st : Status) : Prop :=
  if f.world.allocates then ∃ b' big,
    paintAt f.world f.font (enlarged w (statusbarHeight w)) st (barStyle fontPath) (w.tdiv 256 * ss) =
      some (b', big) ∧ ∀ p ∈ box 0 0 w (statusbarHeight w), barTex p = rgba (canvasOver 0 (averaged big p))
  else ∀ p ∈ box 0 0 w (statusbarHeight w), barTex p = rgba 0

theorem ShowsBar.congr {barTex : Texture} {f : BarFrame F} {st st' : Status}
    (h : ShowsBar fontPath w barTex f st) (hsame : SameBar st st') : ShowsBar fontPath w barTex f st' := by
  unfold ShowsBar at *
  rw [← paintAt_congr hsame]
  exact h

variable (fontPath) in
/-- A frame that paints puts the whole bar of its status into the texture. -/
theorem painted_shows {s : BarState} (hsize : s.bar.toCanvasSize = barSize w) (f : BarFrame F) :
    ∃ b' bar, statusbarPaint f.world f.font ⟨s.bar.toCanvasSize, fun _ => 0⟩ f.status (barStyle fontPath) =
        some (b', bar) ∧ bar.toCanvasSize = barSize w ∧
      ShowsBar fontPath w (uploadRegion s.barTex bar 0 0 bar.w bar.h) f f.status := by
  have hrows : barRows (barSize w) = statusbarHeight w := if_neg (lt_irrefl _)
  rw [hsize]
  unfold ShowsBar
  cases hmem : f.world.allocates with
  | false =>
    refine ⟨f.font, _, if_pos hmem, rfl, ?_⟩
    rw [if_neg Bool.false_ne_true]
    intro p hp
    exact (Repaint.uploadRegion_eq _ _ _ _ _ _ p).trans (if_pos hp)
  | true =>
    obtain ⟨b', big, hpainted, hlaid⟩ := statusbarPaint_eq hmem f.font (barSize w) f.status (barStyle fontPath)
    rw [hrows] at hpainted
    refine ⟨b', _, hlaid _, rfl, ?_⟩
    rw [if_pos rfl]
    refine ⟨b', big, hpainted, fun p hp => ?_⟩
    have hin := mem_box.mp hp
    have hvisible : canvasVisible (barSize w) p.1 p.2 = true := by
      rw [canvasVisible_iff]
      dsimp only [barSize]
      omega
    have hrow : p.2 < barRows (barSize w) := by
      rw [hrows]
      omega
    exact (Repaint.uploadRegion_eq _ _ _ _ _ _ p).trans
      ((if_pos hp).trans (congrArg rgba (if_pos ⟨hrow, hvisible⟩)))

/-- After some frames the texture is the bar of a frame whose key is the text kept. -/
structure BarCurrent (fontPath : Option String) (w : Int) (frames : List (BarFrame F)) (s : BarState) :
    Prop where
  size : s.bar.toCanvasSize = barSize w
  first : s.barShown = [] ↔ frames = []
  latest : ∀ f ∈ frames.getLast?, f.deferred = false → barKey f.status = s.barShown
  painted : frames ≠ [] → ∃ f ∈ frames, barKey f.status = s.barShown ∧ ShowsBar fontPath w s.barTex f f.status

theorem barCurrent_drawn {frames : List (BarFrame F)} {s u : BarState} {f : BarFrame F}
    (h : BarCurrent fontPath w frames s) (hdraw : drawBar fontPath s f = some u) :
    BarCurrent fontPath w (frames ++ [f]) u := by
  have hsome : frames ++ [f] ≠ [] := by simp
  have hkey : barKey f.status ≠ [] := barKey_ne_nil (statusRead_fits f.sample)
  have hlatest (key : CStr) (hshown : f.deferred = false → barKey f.status = key) :
      ∀ g ∈ (frames ++ [f]).getLast?, g.deferred = false → barKey g.status = key := by
    intro g hg
    rw [List.getLast?_concat] at hg
    obtain rfl := Option.some.inj hg
    exact hshown
  unfold drawBar at hdraw
  dsimp only at hdraw
  split at hdraw
  · obtain ⟨b', bar, hpainted, hsize, hshows⟩ := painted_shows fontPath h.size f
    rw [hpainted] at hdraw
    obtain rfl := Option.some.inj hdraw
    exact ⟨hsize, iff_of_false hkey hsome, hlatest _ fun _ => rfl,
      fun _ => ⟨f, List.mem_append_right _ List.mem_cons_self, rfl, hshows⟩⟩
  · rename_i hkept
    obtain rfl := Option.some.inj hdraw
    have hbefore : frames ≠ [] := by
      intro hnil
      have hfirst := h.first.mpr hnil
      exact hkept ⟨fun heq => hkey (heq.trans hfirst), .inr hfirst⟩
    obtain ⟨g, hg, hshown, hshows⟩ := h.painted hbefore
    refine ⟨h.size, iff_of_false (fun hnil => hbefore (h.first.mp hnil)) hsome, hlatest _ fun hnow => ?_,
      fun _ => ⟨g, List.mem_append_left _ hg, hshown, hshows⟩⟩
    by_contra hchanged
    exact hkept ⟨hchanged, .inl hnow⟩

theorem barCurrent_run {frames : List (BarFrame F)} {s : BarState}
    (h : Run (Enabled (drawBar fontPath)) (BarState.start w) frames s) : BarCurrent fontPath w frames s := by
  induction h with
  | nil =>
    refine ⟨rfl, iff_of_true rfl rfl, fun f hf => ?_, fun hsome => absurd rfl hsome⟩
    rw [List.getLast?_nil] at hf
    cases hf
  | snoc _ hstep ih => exact barCurrent_drawn ih hstep

/-- Every frame draws the bar. -/
theorem exists_barRun (fontPath : Option String) (w : Int) (frames : List (BarFrame F)) :
    ∃ s, Run (Enabled (drawBar fontPath)) (BarState.start w) frames s := by
  induction frames using List.reverseRecOn with
  | nil => exact ⟨_, .nil⟩
  | append_singleton frames f ih =>
    obtain ⟨s, hs⟩ := ih
    obtain ⟨b', bar, hpainted, _⟩ := painted_shows fontPath (barCurrent_run hs).size f
    have hdraw : ∃ u, drawBar fontPath s f = some u := by
      unfold drawBar
      dsimp only
      split
      · rw [hpainted]
        exact ⟨_, rfl⟩
      · exact ⟨s, rfl⟩
    obtain ⟨u, hu⟩ := hdraw
    exact ⟨u, .snoc hs hu⟩

/-- After every frame in which updates are not put off, the texture is the bar of a sample that differs from
the frame's own at most in whether the charge is known; and not in that either unless the charge reads 0. -/
theorem bar_up_to_date {frames : List (BarFrame F)} {last : BarFrame F} {s : BarState}
    (hrun : Run (Enabled (drawBar fontPath)) (BarState.start w) (frames ++ [last]) s)
    (hnow : last.deferred = false) :
    ∃ f ∈ frames ++ [last], ShowsBar fontPath w s.barTex f f.status ∧
      statusWifiBars f.status = statusWifiBars last.status ∧ f.status.cap = last.status.cap ∧
      f.status.plugged = last.status.plugged ∧
      (last.status.cap ≠ 0 ∨ f.status.haveBatt = last.status.haveBatt →
        ShowsBar fontPath w s.barTex f last.status) := by
  have hcurrent := barCurrent_run hrun
  obtain ⟨f, hf, hkey, hshows⟩ := hcurrent.painted (by simp)
  have hlast := hcurrent.latest last List.getLast?_concat hnow
  obtain ⟨hbars, hcap, hplugged⟩ := sameBar_of_key (statusRead_fits f.sample) (statusRead_fits last.sample)
    (hkey.trans hlast.symm)
  refine ⟨f, hf, hshows, hbars, hcap, hplugged, fun hknown => hshows.congr ⟨hbars, hcap, hplugged, ?_⟩⟩
  rcases hknown with hcharge | hbatt
  · exact statusRead_known hcap hcharge
  · exact hbatt

end Shown

/-- No link, nothing on the supplies, and what the file of the capacity holds. -/
def chargeSample (capacity : Option CStr) : StatusEnv where
  address := none
  wireless := none
  files path := if path = cstr "/sys/class/power_supply/battery/capacity" then capacity else none
  readMs := 0

/-- An empty battery and one of unknown charge have one key, and different texts. -/
example : barKey (statusRead (chargeSample (some (cstr "0\n")))) = barKey (statusRead (chargeSample none)) ∧
    percentText (statusRead (chargeSample (some (cstr "0\n")))) = cstr "0%" ∧
    percentText (statusRead (chargeSample none)) = cstr "--%" := by
  decide +kernel

noncomputable def chargeFrame (capacity : CStr) (deferred : Bool) : BarFrame ℝ where
  sample := chargeSample (some capacity)
  deferred := deferred
  world := noFile
  font := noFont

/-- The charge falls while updates are put off. -/
noncomputable def fallingCharge : List (BarFrame ℝ) :=
  [chargeFrame (cstr "80\n") false, chargeFrame (cstr "79\n") true]

/-- The next frame shows it. -/
theorem fallen_charge_shown : ∃ (s : BarState) (f : BarFrame ℝ),
    f ∈ fallingCharge ++ [chargeFrame (cstr "79\n") false] ∧
      ShowsBar none 1024 s.barTex f (chargeFrame (cstr "79\n") false).status := by
  obtain ⟨s, hs⟩ := exists_barRun none 1024 (fallingCharge ++ [chargeFrame (cstr "79\n") false])
  have hcharge : (statusRead (chargeSample (some (cstr "79\n")))).cap ≠ 0 := by decide +kernel
  obtain ⟨f, hf, _, _, _, _, hshown⟩ := bar_up_to_date hs rfl
  exact ⟨s, f, hf, hshown (.inl hcharge)⟩

end Taq102.Panel.Bar
