import Taq102.App.Ghosts
import Taq102.App.Worlds
import Taq102.Runtime.Freshness

/-! The panel on the screen is the panel: in every run its texture is a full painting of the model, unless
the model is marked, and a frame that shows it leaves no mark. -/
namespace Taq102.App
open Taq102.Lib CFloat Transition
open Touch Touch.Evdev Touch.Reading Taq102.Runtime Panel Panel.Controls Panel.Paint

variable {F D : Type} [CFloat F] [CFloat D] [CDouble F D]

/-- The overlay keeps up with the panel, and the panel with the runtime. -/
structure InPicture (D : Type) [CFloat D] (fonts : Option CcFonts) (o : OverlayState F) (w : World F) : Prop where
  kept : UpToDate D panelSize (fun _ => 0) fonts o w.runtime.panel
  agree : (levels w).Agree

omit [CFloat F] [CDouble F D] in
theorem InPicture.fits {fonts : Option CcFonts} {o : OverlayState F} {w : World F} (h : InPicture D fonts o w) :
    w.runtime.panel.brightnessMax < 2147483648 := by
  have hfits := h.agree.fits
  change w.runtime.panel.brightnessMax < 2 ^ 31 at hfits
  omega

theorem inPicture_steady [LawfulShare D] [LawfulDouble F] (fonts : Option CcFonts) (o : OverlayState F) :
    Steady D (InPicture D fonts o) where
  step w op h := ⟨h.kept.marked (step_marked w op), agree_step h.agree op⟩
  request _ h := ⟨h.kept, h.agree⟩
  reset _ h := ⟨h.kept.marked (Capturing.controlInputReset_marked _), agree_reset h.agree⟩

omit [CDouble F D] in
theorem inPicture_draw [LawfulShare D] {fonts : Option CcFonts} (hf : Confined panelSize (faces fonts))
    {o : OverlayState F} {w : World F} (h : InPicture D fonts o w) (screen : ScreenSize) (f : Bool) (now : Int)
    (defer : Bool) :
    InPicture D fonts (controlOverlayDraw D fonts screen o w.runtime.panel f now defer).1
      (w.withPanel (controlOverlayDraw D fonts screen o w.runtime.panel f now defer).2.1) := by
  have hwhole : Whole panelSize := ⟨rfl, rfl, le_rfl⟩
  refine ⟨(controlOverlayDraw_kept screen f now defer hwhole hf h.kept h.fits).1, ?_⟩
  have hmanual : DragManual w.runtime.panel := fun hd => h.agree.auto.trans (h.agree.drag hd)
  rcases controlOverlayDraw_model (D := D) screen f now defer (o := o) (m := w.runtime.panel) with hsame | hclean
  · rw [hsame]
    exact agree_withPanel h.agree ⟨rfl, rfl, rfl, rfl⟩ hmanual
  · rw [hclean]
    exact agree_withPanel h.agree ⟨rfl, rfl, rfl, rfl⟩ hmanual

omit [CFloat F] in
/-- Waking sends the level that the panel shows. -/
theorem wake_panel {w : World F} (h : (levels w).Agree) (now : Int) (ok : Bool) :
    (controlRuntimeWake w now ok).runtime.panel = w.runtime.panel := by
  have hhigh : w.runtime.panel.brightness ≤ w.runtime.panel.brightnessMax := h.shown.2
  unfold controlRuntimeWake apply
  dsimp only
  rw [if_neg (by omega : ¬ w.runtime.panel.brightness > w.runtime.panel.brightnessMax)]
  split
  · rfl
  · rw [if_neg (not_not.mpr rfl)]

theorem inPicture_run [LawfulShare D] [LawfulDouble F] [CMath F] [CAngle F] {setup : Setup} {e : InitEnv}
    {flip : TouchFlip F} {stream : List UInt8} {tex : Overlay.Texture} {now : Int} {s t : Loop F D}
    {labels : List (LoopOp D)} (hf : Confined panelSize (faces setup.fonts))
    (hinit : Loop.init setup e flip stream tex now = some s) (hrun : Run (Enabled (Loop.next setup)) s labels t)
    (hplace : t.place ≠ .exited) : InPicture D setup.fonts t.overlay t.console.world := by
  obtain ⟨w, hworld, hstarts⟩ := Option.bind_eq_some_iff.mp hinit
  obtain ⟨input, hinput, rfl⟩ := Option.map_eq_some_iff.mp hstarts
  have hsteady := inPicture_steady (F := F) (D := D) setup.fonts
  have hinvariant := steady_invariant setup hsteady
    fun f o w now defer drawn h hdrawn => hdrawn ▸ inPicture_draw hf h setup.screen f now defer
  have hstart : Settled ({ input, world := w } : Console F D) ∧
      InPicture D setup.fonts (Loop.start setup ({ input, world := w } : Console F D) tex now).overlay w :=
    ⟨init_settled hinput w, ⟨fun _ => rfl, nofun, nofun⟩, agree_init hworld⟩
  have hsatisfies := hinvariant.run_always (s := Loop.start setup { input, world := w } tex now) hstart hrun
  unfold Loop.Satisfies at hsatisfies
  split at hsatisfies
  · rename_i hexited
    exact absurd hexited hplace
  · exact hsatisfies.2
  · exact hsatisfies.2

section Frame
variable {setup : Setup} {s t u : Loop F D}

/-- What a turn of the picture leaves. -/
theorem orient_keeps (setup : Setup) (s : Loop F D) :
    (orient setup s).overlay = s.overlay ∧ (orient setup s).nowMs = s.nowMs ∧
      (orient setup s).previousReadAtMs = s.previousReadAtMs ∧
      (orient setup s).console.world.runtime.readAtMs = s.console.world.runtime.readAtMs := by
  unfold orient
  split
  · dsimp only
    split <;> exact ⟨rfl, rfl, rfl, rfl⟩
  · exact ⟨rfl, rfl, rfl, rfl⟩

omit [CFloat D] [CDouble F D] in
theorem gestures_keeps [CMath F] [CAngle F] (setup : Setup) (s : Loop F D) :
    (gestures setup s).overlay = s.overlay ∧ (gestures setup s).nowMs = s.nowMs ∧
      (gestures setup s).previousReadAtMs = s.previousReadAtMs ∧ (gestures setup s).console = s.console := by
  unfold gestures
  split <;> exact ⟨rfl, rfl, rfl, rfl⟩

/-- The frame draws the panel that the turn of the picture left. -/
theorem drawn_inPicture [LawfulShare D] [LawfulDouble F] [CMath F] [CAngle F]
    (hf : Confined panelSize (faces setup.fonts)) (h : InPicture D setup.fonts s.overlay s.console.world) :
    InPicture D setup.fonts (drawOverlay setup (gestures setup (orient setup s))).overlay
      (drawOverlay setup (gestures setup (orient setup s))).console.world := by
  have hturned : InPicture D setup.fonts (orient setup s).overlay (orient setup s).console.world := by
    unfold orient
    split
    · dsimp only
      split
      · exact (inPicture_steady setup.fonts s.overlay).reset _ h
      · exact h
    · exact h
  obtain ⟨hoverlay, _, _, hconsole⟩ := gestures_keeps setup (orient setup s)
  rw [← hoverlay, ← hconsole] at hturned
  exact inPicture_draw hf hturned _ _ _ _

/-- The panel stays as it was drawn while its buffer goes on the screen. -/
theorem present_keeps [CMath F] {buffer : Nat} {e : RestEnv} (hagree : (levels s.console.world).Agree)
    (h : present s buffer e = some t) :
    t.console.world.runtime.panel = s.console.world.runtime.panel ∧ t.overlay = s.overlay := by
  unfold present at h
  split at h
  · split at h
    · dsimp only at h
      split at h
      · cases h
        exact ⟨wake_panel hagree s.nowMs e.set, rfl⟩
      · cases h
        exact ⟨rfl, rfl⟩
    · cases h
  · cases h
    exact ⟨rfl, rfl⟩

/-- The panel and the overlay of a frame that is shown are as they were drawn. -/
theorem restStep_drawn [CMath F] [CAngle F] {e : RestEnv} (hshown : (restStep setup s e).place = .top)
    (hagree : (levels (drawOverlay setup (gestures setup (orient setup s))).console.world).Agree) :
    (restStep setup s e).console.world.runtime.panel =
        (drawOverlay setup (gestures setup (orient setup s))).console.world.runtime.panel ∧
      (restStep setup s e).overlay = (drawOverlay setup (gestures setup (orient setup s))).overlay := by
  unfold restStep at hshown ⊢
  dsimp only at hshown ⊢
  generalize drawOverlay setup (gestures setup (orient setup s)) = u at *
  split
  · rename_i hnone
    rw [hnone] at hshown
    cases hshown
  · rename_i buffer hbuffer
    rw [hbuffer] at hshown
    dsimp only at hshown
    split
    · rename_i hnone
      rw [hnone] at hshown
      cases hshown
    · rename_i fbs hfbs
      rw [hfbs] at hshown
      dsimp only at hshown
      split
      · rename_i hnone
        rw [hnone] at hshown
        cases hshown
      · rename_i v hpresent
        have hkept := present_keeps (s := { u with fbs }) hagree hpresent
        exact hkept

end Frame

/-- In every run a texture that is prepared is a full painting of the panel, unless the panel is marked;
and a frame leaves no mark on a panel it shows, unless the status was read for it or a drag was
painted within 33 ms. What is painted agrees with the preferences and the backlight. -/
theorem panel_up_to_date [LawfulShare D] [LawfulDouble F] [CMath F] [CAngle F] {setup : Setup} {e : InitEnv}
    {flip : TouchFlip F} {stream : List UInt8} {tex : Overlay.Texture} {now : Int} {s t : Loop F D}
    {labels : List (LoopOp D)} (hf : Confined panelSize (faces setup.fonts))
    (hinit : Loop.init setup e flip stream tex now = some s) (hrun : Run (Enabled (Loop.next setup)) s labels t)
    (hplace : t.place ≠ .exited) :
    Consistent t.console.world ∧
      (t.overlay.prepared = true → t.console.world.runtime.panel.dirty = 0 →
        ShowsPanel D panelSize (fun _ => 0) setup.fonts t.overlay t.console.world.runtime.panel) ∧
      ∀ frame u, t.next setup (.rest frame) = some u → u.place = .top →
        ccVisible u.console.world.runtime.panel = true →
        t.console.world.runtime.readAtMs = t.previousReadAtMs →
        (u.console.world.runtime.panel.draggingBrightness = 0 ∨ 33 ≤ t.nowMs - t.overlay.paintedAtMs) →
        ShowsPanel D panelSize (fun _ => 0) setup.fonts u.overlay u.console.world.runtime.panel := by
  have hpicture := inPicture_run hf hinit hrun hplace
  have hagree := hpicture.agree
  refine ⟨⟨hagree.auto, hagree.panelMinutes, hagree.idleMinutes, hagree.manual, hagree.automatic, hagree.sent⟩,
    fun hprepared hclean => hpicture.kept.shows hprepared hclean, ?_⟩
  intro frame u hnext hshown hvisible hread hdrag
  obtain ⟨_, hstep⟩ := Option.ite_none_right_eq_some.mp hnext
  cases hstep
  have hdrawn := drawn_inPicture (s := t) hf hpicture
  obtain ⟨hpanel, hoverlay⟩ := restStep_drawn hshown hdrawn.agree
  obtain ⟨hoverlay', hnow, hprevious, hreadAt⟩ := orient_keeps setup t
  obtain ⟨hoverlay'', hnow', hprevious', hconsole⟩ := gestures_keeps setup (orient setup t)
  rw [hpanel] at hvisible hdrag ⊢
  rw [hoverlay]
  generalize hu : gestures setup (orient setup t) = u at *
  have hstart : u.overlay = t.overlay := hoverlay''.trans hoverlay'
  have hsame : (drawOverlay setup u).console.world.runtime.panel = u.console.world.runtime.panel ∨
      (drawOverlay setup u).console.world.runtime.panel = { u.console.world.runtime.panel with dirty := 0 } :=
    controlOverlayDraw_model _ _ _ _
  have hclean : (drawOverlay setup u).console.world.runtime.panel.dirty = 0 := by
    refine controlOverlayDraw_clean _ _ _ _ ?_ ?_ ?_
    · rcases hsame with hsame | hsame
      · rwa [hsame] at hvisible
      · rw [hsame] at hvisible
        exact hvisible
    · rw [hconsole, hreadAt, hprevious', hprevious, hread]
      exact decide_eq_false (not_not.mpr rfl)
    · rw [hstart, hnow', hnow]
      refine hdrag.imp_left fun hd => ?_
      rcases hsame with hsame | hsame
      · rwa [hsame] at hd
      · rw [hsame] at hd
        exact hd
  exact hdrawn.kept.shows (controlOverlayDraw_prepared D _ _ _ _ _ _ _) hclean

/-! A finger pulls the panel down, and the next frame paints it. -/
section Pulled
attribute [local instance] roughMath roughAngle

/-- The finger lands on the bar. -/
def reaching : List UInt8 :=
  recordBytes 1 evAbs absMtTrackingId 7 ++ recordBytes 1 evAbs absMtPositionX 500 ++
    recordBytes 1 evAbs absMtPositionY 10 ++ recordBytes 1 evSyn synReport 0

/-- 0.8 s later it is 390 pixels further down. -/
def pulling : List UInt8 :=
  [1, 0, 0, 0, 0, 53, 12, 0, 3, 0, 54, 0, 144, 1, 0, 0, 1, 0, 0, 0, 0, 53, 12, 0, 0, 0, 0, 0, 0, 0, 0, 0]

def pulled : List (LoopOp ℚ) :=
  [nightTop 1 [] (reading 4), nightRest 1 1,
    .top
      { clock := ⟨1, 800000000⟩
        key := []
        read := quietCall (reading 2) (9 / 5)
        tick := quietTick noStatus
        sleep := { save := goodSave, crtc := true } }]

theorem pulled_panel_painted : ∃ s t u : Loop ℚ ℚ,
    nightStart (nightSetup true) (reaching ++ pulling) = some s ∧
    t.next (nightSetup true) (nightRest 2 2) = some u ∧ Consistent t.console.world ∧
    ccVisible u.console.world.runtime.panel = true ∧
    ShowsPanel ℚ panelSize (fun _ => 0) none u.overlay u.console.world.runtime.panel := by
  have hpulled : ((nightStart (nightSetup true) (reaching ++ pulling)).bind fun s =>
      (pulled.foldlM (Loop.next (nightSetup true)) s).bind fun t =>
        (t.next (nightSetup true) (nightRest 2 2)).map fun u =>
          ((t.place, t.console.world.runtime.readAtMs, t.previousReadAtMs), u.place,
            ccVisible u.console.world.runtime.panel, u.console.world.runtime.panel.draggingBrightness)) =
      some ((.rest, 2000, 2000), .top, true, 0) := by
    decide +kernel
  obtain ⟨s, hstart, hruns⟩ := Option.bind_eq_some_iff.mp hpulled
  obtain ⟨t, ht, hframe⟩ := Option.bind_eq_some_iff.mp hruns
  obtain ⟨u, hu, hends⟩ := Option.map_eq_some_iff.mp hframe
  simp only [Prod.mk.injEq] at hends
  obtain ⟨⟨hplace, hread, hprevious⟩, htop, hvisible, hdrag⟩ := hends
  obtain ⟨hconsistent, _, hpainted⟩ := panel_up_to_date (F := ℚ) (D := ℚ) confined_noFonts hstart
    (run_foldlM _ ht) (by rw [hplace]; decide)
  have hsame : t.console.world.runtime.readAtMs = t.previousReadAtMs := hread.trans hprevious.symm
  exact ⟨s, t, u, hstart, hu, hconsistent, hvisible, hpainted _ u hu htop hvisible hsame (.inl hdrag)⟩

end Pulled

end Taq102.App
