import Taq102.App.Fingers
import Taq102.App.Frames
import Taq102.Runtime.Brightness

/-! What the calls on the runtime keep, the application keeps: it touches the runtime through them, by
a request to sleep, by a reset of its input and by the mark that a painting clears. -/
namespace Taq102.App
open Taq102.Lib CFloat Transition
open Touch Touch.Evdev Touch.Reading Taq102.Runtime Panel

section Rule
variable {F : Type} (D : Type) [CFloat F] [CFloat D] [CDouble F D]

/-- A property that the calls on the runtime keep, and what the input does to it between them. -/
structure Steady (P : World F → Prop) : Prop where
  step : ∀ w (op : RuntimeOp F D), P w → P (step w op)
  request : ∀ w, P w → P { w with runtime := { w.runtime with sleepRequested := true } }
  reset : ∀ w, P w → P (w.withPanel (Capturing.controlInputReset (D := D) w.runtime.panel))

variable {D} {P : World F → Prop}

theorem Steady.dispatch (h : Steady D P) {c : Console F D} (hc : P c.world) (ev : TouchEvent F D) (now : Int)
    (e : Nat → ActionEnv) : P (dispatch c ev now e).world := by
  have hcall {w : World F} (hw : P w) (due : Prop) [Decidable due] (op : RuntimeOp F D) :
      P (if due then Runtime.step w op else w) := by
    split
    · exact h.step w op hw
    · exact hw
  have hidle := hcall hc (ev.kind = .down ∨ ev.kind = .move) (.touchIdle now)
  have hticked := h.step _ (.tickPanel now) hidle
  exact hcall (hcall (hcall hticked _ (.openPanel now)) _ (.touch ev now true 3 e)) _ (.closePanel now)

theorem Steady.read (h : Steady D P) {word : Nat} {c c' : Console F D} {call : ReadCall D}
    (hthrough : ReadThrough word c call c') (hc : P c.world) : P c'.world := by
  obtain ⟨_, _, _, _, _, htakes, _⟩ := hthrough.taken
  refine htakes.invariant (fun t => P t.world) hc fun t ev u ht hstep => ?_
  obtain ⟨_, ⟨_, rfl⟩ | ⟨now, e, _, rfl⟩⟩ := hstep
  · exact ht
  · exact h.dispatch ht ev now e

/-- A property of the overlay and the runtime that their calls keep holds in every run. -/
theorem steady_invariant (setup : Setup) {P : OverlayState F → World F → Prop} (h : ∀ o, Steady D (P o))
    (hdraw : ∀ f o w now defer drawn, P o w →
      controlOverlayDraw D setup.fonts setup.screen o w.runtime.panel f now defer = drawn →
      P drawn.1 (w.withPanel drawn.2.1)) :
    Invariant (F := F) (D := D) setup anyReads (fun _ o c => Settled c ∧ P o c.world)
      (fun _ o c => Settled c ∧ P o c.world) where
  key _ o c hc := ⟨⟨hc.1.pending, hc.1.error, hc.1.working⟩, (h o).request _ hc.2⟩
  read _ o c call c' hc _ hread := by
    have hthrough := controlInputRead_through hc.1 hread
    exact ⟨hthrough.settled hc.1, (h o).read hthrough hc.2⟩
  tick _ o c now e hc := ⟨⟨hc.1.pending, hc.1.error, hc.1.working⟩, (h o).step _ (.tick now false e) hc.2⟩
  sleep f o c now save hc := ⟨⟨rfl, rfl, hc.1.working⟩, (h o).reset _ ((h o).step _ (.sleep now save) hc.2)⟩
  discard _ _ _ _ _ _ _ hc _ _ := ⟨⟨hc.1.pending, hc.1.error, hc.1.working⟩, hc.2⟩
  darkTick _ o c now e hc := ⟨⟨hc.1.pending, hc.1.error, hc.1.working⟩, (h o).step _ (.tick now true e) hc.2⟩
  wake _ o c now hc := ⟨⟨rfl, rfl, hc.1.working⟩, (h o).step _ (.touchIdle now) ((h o).reset _ hc.2)⟩
  turn _ o c _ hc := ⟨⟨rfl, rfl, hc.1.working⟩, (h o).reset _ hc.2⟩
  draw f o c now defer drawn hc hdrawn :=
    ⟨⟨hc.1.pending, hc.1.error, hc.1.working⟩, hdraw f o c.world now defer drawn hc.2 hdrawn⟩
  light _ o c now ok hc := ⟨⟨hc.1.pending, hc.1.error, hc.1.working⟩, (h o).step _ (.wake now ok) hc.2⟩

/-- The reset of the panel lets its contact go and takes the reboot back. -/
theorem resetPanel_cases (m : CcModel F) :
    Capturing.controlInputReset (D := D) m = { m with armed := 0, dirty := 1 } ∨
      Capturing.controlInputReset (D := D) m = { release m with armed := 0, dirty := 1 } := by
  have hcancel (e : TouchEvent F D) (hkind : e.kind = .cancel) :
      (ccHandleEvent m e 0 true 3).2 = m ∨ (ccHandleEvent m e 0 true 3).2 = release m := by
    have hdown : e.kind ≠ .down := by
      rw [hkind]
      exact nofun
    unfold ccHandleEvent handle
    dsimp only
    rw [if_neg hdown, if_pos hkind]
    split
    · exact .inl rfl
    · split
      · exact .inl rfl
      · split
        · exact .inl rfl
        · exact .inr rfl
  unfold Capturing.controlInputReset
  dsimp only
  split
  · rcases hcancel { kind := .cancel, slot := m.captureSlot, x := lit 0, y := lit 0, t := lit 0 } rfl with
      hsame | hreleased
    · rw [hsame]
      exact .inl rfl
    · rw [hreleased]
      exact .inr rfl
  · exact .inl rfl

end Rule

section Levels
variable {F D : Type} [CFloat F] [CFloat D] [CDouble F D]

theorem agree_reset {w : World F} (h : (levels w).Agree) :
    (levels (w.withPanel (Capturing.controlInputReset (D := D) w.runtime.panel))).Agree := by
  rcases resetPanel_cases (D := D) w.runtime.panel with hsame | hreleased
  · rw [hsame]
    exact agree_withPanel h ⟨rfl, rfl, rfl, rfl⟩ fun hd => h.auto.trans (h.drag hd)
  · rw [hreleased]
    exact agree_withPanel h ⟨rfl, rfl, rfl, rfl⟩ fun hd => absurd rfl hd

end Levels

end Taq102.App
