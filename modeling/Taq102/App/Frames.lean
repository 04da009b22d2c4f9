import Taq102.App.Loop
import Taq102.Lib.Transition

/-! From a frame to the next: what every call of the loop on its input, its runtime and its overlay
keeps holds in every run. -/
namespace Taq102.App
open Taq102.Lib CFloat Transition
open Touch Touch.Evdev Touch.Reading Taq102.Runtime Panel

/-- Conditions on the reads of the touch screen, awake and in sleep. -/
structure Conditions (F D : Type) where
  read : Descriptor F D → ReadCall D → Prop
  discard : Descriptor F D → Option Int → List (Action D) → Prop

/-- No conditions. -/
def anyReads {F D : Type} : Conditions F D := ⟨fun _ _ => True, fun _ _ _ => True⟩

section Rule
variable {F D : Type} [CFloat F] [CFloat D] [CDouble F D]

/-- The reads in sleep, each where the one before left the decoder. -/
def Conditions.Discards (k : Conditions F D) (word : Nat) :
    List (Option Int × List (Action D)) → Descriptor F D → Prop
  | [], _ => True
  | (clock, answers) :: rest, d =>
    k.discard d clock answers ∧ ∀ got ∈ readFd word d clock answers, k.Discards word rest got.2

/-- The reads of a part of the loop. -/
def Conditions.Permits (k : Conditions F D) (setup : Setup) (s : Loop F D) : LoopOp D → Prop
  | .top e => k.read s.console.input.decoder (frameCall setup e)
  | .dark e => setup.hasTouch = true → k.Discards setup.word e.discards s.console.input.decoder
  | _ => True

instance Conditions.decidableDiscards (k : Conditions F D)
    [∀ d clock answers, Decidable (k.discard d clock answers)] (word : Nat) :
    (discards : List (Option Int × List (Action D))) → (d : Descriptor F D) →
      Decidable (k.Discards word discards d)
  | [], _ => isTrue trivial
  | (clock, answers) :: rest, d =>
    have (d : Descriptor F D) : Decidable (k.Discards word rest d) := decidableDiscards k word rest d
    inferInstanceAs (Decidable (k.discard d clock answers ∧
      ∀ got ∈ readFd word d clock answers, k.Discards word rest got.2))

instance (k : Conditions F D) [∀ d call, Decidable (k.read d call)]
    [∀ d clock answers, Decidable (k.discard d clock answers)] (setup : Setup) (s : Loop F D) :
    (op : LoopOp D) → Decidable (k.Permits setup s op)
  | .top e => inferInstanceAs (Decidable (k.read s.console.input.decoder (frameCall setup e)))
  | .dark e => inferInstanceAs
      (Decidable (setup.hasTouch = true → k.Discards setup.word e.discards s.console.input.decoder))
  | .rest _ => isTrue trivial
  | .accel _ => isTrue trivial

/-- Properties of the picture's orientation, the overlay, and the input with its runtime, that the
calls of the loop keep: one for the tablet awake, and one for its sleep. -/
structure Invariant (setup : Setup) (k : Conditions F D)
    (awake dark : Bool → OverlayState F → Console F D → Prop) : Prop where
  key : ∀ f o c, awake f o c → awake f o (requestSleep c)
  read : ∀ f o c call c', awake f o c → k.read c.input.decoder call →
    controlInputRead setup.word c call = some (true, c') → awake f o c'
  tick : ∀ f o c now e, awake f o c → awake f o (showPanel (withRuntime c (.tick now false e)))
  sleep : ∀ f o c now save, awake f o c → dark f o (controlInputReset (withRuntime c (.sleep now save)) f)
  discard : ∀ f o c clock answers got d, dark f o c → k.discard c.input.decoder clock answers →
    readFd setup.word c.input.decoder clock answers = some (got, d) → dark f o (withDecoder c d)
  darkTick : ∀ f o c now e, dark f o c → dark f o (withRuntime c (.tick now true e))
  wake : ∀ f o c now, dark f o c → awake f o (withRuntime (controlInputReset c f) (.touchIdle now))
  turn : ∀ f o c f', awake f o c → awake f' o (controlInputReset c f')
  draw : ∀ f o c now defer drawn, awake f o c →
    controlOverlayDraw D setup.fonts setup.screen o c.world.runtime.panel f now defer = drawn →
    awake f drawn.1 { c with world := c.world.withPanel drawn.2.1 }
  light : ∀ f o c now ok, awake f o c → awake f o (withRuntime c (.wake now ok))

/-- The properties where the loop is. -/
def Loop.Satisfies (awake dark : Bool → OverlayState F → Console F D → Prop) (s : Loop F D) : Prop :=
  match s.place with
  | .exited => True
  | .dark => dark s.orientation.flipped s.overlay s.console
  | _ => awake s.orientation.flipped s.overlay s.console

omit [CFloat F] [CFloat D] [CDouble F D] in
theorem Loop.Satisfies.awake {awake dark : Bool → OverlayState F → Console F D → Prop} {s : Loop F D}
    (h : s.Satisfies awake dark) (hplace : s.place = .top ∨ s.place = .rest) :
    awake s.orientation.flipped s.overlay s.console := by
  unfold Loop.Satisfies at h
  rcases hplace with hplace | hplace
  · rw [hplace] at h
    exact h
  · rw [hplace] at h
    exact h

variable {setup : Setup} {k : Conditions F D} {awake dark : Bool → OverlayState F → Console F D → Prop}
  {s t : Loop F D}

theorem Invariant.afterRead (h : Invariant setup k awake dark)
    (hs : awake s.orientation.flipped s.overlay s.console) (e : TopEnv D) :
    (afterRead s e).Satisfies awake dark := by
  have hticked := h.tick _ _ _ s.nowMs e.tick hs
  unfold App.afterRead
  dsimp only
  split
  · unfold fallAsleep
    dsimp only
    split
    · exact h.sleep _ _ _ s.nowMs e.sleep.save hticked
    · exact trivial
  · exact hticked

theorem Invariant.topStep (h : Invariant setup k awake dark) {e : TopEnv D}
    (hs : awake s.orientation.flipped s.overlay s.console) (hpermits : k.Permits setup s (.top e))
    (hstep : topStep setup s e = some t) : t.Satisfies awake dark := by
  obtain ⟨read, _, hread⟩ := Option.bind_eq_some_iff.mp hstep
  obtain ⟨⟨ok, c⟩, hcall, rfl⟩ := Option.map_eq_some_iff.mp hread
  have hkey : awake s.orientation.flipped s.overlay (afterKey s e read).console := by
    unfold afterKey
    dsimp only
    split
    · exact h.key _ _ _ hs
    · exact hs
  have hdecoder : (afterKey s e read).console.input.decoder = s.console.input.decoder := by
    unfold afterKey
    dsimp only
    split <;> rfl
  dsimp only
  split
  · rename_i hok
    rw [hok] at hcall
    have hcond : k.read (afterKey s e read).console.input.decoder (frameCall setup e) := by
      rw [hdecoder]
      exact hpermits
    exact h.afterRead (s := { afterKey s e read with console := c }) (h.read _ _ _ _ _ hkey hcond hcall) e
  · exact trivial

theorem Invariant.discardAll (h : Invariant setup k awake dark) {f : Bool} {o : OverlayState F}
    {discards : List (Option Int × List (Action D))} {c : Console F D} {ok : Bool} {d : Descriptor F D}
    (hc : dark f o c) (hpermits : k.Discards setup.word discards c.input.decoder)
    (hall : discardAll setup.word discards c.input.decoder = some (ok, d)) : dark f o (withDecoder c d) := by
  induction discards generalizing c with
  | nil => exact nomatch hall
  | cons first rest ih =>
    obtain ⟨clock, answers⟩ := first
    obtain ⟨hfirst, hrest⟩ := hpermits
    unfold App.discardAll at hall
    split at hall
    · cases hall
    · rename_i hread
      split at hall
      · cases hall
        exact h.discard _ _ _ _ _ _ _ hc hfirst hread
      · cases hall
    · rename_i events d' hread
      have hnext := h.discard _ _ _ _ _ _ _ hc hfirst hread
      split at hall
      · exact ih (c := withDecoder c d') hnext (hrest _ hread) hall
      · split at hall
        · cases hall
          exact hnext
        · cases hall

theorem Invariant.wakeUp (h : Invariant setup k awake dark)
    (hs : dark s.orientation.flipped s.overlay s.console) : (wakeUp s).Satisfies awake dark :=
  h.wake _ _ _ s.nowMs hs

omit [CFloat F] [CFloat D] [CDouble F D] in
theorem senseMotion_keeps (setup : Setup) (s : Loop F D) :
    (senseMotion setup s).2.console = s.console ∧ (senseMotion setup s).2.overlay = s.overlay ∧
      (senseMotion setup s).2.orientation = s.orientation ∧ (senseMotion setup s).2.place = s.place := by
  unfold senseMotion
  split
  · exact ⟨rfl, rfl, rfl, rfl⟩
  · split <;> exact ⟨rfl, rfl, rfl, rfl⟩

theorem Invariant.afterPoll (h : Invariant setup k awake dark) (hplace : s.place = .dark)
    (hs : dark s.orientation.flipped s.overlay s.console) (e : DarkEnv D) (pressed : Bool) :
    (afterPoll setup s e pressed).Satisfies awake dark := by
  have hticked := h.darkTick _ _ _ e.clock.ms e.tick hs
  obtain ⟨hconsole, hoverlay, horientation, hstays⟩ := senseMotion_keeps setup
    { s with nowMs := e.clock.ms, console := withRuntime s.console (.tick e.clock.ms true e.tick) }
  unfold App.afterPoll
  dsimp only
  generalize senseMotion setup _ = sensed at *
  have hsensed : dark sensed.2.orientation.flipped sensed.2.overlay sensed.2.console := by
    rw [horientation, hoverlay, hconsole]
    exact hticked
  split
  · exact h.wakeUp hsensed
  · unfold Loop.Satisfies
    rw [hstays, hplace]
    exact hsensed

theorem Invariant.darkStep (h : Invariant setup k awake dark) {e : DarkEnv D} (hplace : s.place = .dark)
    (hs : dark s.orientation.flipped s.overlay s.console) (hpermits : k.Permits setup s (.dark e))
    (hstep : darkStep setup s e = some t) : t.Satisfies awake dark := by
  unfold App.darkStep at hstep
  split at hstep
  · cases hstep
    exact h.wakeUp hs
  · obtain ⟨read, _, hread⟩ := Option.bind_eq_some_iff.mp hstep
    obtain ⟨⟨ok, d⟩, hdiscarded, rfl⟩ := Option.map_eq_some_iff.mp hread
    have hd : dark s.orientation.flipped s.overlay (withDecoder s.console d) := by
      unfold discarded at hdiscarded
      split at hdiscarded
      · rename_i htouch
        exact h.discardAll hs (hpermits htouch) hdiscarded
      · split at hdiscarded
        · cases hdiscarded
          exact hs
        · cases hdiscarded
    dsimp only
    split
    · exact h.afterPoll (s := { s with key := read.2, console := withDecoder s.console d }) hplace hd e read.1
    · exact h.wakeUp (s := { s with key := read.2, console := withDecoder s.console d }) hd

theorem Invariant.orient (h : Invariant setup k awake dark)
    (hs : awake s.orientation.flipped s.overlay s.console) :
    awake (orient setup s).orientation.flipped (orient setup s).overlay (orient setup s).console := by
  have hlook (o : Orientation) (m : AccelMonitor) (hsame : ¬ (look o m).1 = true) :
      (look o m).2.flipped = o.flipped := by
    unfold look at hsame ⊢
    split
    · rfl
    · rename_i sequence sample hsnapshot
      rw [hsnapshot] at hsame
      dsimp only at hsame ⊢
      split
      · rfl
      · rename_i hnew
        rw [if_neg hnew] at hsame
        unfold vote at hsame ⊢
        dsimp only at hsame ⊢
        split
        · rfl
        · rename_i hdiffers
          rw [if_neg hdiffers] at hsame
          split
          · rename_i henough
            rw [if_pos henough] at hsame
            exact absurd rfl hsame
          · rfl
  unfold App.orient
  split
  · dsimp only
    split
    · exact h.turn _ _ _ _ hs
    · rename_i hsame
      rw [hlook _ _ hsame]
      exact hs
  · exact hs

theorem Invariant.present (h : Invariant setup k awake dark) [CMath F] {buffer : Nat} {e : RestEnv}
    (hs : awake s.orientation.flipped s.overlay s.console) (hpresent : present s buffer e = some t) :
    awake t.orientation.flipped t.overlay t.console := by
  unfold App.present at hpresent
  split at hpresent
  · split at hpresent
    · dsimp only at hpresent
      split at hpresent
      · cases hpresent
        exact h.light _ _ _ s.nowMs e.set hs
      · cases hpresent
        exact hs
    · cases hpresent
  · cases hpresent
    exact hs

variable [CMath F] [CAngle F]

theorem Invariant.restStep (h : Invariant setup k awake dark)
    (hs : awake s.orientation.flipped s.overlay s.console) (e : RestEnv) :
    (restStep setup s e).Satisfies awake dark := by
  have hgestures (u : Loop F D) : (gestures setup u).console = u.console ∧
      (gestures setup u).overlay = u.overlay ∧ (gestures setup u).orientation = u.orientation := by
    unfold gestures
    split <;> exact ⟨rfl, rfl, rfl⟩
  obtain ⟨hconsole, hoverlay, horientation⟩ := hgestures (App.orient setup s)
  have horiented := h.orient hs
  rw [← hconsole, ← hoverlay, ← horientation] at horiented
  have hdrawn : awake (drawOverlay setup (gestures setup (App.orient setup s))).orientation.flipped
      (drawOverlay setup (gestures setup (App.orient setup s))).overlay
      (drawOverlay setup (gestures setup (App.orient setup s))).console :=
    h.draw _ _ _ _ _ _ horiented rfl
  unfold App.restStep
  dsimp only
  generalize drawOverlay setup (gestures setup (App.orient setup s)) = u at *
  split
  · exact trivial
  · split
    · exact trivial
    · split
      · exact trivial
      · rename_i fbs _ _ v hpresent
        have hpresented := h.present (s := { u with fbs }) hdrawn hpresent
        exact hpresented

theorem Invariant.next (h : Invariant setup k awake dark) {op : LoopOp D} (hs : s.Satisfies awake dark)
    (hpermits : k.Permits setup s op) (hnext : s.next setup op = some t) : t.Satisfies awake dark := by
  cases op with
  | top e =>
    obtain ⟨hplace, hstep⟩ := Option.ite_none_right_eq_some.mp hnext
    exact h.topStep (hs.awake (.inl hplace)) hpermits hstep
  | dark e =>
    obtain ⟨hplace, hstep⟩ := Option.ite_none_right_eq_some.mp hnext
    unfold Loop.Satisfies at hs
    rw [hplace] at hs
    exact h.darkStep hplace hs hpermits hstep
  | rest e =>
    obtain ⟨hplace, hstep⟩ := Option.ite_none_right_eq_some.mp hnext
    cases hstep
    exact h.restStep (hs.awake (.inr hplace)) e
  | accel sample =>
    obtain ⟨_, hstep⟩ := Option.ite_none_right_eq_some.mp hnext
    cases hstep
    exact hs

/-- What the calls keep holds in every run. -/
theorem Invariant.run (h : Invariant setup k awake dark) {labels : List (LoopOp D)} (hs : s.Satisfies awake dark)
    (hrun : Run (Guarded (Enabled (Loop.next setup)) (k.Permits setup)) s labels t) : t.Satisfies awake dark :=
  hrun.invariant (Loop.Satisfies awake dark) hs fun _ _ _ hu hstep => h.next hu hstep.1 hstep.2

omit [CMath F] [CAngle F] in
theorem anyReads_discards (word : Nat) (discards : List (Option Int × List (Action D))) (d : Descriptor F D) :
    anyReads.Discards word discards d := by
  induction discards generalizing d with
  | nil => trivial
  | cons first rest ih => exact ⟨trivial, fun _ _ => ih _⟩

theorem Invariant.run_always (h : Invariant setup anyReads awake dark) {labels : List (LoopOp D)}
    (hs : s.Satisfies awake dark) (hrun : Run (Enabled (Loop.next setup)) s labels t) :
    t.Satisfies awake dark := by
  refine hrun.invariant (Loop.Satisfies awake dark) hs fun u op v hu hnext => h.next hu ?_ hnext
  cases op with
  | top e => trivial
  | dark e => exact fun _ => anyReads_discards _ _ _
  | rest e => trivial
  | accel sample => trivial

end Rule

end Taq102.App
