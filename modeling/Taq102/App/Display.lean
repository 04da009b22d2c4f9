import Taq102.App.Dispatch
import Taq102.App.Loop
import Taq102.Lib.Transition

/-! What the loop asks of the display, in its order: nothing is shown and no level is set while the
tablet sleeps, and a buffer on the screen is not given back. The loop is first reduced to its own
control: where it is, and what the display was asked for. -/
namespace Taq102.App
open Taq102.Lib CFloat Transition
open Touch Touch.Evdev Touch.Reading Taq102.Runtime Panel

/-- What of the loop decides what it asks of the display. -/
structure LoopControl where
  place : Place
  first : Bool
  waking : Bool
  prevBo : Option Nat
  effects : List Effect
  deriving DecidableEq, Repr

/-- The ways the loop goes on. -/
inductive Move where
  | input
  | sleeps
  | stays
  | wakes
  | shows (buffer : Nat) (flip : FlipAnswer)
  | exits
  /-- The display could not be switched off. -/
  | staysLit
  deriving DecidableEq, Repr

/-- A buffer goes on the screen: by a modeset when it is the first, by a flip after it. -/
def showing (c : LoopControl) (buffer : Nat) (flip : FlipAnswer) : List Effect :=
  if c.first then .modeset buffer :: if c.waking then [.power true] else [] else [.flip buffer flip]

def LoopControl.next (c : LoopControl) : Move → Option LoopControl
  | .input => if c.place = .top then some { c with place := .rest } else none
  | .sleeps =>
    if c.place = .top ∧ c.first = false then
      some { c with place := .dark, effects := c.effects ++ [.power false, .blank] }
    else none
  | .stays => some c
  | .wakes =>
    if c.place = .dark then some { c with place := .rest, first := true, waking := true } else none
  | .shows buffer flip =>
    if c.place = .rest then
      some
        { place := .top
          first := false
          waking := if c.first then false else c.waking
          prevBo := some buffer
          effects := c.effects ++ showing c buffer flip ++ (c.prevBo.map Effect.release).toList }
    else none
  | .exits => if c.place = .top ∨ c.place = .rest then some { c with place := .exited } else none
  | .staysLit =>
    if c.place = .top ∧ c.first = false then
      some { c with place := .exited, effects := c.effects ++ [.power false, .power true] }
    else none

def LoopControl.start : LoopControl :=
  { place := .top, first := true, waking := false, prevBo := none, effects := [] }

section Refines
variable {F D : Type}

def control (s : Loop F D) : LoopControl where
  place := s.place
  first := s.first
  waking := s.waking
  prevBo := s.prevBo
  effects := s.effects

/-- A buffer is shown by the part of a frame that was given it. -/
def Move.Of : Move → LoopOp D → Prop
  | .shows buffer flip, op => ∃ e, op = .rest e ∧ e.buffer = some buffer ∧ e.flip = flip
  | _, _ => True

theorem senseMotion_control (setup : Setup) (s : Loop F D) :
    control (senseMotion setup s).2 = control s := by
  unfold senseMotion
  split
  · rfl
  · split <;> rfl

variable [CFloat F] [CFloat D] [CDouble F D] {setup : Setup} {s t : Loop F D}

theorem afterRead_refines (hplace : s.place = .top) (e : TopEnv D) :
    ∃ move, (control s).next move = some (control (afterRead s e)) ∧ Move.Of move (.top e) := by
  unfold afterRead
  dsimp only
  split
  · rename_i hasleep
    have hlit : s.first = false := by
      rw [Bool.and_eq_true] at hasleep
      simpa using hasleep.2
    unfold fallAsleep
    dsimp only
    split
    · exact ⟨.sleeps, if_pos ⟨hplace, hlit⟩, trivial⟩
    · exact ⟨.staysLit, if_pos ⟨hplace, hlit⟩, trivial⟩
  · exact ⟨.input, if_pos hplace, trivial⟩

theorem topStep_refines {e : TopEnv D} (hplace : s.place = .top) (h : topStep setup s e = some t) :
    ∃ move, (control s).next move = some (control t) ∧ Move.Of move (.top e) := by
  obtain ⟨read, _, hread⟩ := Option.bind_eq_some_iff.mp h
  obtain ⟨⟨ok, c⟩, _, rfl⟩ := Option.map_eq_some_iff.mp hread
  dsimp only
  split
  · exact afterRead_refines (s := { afterKey s e read with console := c }) hplace e
  · exact ⟨.exits, if_pos (.inl hplace), trivial⟩

theorem darkStep_refines {e : DarkEnv D} (hplace : s.place = .dark) (h : darkStep setup s e = some t) :
    ∃ move, (control s).next move = some (control t) ∧ Move.Of move (.dark e) := by
  have hwakes {u : Loop F D} (hu : control u = control s) :
      ∃ move, (control s).next move = some (control (wakeUp u)) ∧ Move.Of move (.dark e) := by
    rw [← hu]
    refine ⟨.wakes, if_pos ?_, trivial⟩
    rw [hu]
    exact hplace
  unfold darkStep at h
  split at h
  · cases h
    exact hwakes rfl
  · obtain ⟨read, _, hread⟩ := Option.bind_eq_some_iff.mp h
    obtain ⟨⟨ok, d⟩, _, rfl⟩ := Option.map_eq_some_iff.mp hread
    dsimp only
    split
    · unfold afterPoll
      dsimp only
      split
      · exact hwakes (senseMotion_control _ _)
      · refine ⟨.stays, ?_, trivial⟩
        rw [senseMotion_control]
        rfl
    · exact hwakes rfl

theorem orient_control (setup : Setup) (s : Loop F D) : control (orient setup s) = control s := by
  unfold orient
  split
  · dsimp only
    split <;> rfl
  · rfl

theorem present_control {buffer : Nat} {e : RestEnv} (h : present s buffer e = some t) :
    control t = { control s with
      first := false
      waking := if (control s).first then false else (control s).waking
      effects := (control s).effects ++ showing (control s) buffer e.flip } := by
  have hshowing : showing (control s) buffer e.flip =
      if s.first then Effect.modeset buffer :: if s.waking then [Effect.power true] else []
      else [Effect.flip buffer e.flip] := rfl
  have hstarts : (control s).first = s.first := rfl
  unfold present at h
  rw [hshowing, hstarts]
  cases hfirst : s.first with
  | false =>
    rw [hfirst, if_neg Bool.false_ne_true] at h
    cases h
    rw [if_neg Bool.false_ne_true, if_neg Bool.false_ne_true]
    unfold control
    rw [hfirst]
  | true =>
    rw [hfirst, if_pos rfl] at h
    split at h
    · dsimp only at h
      cases hwaking : s.waking with
      | true =>
        rw [hwaking, if_pos rfl] at h
        cases h
        rw [if_pos rfl, if_pos rfl, if_pos rfl]
        unfold control
        rw [List.append_assoc]
        rfl
      | false =>
        rw [hwaking, if_neg Bool.false_ne_true] at h
        cases h
        rw [if_pos rfl, if_pos rfl, if_neg Bool.false_ne_true]
        unfold control
        rw [hwaking]
    · cases h

variable [CMath F] [CAngle F]

theorem scene_control (setup : Setup) (s : Loop F D) :
    control (drawOverlay setup (gestures setup (orient setup s))) = control s := by
  have hgestures (u : Loop F D) : control (gestures setup u) = control u := by
    unfold gestures
    split <;> rfl
  exact (hgestures _).trans (orient_control setup s)

theorem restStep_refines {e : RestEnv} (hplace : s.place = .rest) :
    ∃ move, (control s).next move = some (control (restStep setup s e)) ∧
      Move.Of move (LoopOp.rest e : LoopOp D) := by
  have hscene := scene_control setup s
  have hexits : (control s).next .exits = some { control s with place := .exited } := if_pos (.inr hplace)
  unfold restStep
  dsimp only
  generalize drawOverlay setup (gestures setup (orient setup s)) = u at *
  split
  · refine ⟨.exits, ?_, trivial⟩
    rw [hexits, ← hscene]
    rfl
  · rename_i buffer hbuffer
    split
    · refine ⟨.exits, ?_, trivial⟩
      rw [hexits, ← hscene]
      rfl
    · rename_i fbs _
      split
      · refine ⟨.exits, ?_, trivial⟩
        rw [hexits, ← hscene]
        rfl
      · rename_i v hpresent
        refine ⟨.shows buffer e.flip, ?_, e, rfl, hbuffer, rfl⟩
        have hcontrol := present_control hpresent
        have hsame : control { u with fbs } = control s := hscene
        have hends : control (endFrame v buffer e.clock) =
            { control v with
              prevBo := some buffer
              effects := (control v).effects ++ ((control v).prevBo.map Effect.release).toList
              place := .top } := rfl
        rw [hends, hcontrol, hsame]
        exact if_pos hplace

theorem next_refines {op : LoopOp D} (h : s.next setup op = some t) :
    ∃ move, (control s).next move = some (control t) ∧ Move.Of move op := by
  cases op with
  | top e =>
    have hplace : s.place = .top := by
      by_contra hnot
      exact nomatch (if_neg hnot).symm.trans h
    exact topStep_refines hplace ((if_pos hplace).symm.trans h)
  | dark e =>
    have hplace : s.place = .dark := by
      by_contra hnot
      exact nomatch (if_neg hnot).symm.trans h
    exact darkStep_refines hplace ((if_pos hplace).symm.trans h)
  | rest e =>
    have hplace : s.place = .rest := by
      by_contra hnot
      exact nomatch (if_neg hnot).symm.trans h
    have hstep := (if_pos hplace).symm.trans h
    cases hstep
    exact restStep_refines hplace
  | accel sample =>
    unfold Loop.next at h
    dsimp only at h
    split at h
    · cases h
      exact ⟨.stays, rfl, trivial⟩
    · cases h

end Refines

/-! The order of the effects. -/

/-- The display: before its first picture, on, off with the picture still scanned out, dark, and
scanned out again with its power still off. -/
inductive Display where
  | unset
  | lit
  | blanked
  | dark
  | fresh
  deriving DecidableEq, Repr

/-- What the display may be asked for. -/
def Display.accept : Display → Effect → Option Display
  | .unset, .modeset _ => some .lit
  | .lit, .flip _ _ => some .lit
  | .lit, .release _ => some .lit
  | .lit, .power false => some .blanked
  | .blanked, .blank => some .dark
  | .blanked, .power true => some .lit
  | .dark, .modeset _ => some .fresh
  | .fresh, .power true => some .lit
  | _, _ => none

/-- Where the display is while the loop is there. -/
def LoopControl.display (c : LoopControl) : Display :=
  match c.place with
  | .dark => .dark
  | _ => if c.waking then .dark else if c.first then .unset else .lit

structure Ordered (c : LoopControl) : Prop where
  accepted : ∃ d, c.effects.foldlM Display.accept .unset = some d ∧ (c.place ≠ .exited → d = c.display)
  awake : c.place = .top ∨ c.place = .dark → c.waking = false
  wakes : c.waking = true → c.first = true

/-- Effects that the display takes from where it is. -/
theorem Ordered.more {c : LoopControl} (h : Ordered c) (hplace : c.place ≠ .exited) {more : List Effect}
    {d : Display} (haccepts : more.foldlM Display.accept c.display = some d) :
    (c.effects ++ more).foldlM Display.accept .unset = some d := by
  obtain ⟨before, hbefore, hat⟩ := h.accepted
  rw [List.foldlM_append, hbefore, hat hplace]
  exact haccepts

theorem ordered_start : Ordered LoopControl.start :=
  ⟨⟨.unset, rfl, fun _ => rfl⟩, fun _ => rfl, nofun⟩

theorem ordered_next {c c' : LoopControl} {move : Move} (h : Ordered c) (hnext : c.next move = some c') :
    Ordered c' := by
  obtain ⟨d, hd, hat⟩ := h.accepted
  obtain ⟨place, first, waking, prevBo, effects⟩ := c
  cases move with
  | input =>
    obtain ⟨hplace, hsome⟩ := Option.ite_none_right_eq_some.mp hnext
    cases hplace
    cases hsome
    have hawake : waking = false := h.awake (.inl rfl)
    exact ⟨⟨d, hd, fun _ => hat nofun⟩, fun _ => hawake, h.wakes⟩
  | sleeps =>
    obtain ⟨⟨hplace, hfirst⟩, hsome⟩ := Option.ite_none_right_eq_some.mp hnext
    cases hplace
    cases hfirst
    cases hsome
    have hawake : waking = false := h.awake (.inl rfl)
    cases hawake
    exact ⟨⟨.dark, h.more nofun rfl, fun _ => rfl⟩, fun _ => rfl, nofun⟩
  | stays =>
    cases hnext
    exact h
  | wakes =>
    obtain ⟨hplace, hsome⟩ := Option.ite_none_right_eq_some.mp hnext
    cases hplace
    cases hsome
    exact ⟨⟨d, hd, fun _ => hat nofun⟩, fun hp => hp.elim nofun nofun, fun _ => rfl⟩
  | shows buffer flip =>
    obtain ⟨hplace, hsome⟩ := Option.ite_none_right_eq_some.mp hnext
    cases hplace
    cases hsome
    have hgiven : (prevBo.map Effect.release).toList.foldlM Display.accept .lit = some .lit := by
      cases prevBo <;> rfl
    have hshown : (showing ⟨.rest, first, waking, prevBo, effects⟩ buffer flip).foldlM Display.accept
        (LoopControl.display ⟨.rest, first, waking, prevBo, effects⟩) = some .lit := by
      cases first with
      | true => cases waking <;> rfl
      | false =>
        cases waking with
        | true => exact nomatch h.wakes rfl
        | false => rfl
    have hawake : (if first then false else waking) = false := by
      cases first with
      | true => rfl
      | false =>
        cases waking with
        | true => exact nomatch h.wakes rfl
        | false => rfl
    refine ⟨⟨.lit, ?_, fun _ => ?_⟩, fun _ => hawake, fun hw => nomatch hawake.symm.trans hw⟩
    · rw [List.append_assoc]
      refine h.more nofun ?_
      rw [List.foldlM_append, hshown]
      exact hgiven
    · unfold LoopControl.display
      dsimp only
      rw [hawake]
      rfl
  | exits =>
    obtain ⟨_, hsome⟩ := Option.ite_none_right_eq_some.mp hnext
    cases hsome
    exact ⟨⟨d, hd, fun hne => absurd rfl hne⟩, fun hp => hp.elim nofun nofun, h.wakes⟩
  | staysLit =>
    obtain ⟨⟨hplace, hfirst⟩, hsome⟩ := Option.ite_none_right_eq_some.mp hnext
    cases hplace
    cases hfirst
    cases hsome
    have hawake : waking = false := h.awake (.inl rfl)
    cases hawake
    exact ⟨⟨.lit, h.more nofun rfl, fun hne => absurd rfl hne⟩, fun _ => rfl, nofun⟩

/-! The picture on the screen. -/

/-- What is scanned out after an effect; `none` gives back the buffer that is. A flip that is not done
leaves the picture. -/
def scanStep (shown : Option Nat) : Effect → Option (Option Nat)
  | .modeset buffer => some (some buffer)
  | .flip buffer .done => some (some buffer)
  | .blank => some none
  | .release buffer => if shown = some buffer then none else some shown
  | _ => some shown

/-- What is scanned out while the loop is there. -/
def LoopControl.shown (c : LoopControl) : Option Nat :=
  match c.place with
  | .dark => none
  | _ => if c.waking then none else c.prevBo

/-- The surface hands out a buffer it has back, and flips are done. -/
def Completes (c : LoopControl) : Move → Prop
  | .shows buffer flip => c.prevBo ≠ some buffer ∧ (c.first = false → flip = .done)
  | _ => True

/-- No buffer is given back while it is on the screen, and the last one handed out is. -/
structure Scanned (c : LoopControl) : Prop where
  scanned : ∃ shown, c.effects.foldlM scanStep none = some shown ∧ (c.place ≠ .exited → shown = c.shown)
  ordered : Ordered c

theorem Scanned.more {c : LoopControl} (h : Scanned c) (hplace : c.place ≠ .exited) {more : List Effect}
    {shown : Option Nat} (hscan : more.foldlM scanStep c.shown = some shown) :
    (c.effects ++ more).foldlM scanStep none = some shown := by
  obtain ⟨before, hbefore, hat⟩ := h.scanned
  rw [List.foldlM_append, hbefore, hat hplace]
  exact hscan

theorem scanned_next {c c' : LoopControl} {move : Move} (h : Scanned c) (hcompletes : Completes c move)
    (hnext : c.next move = some c') : Scanned c' := by
  have hordered := ordered_next h.ordered hnext
  obtain ⟨shown, hshown, hat⟩ := h.scanned
  obtain ⟨place, first, waking, prevBo, effects⟩ := c
  cases move with
  | input =>
    obtain ⟨hplace, hsome⟩ := Option.ite_none_right_eq_some.mp hnext
    cases hplace
    cases hsome
    exact ⟨⟨shown, hshown, fun _ => hat nofun⟩, hordered⟩
  | sleeps =>
    obtain ⟨⟨hplace, hfirst⟩, hsome⟩ := Option.ite_none_right_eq_some.mp hnext
    cases hplace
    cases hsome
    exact ⟨⟨none, h.more nofun rfl, fun _ => rfl⟩, hordered⟩
  | stays =>
    cases hnext
    exact h
  | wakes =>
    obtain ⟨hplace, hsome⟩ := Option.ite_none_right_eq_some.mp hnext
    cases hplace
    cases hsome
    exact ⟨⟨shown, hshown, fun _ => hat nofun⟩, hordered⟩
  | shows buffer flip =>
    obtain ⟨hplace, hsome⟩ := Option.ite_none_right_eq_some.mp hnext
    obtain ⟨hfree, hdone⟩ := hcompletes
    cases hplace
    cases hsome
    have hgiven : (prevBo.map Effect.release).toList.foldlM scanStep (some buffer) = some (some buffer) := by
      cases prevBo with
      | none => rfl
      | some prev =>
        have hother : (some buffer : Option Nat) ≠ some prev := fun heq => hfree heq.symm
        exact congrArg (Option.bind · some) (if_neg hother)
    have hputs : (showing ⟨.rest, first, waking, prevBo, effects⟩ buffer flip).foldlM scanStep
        (LoopControl.shown ⟨.rest, first, waking, prevBo, effects⟩) = some (some buffer) := by
      cases first with
      | true => cases waking <;> rfl
      | false =>
        cases hdone rfl
        rfl
    have hawake : (if first then false else waking) = false := hordered.awake (.inl rfl)
    refine ⟨⟨some buffer, ?_, fun _ => ?_⟩, hordered⟩
    · rw [List.append_assoc]
      refine h.more nofun ?_
      rw [List.foldlM_append, hputs]
      exact hgiven
    · unfold LoopControl.shown
      dsimp only
      rw [hawake]
      rfl
  | exits =>
    obtain ⟨_, hsome⟩ := Option.ite_none_right_eq_some.mp hnext
    cases hsome
    exact ⟨⟨shown, hshown, fun hne => absurd rfl hne⟩, hordered⟩
  | staysLit =>
    obtain ⟨⟨hplace, hfirst⟩, hsome⟩ := Option.ite_none_right_eq_some.mp hnext
    cases hplace
    cases hsome
    exact ⟨⟨_, h.more nofun rfl, fun hne => absurd rfl hne⟩, hordered⟩

/-! The loop. -/
section Loop
variable {F D : Type} [CFloat F] [CFloat D] [CDouble F D] [CMath F] {setup : Setup} {s t : Loop F D}

omit [CFloat D] [CDouble F D] [CMath F] in
theorem tick_asleep_sent (w : World F) (now : Int) (e : TickEnv) :
    (controlRuntimeTick w now true e).sent = w.sent := by
  have hpoll (w : World F) (others : List Other) : (pollWorker w others).sent = w.sent := by
    unfold pollWorker
    dsimp only
    split <;> rfl
  have hstatus (w : World F) : (statusTick w now e).sent = w.sent := by
    unfold statusTick
    split <;> rfl
  have hpolicy (w : World F) : policyTick w now true e = w := if_neg fun h => nomatch h.1
  have hsave (w : World F) : (saveTick w now e).sent = w.sent := by
    unfold saveTick
    split <;> rfl
  let w₀ := w.withPanel (ccTick w.runtime.panel now)
  calc (controlRuntimeTick w now true e).sent
      = (saveTick (policyTick (statusTick (pollWorker w₀ e.beforePoll) now e) now true e) now e).sent := rfl
    _ = w.sent := by rw [hsave, hpolicy, hstatus, hpoll]; rfl

omit [CMath F] in
/-- In sleep no level goes to the backlight. -/
theorem darkStep_sent {e : DarkEnv D} (h : darkStep setup s e = some t) :
    t.console.world.sent = s.console.world.sent := by
  have hsense (u : Loop F D) : (senseMotion setup u).2.console = u.console := by
    unfold senseMotion
    split
    · rfl
    · split <;> rfl
  unfold darkStep at h
  split at h
  · cases h
    rfl
  · obtain ⟨read, _, hread⟩ := Option.bind_eq_some_iff.mp h
    obtain ⟨⟨ok, d⟩, _, rfl⟩ := Option.map_eq_some_iff.mp hread
    dsimp only
    split
    · have hticked : (withRuntime (withDecoder s.console d) (.tick e.clock.ms true e.tick)).world.sent =
          s.console.world.sent := tick_asleep_sent s.console.world e.clock.ms e.tick
      unfold afterPoll
      dsimp only
      split
      · refine Eq.trans ?_ hticked
        change (senseMotion setup _).2.console.world.sent = _
        rw [hsense]
      · rw [hsense]
        exact hticked
    · rfl

variable [CAngle F]

/-- The rest of a frame sends a level only when it wakes the display, which then scans out. -/
theorem restStep_sent (setup : Setup) (s : Loop F D) (e : RestEnv) :
    (restStep setup s e).console.world.sent = s.console.world.sent ∨ s.waking = true ∧
      (restStep setup s e).place = .top := by
  have hscene : (drawOverlay setup (gestures setup (orient setup s))).console.world.sent =
      s.console.world.sent := by
    have horient : (orient setup s).console.world.sent = s.console.world.sent := by
      unfold orient
      split
      · dsimp only
        split <;> rfl
      · rfl
    have hgestures (u : Loop F D) : (gestures setup u).console = u.console := by
      unfold gestures
      split <;> rfl
    change (gestures setup (orient setup s)).console.world.sent = _
    rw [hgestures, horient]
  have hcontrol := scene_control setup s
  have hwaking : (drawOverlay setup (gestures setup (orient setup s))).waking = s.waking :=
    congrArg LoopControl.waking hcontrol
  unfold restStep
  dsimp only
  generalize drawOverlay setup (gestures setup (orient setup s)) = u at *
  split
  · exact .inl hscene
  · split
    · exact .inl hscene
    · split
      · exact .inl hscene
      · rename_i v hpresent
        unfold present at hpresent
        split at hpresent
        · split at hpresent
          · dsimp only at hpresent
            split at hpresent
            · rename_i hwakes
              exact .inr ⟨hwaking ▸ hwakes, rfl⟩
            · cases hpresent
              exact .inl hscene
          · cases hpresent
        · cases hpresent
          exact .inl hscene

theorem next_sent {op : LoopOp D} (h : s.next setup op = some t) :
    t.console.world.sent = s.console.world.sent ∨ s.place = .top ∨
      s.place = .rest ∧ s.waking = true ∧ t.place = .top := by
  cases op with
  | top e =>
    by_cases hplace : s.place = .top
    · exact .inr (.inl hplace)
    · exact nomatch (if_neg hplace).symm.trans h
  | dark e =>
    by_cases hplace : s.place = .dark
    · exact .inl (darkStep_sent ((if_pos hplace).symm.trans h))
    · exact nomatch (if_neg hplace).symm.trans h
  | rest e =>
    by_cases hplace : s.place = .rest
    · have hstep := (if_pos hplace).symm.trans h
      cases hstep
      rcases restStep_sent setup s e with hsame | ⟨hwakes, htop⟩
      · exact .inl hsame
      · exact .inr (.inr ⟨hplace, hwakes, htop⟩)
    · exact nomatch (if_neg hplace).symm.trans h
  | accel sample =>
    unfold Loop.next at h
    dsimp only at h
    split at h
    · cases h
      exact .inl rfl
    · cases h

omit [CDouble F D] [CAngle F] in
theorem init_control {e : InitEnv} {flip : TouchFlip F} {stream : List UInt8} {tex : Overlay.Texture} {now : Int}
    (h : Loop.init setup e flip stream tex now = some s) : control s = LoopControl.start := by
  obtain ⟨w, _, hinput⟩ := Option.bind_eq_some_iff.mp h
  obtain ⟨input, _, rfl⟩ := Option.map_eq_some_iff.mp hinput
  rfl

/-- In every run the display is asked for things in its order: a picture first; then flips while it is
on; for sleep its power off and the picture away; and to wake a picture, the level and the power. No
level is set in sleep, nor before the picture of a waking tablet. -/
theorem display_in_order {e : InitEnv} {flip : TouchFlip F} {stream : List UInt8} {tex : Overlay.Texture}
    {now : Int} {labels : List (LoopOp D)} (hinit : Loop.init setup e flip stream tex now = some s)
    (hrun : Run (Enabled (Loop.next setup)) s labels t) :
    (∃ d, t.effects.foldlM Display.accept .unset = some d ∧ (t.place ≠ .exited → d = (control t).display)) ∧
      ∀ op u, t.next setup op = some u →
        u.console.world.sent = t.console.world.sent ∨ t.place = .top ∨
          t.place = .rest ∧ t.waking = true ∧ u.place = .top := by
  have hsimulated : ∃ moves, Run (Enabled LoopControl.next) (control s) moves (control t) :=
    hrun.simulate fun _ _ _ hstep => (next_refines hstep).imp fun _ hmove => hmove.1
  obtain ⟨moves, hmoves⟩ := hsimulated
  rw [init_control hinit] at hmoves
  have hordered := hmoves.invariant Ordered ordered_start fun _ _ _ hc hnext => ordered_next hc hnext
  exact ⟨hordered.accepted, fun _ _ hnext => next_sent hnext⟩

/-- The surface hands out a buffer that it has back, and flips are done. -/
def Presents (s : Loop F D) : LoopOp D → Prop
  | .rest e => (e.buffer.isSome → s.prevBo ≠ e.buffer) ∧ (s.first = false → e.flip = .done)
  | _ => True

instance (s : Loop F D) (op : LoopOp D) : Decidable (Presents s op) := by
  cases op <;>
  · unfold Presents
    infer_instance

/-- As long as flips are done, no buffer is given back while it is on the screen; and awake, the buffer
drawn last is. -/
theorem picture_kept {e : InitEnv} {flip : TouchFlip F} {stream : List UInt8} {tex : Overlay.Texture}
    {now : Int} {labels : List (LoopOp D)} (hinit : Loop.init setup e flip stream tex now = some s)
    (hrun : Run (Guarded (Enabled (Loop.next setup)) Presents) s labels t) :
    ∃ shown, t.effects.foldlM scanStep none = some shown ∧ (t.place ≠ .exited → shown = (control t).shown) := by
  have hfollows (u : Loop F D) (op : LoopOp D) (v : Loop F D)
      (hstep : Guarded (Enabled (Loop.next setup)) Presents u op v) :
      ∃ move, Guarded (Enabled LoopControl.next) Completes (control u) move (control v) := by
    obtain ⟨hpresents, hnext⟩ := hstep
    obtain ⟨move, hmove, hof⟩ := next_refines hnext
    refine ⟨move, ?_, hmove⟩
    cases move with
    | shows buffer flip =>
      obtain ⟨e, rfl, hbuffer, hflip⟩ := hof
      have hgiven : e.buffer.isSome = true := hbuffer ▸ rfl
      exact ⟨fun hprev => hpresents.1 hgiven (hprev.trans hbuffer.symm),
        fun hf => hflip.symm.trans (hpresents.2 hf)⟩
    | input => trivial
    | sleeps => trivial
    | stays => trivial
    | wakes => trivial
    | exits => trivial
    | staysLit => trivial
  obtain ⟨moves, hmoves⟩ := hrun.simulate hfollows
  rw [init_control hinit] at hmoves
  have hscanned := hmoves.invariant Scanned ⟨⟨none, rfl, fun _ => rfl⟩, ordered_start⟩
    fun _ _ _ hc hnext => scanned_next hc hnext.1 hnext.2
  exact hscanned.scanned

end Loop

/-! A night: a picture, the key, the key again and the picture that wakes the display. -/
section Night

/-- The functions of `math.h`, roughly. -/
local instance roughMath : CMath ℚ where
  neg x := -x
  sqrt x := x
  acos x := 1 - x
  sin x := x
  cos _ := 1

local instance roughAngle : CAngle ℚ := ⟨fun _ _ => 0⟩

def nightSetup (hasTouch : Bool) : Setup where
  word := 4
  hasTouch
  hasKey := true
  hasAccel := false
  staticScene := true
  screen := ⟨1024, 600⟩
  fonts := none

/-- The record of a press. -/
def keyPress : List KeyRead := [.bytes [0, 0, 0, 0, 0, 0, 0, 0, 1, 0, 116, 0, 1, 0, 0, 0]]

def nightTop (sec : Int) (key : List KeyRead) (answers : List (Action ℚ)) : LoopOp ℚ :=
  .top
    { clock := ⟨sec, 0⟩
      key
      read := quietCall answers sec
      tick := quietTick noStatus
      sleep := { save := goodSave, crtc := true } }

def nightRest (buffer : Nat) (sec : Int) : LoopOp ℚ :=
  .rest
    { buffer := some buffer
      framebuffer := true
      modeset := true
      set := true
      flip := .done
      clock := ⟨sec, 0⟩ }

def nightDark (sec : Int) (key : List KeyRead) (discards : List (Option Int × List (Action ℚ))) : LoopOp ℚ :=
  .dark
    { poll := .ready
      key
      discards
      clock := ⟨sec, 0⟩
      tick := quietTick noStatus }

def night : List (LoopOp ℚ) :=
  [nightTop 1 [] [], nightRest 1 1, nightTop 2 [] [], nightRest 2 2, nightTop 3 keyPress [],
    nightDark 9 keyPress [], nightRest 1 9]

/-- The application at its start, with what the touch screen will write. -/
def nightStart (setup : Setup) (stream : List UInt8) : Option (Loop ℚ ℚ) :=
  Loop.init setup (startEnv hundredLevels) ContactStream.plainFlip stream
    (fun _ => Overlay.rgba 0) 0

/-- What the display is asked for in the night. -/
def nightEffects : List Effect :=
  [.modeset 1, .flip 2 .done, .release 1, .power false, .blank, .modeset 1, .power true, .release 2]

theorem night_in_order : ∃ s t : Loop ℚ ℚ, nightStart (nightSetup false) [] = some s ∧ t.effects = nightEffects ∧
    (∃ d, t.effects.foldlM Display.accept .unset = some d ∧ (t.place ≠ .exited → d = (control t).display)) ∧
      ∀ op u, t.next (nightSetup false) op = some u →
        u.console.world.sent = t.console.world.sent ∨ t.place = .top ∨
          t.place = .rest ∧ t.waking = true ∧ u.place = .top := by
  have hnight : ((nightStart (nightSetup false) []).bind fun s =>
      (night.foldlM (Loop.next (nightSetup false)) s).map Loop.effects) = some nightEffects := by
    decide +kernel
  obtain ⟨s, hstart, hruns⟩ := Option.bind_eq_some_iff.mp hnight
  obtain ⟨t, ht, heffects⟩ := Option.map_eq_some_iff.mp hruns
  exact ⟨s, t, hstart, heffects, display_in_order hstart (run_foldlM _ ht)⟩

theorem night_picture_kept : ∃ s t : Loop ℚ ℚ, nightStart (nightSetup false) [] = some s ∧
    t.effects = nightEffects ∧
    ∃ shown, t.effects.foldlM scanStep none = some shown ∧ (t.place ≠ .exited → shown = (control t).shown) := by
  have hnight : ((nightStart (nightSetup false) []).bind fun s =>
      (night.foldlM (fun s op => if Presents s op then s.next (nightSetup false) op else none) s).map
        Loop.effects) = some nightEffects := by
    decide +kernel
  obtain ⟨s, hstart, hruns⟩ := Option.bind_eq_some_iff.mp hnight
  obtain ⟨t, ht, heffects⟩ := Option.map_eq_some_iff.mp hruns
  exact ⟨s, t, hstart, heffects, picture_kept hstart (run_guarded_foldlM _ _ ht)⟩

end Night

end Taq102.App
