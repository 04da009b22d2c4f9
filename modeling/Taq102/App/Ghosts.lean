import Taq102.App.Display
import Taq102.App.Fingers
import Taq102.App.Frames

/-! No ghost fingers: over sleep and waking, turns of the picture, losses of the kernel and the reads
that are thrown away in the dark, whatever the application holds is a contact of its decoder. -/
namespace Taq102.App
open Taq102.Lib CFloat Transition
open Touch Touch.Evdev Touch.Reading Touch.Epoch Taq102.Runtime Panel

section Requests
variable {F : Type} [CFloat F]

/-- A tick does not take back a request to sleep. -/
theorem tick_stands {w : World F} (h : w.runtime.sleepRequested = true) (now : Int) (asleep : Bool) (e : TickEnv) :
    (controlRuntimeTick w now asleep e).runtime.sleepRequested = true := by
  have hpoll (w : World F) (others : List Other) :
      (pollWorker w others).runtime.sleepRequested = w.runtime.sleepRequested := by
    unfold pollWorker
    dsimp only
    split <;> rfl
  have hstatus (w : World F) : (statusTick w now e).runtime.sleepRequested = w.runtime.sleepRequested := by
    unfold statusTick
    split <;> rfl
  have happly (w : World F) (level : Int) (ok : Bool) :
      (apply w level ok).runtime.sleepRequested = w.runtime.sleepRequested := by
    unfold apply
    dsimp only
    split <;> rfl
  have hdecide (w : World F) (time : Int) :
      (decideAt w time e.set).runtime.sleepRequested = w.runtime.sleepRequested := by
    unfold decideAt
    dsimp only
    split
    · exact happly _ _ _
    · rfl
  have hpolicy (w : World F) :
      (policyTick w now asleep e).runtime.sleepRequested = w.runtime.sleepRequested := by
    unfold policyTick policyDue
    split
    · dsimp only
      split
      · exact hdecide _ _
      · rfl
    · rfl
  have hsave (w : World F) : (saveTick w now e).runtime.sleepRequested = w.runtime.sleepRequested := by
    unfold saveTick
    split <;> rfl
  have hsleep {w : World F} (hw : w.runtime.sleepRequested = true) :
      (sleepTick w now asleep).runtime.sleepRequested = true := by
    unfold sleepTick
    dsimp only
    split
    · rfl
    · exact hw
  refine hsleep ?_
  change (saveTick _ now e).runtime.sleepRequested = true
  rw [hsave, hpolicy, hstatus, hpoll]
  exact h

end Requests

variable {F D : Type} [CFloat F] [CFloat D] [CDouble F D]

/-- Every record has a time that the application takes, and awake none reports a loss while the
cancellations of an earlier one wait. -/
def timely (word : Nat) : Conditions F D where
  read d call := call.Orderly word d
  discard d clock answers := Along word OnTime d (.call true portion clock :: answers)

instance (word : Nat) (d : Descriptor F D) (call : ReadCall D) : Decidable ((timely word).read d call) :=
  inferInstanceAs (Decidable (call.Orderly word d))

instance (word : Nat) (d : Descriptor F D) (clock : Option Int) (answers : List (Action D)) :
    Decidable ((timely word).discard d clock answers) :=
  inferInstanceAs (Decidable (Along word OnTime d (.call true portion clock :: answers)))

/-- The input of a tablet that is awake. -/
structure Attentive (c : Console F D) : Prop where
  aligned : Aligned c
  emptied : c.world.runtime.sleepRequested = false → c.input.decoder.reader.input.ready = []

/-- The input of a tablet that sleeps. -/
structure Drowsing (c : Console F D) : Prop where
  sound : Sound Usable c.input.decoder.reader
  working : c.input.failed = false

omit [CDouble F D] in
theorem Attentive.withWorld {c : Console F D} (h : Attentive c) {w : World F}
    (hstands : c.world.runtime.sleepRequested = true → w.runtime.sleepRequested = true) :
    Attentive { c with world := w } := by
  refine ⟨h.aligned.withWorld hstands, fun hawake => h.emptied ?_⟩
  cases hbefore : c.world.runtime.sleepRequested with
  | false => rfl
  | true => exact nomatch hawake.symm.trans (hstands hbefore)

/-- A reset wakes the input up. -/
theorem reset_attentive {c : Console F D} (hsound : Sound Usable c.input.decoder.reader)
    (hworks : c.input.failed = false) (flipped : Bool) : Attentive (controlInputReset c flipped) :=
  ⟨reset_aligned hsound hworks flipped, fun _ => (reset_decoder c flipped).2.1⟩

theorem attentive_invariant (setup : Setup) : Invariant (F := F) (D := D) setup (timely setup.word)
    (fun _ _ => Attentive) (fun _ _ => Drowsing) where
  key _ _ _ h := h.withWorld fun _ => rfl
  read _ _ c call c' h hcall hread := by
    refine ⟨read_aligned h.aligned hcall hread, fun hawake => ?_⟩
    have hthrough := controlInputRead_through h.aligned.settled hread
    refine hthrough.emptied.resolve_left ?_
    rw [hawake]
    exact Bool.false_ne_true
  tick _ _ c now e h := by
    have hticked : Attentive (withRuntime c (.tick now false e)) :=
      h.withWorld fun hasleep => tick_stands hasleep now false e
    exact ⟨hticked.aligned.showPanel _, hticked.emptied⟩
  sleep f _ c now save h :=
    ⟨reset_sound (c := withRuntime c (.sleep now save)) h.aligned.sound f, h.aligned.settled.working⟩
  discard _ _ c clock answers got d h hall hread := by
    obtain ⟨⟨entered, hcall, hrest⟩, _⟩ := readFd_progress hread
    have hrun : (Action.call true portion clock :: answers).foldlM (Descriptor.next setup.word)
        c.input.decoder = some d := by
      rw [List.foldlM_cons, hcall]
      exact hrest
    exact ⟨along_sound h.sound hall hrun, h.working⟩
  darkTick _ _ _ _ _ h := ⟨h.sound, h.working⟩
  wake f _ c now h := (reset_attentive h.sound h.working f).withWorld fun hasleep => hasleep
  turn _ _ c f' h := reset_attentive h.aligned.sound h.aligned.settled.working f'
  draw _ _ _ _ _ _ h _ := h.withWorld fun hasleep => hasleep
  light _ _ c now ok h := by
    refine h.withWorld fun hasleep => ?_
    change (controlRuntimeWake c.world now ok).runtime.sleepRequested = true
    unfold controlRuntimeWake apply
    dsimp only
    split <;> exact hasleep

omit [CDouble F D] in
theorem init_attentive {flip : TouchFlip F} {stream : List UInt8} {input : ControlInput F D}
    (hinit : controlInputInit flip stream = some input) (w : World F) :
    Attentive ({ input, world := w } : Console F D) := by
  have hsettled := init_settled hinit w
  obtain ⟨r, hnew, rfl⟩ := Option.map_eq_some_iff.mp hinit
  obtain ⟨hnone, hinactive, _⟩ := touchRouterNew_eq hnew
  have hcube : r.cube = fun _ => { active := false, x := lit 0, y := lit 0 } := by
    rw [touchRouterNew] at hnew
    split at hnew
    · cases hnew
    · cases hnew
      rfl
  have hclear : Clear (touchInputNew flip : TouchInput F D) := ⟨rfl, rfl, fun _ => ⟨rfl, rfl⟩⟩
  have hsound : Sound Usable (Reader.start flip : Reader F D) := by
    refine ⟨hclear.quiet, ⟨fun e he => ?_, fun e he => ?_⟩, fun hneeded => ?_, fun stage resume hpc => ?_⟩
    · cases he
    · cases he
    · cases hneeded
    · cases hpc
  refine ⟨Fresh.aligned ?_ hsettled hsound, fun _ => rfl⟩
  exact ⟨hclear, rfl, hnone, hinactive, hcube.symm⟩

variable [CMath F] [CAngle F]

/-- In every run, a finger that the cube shows or the panel follows is a contact that the decoder has
reported and not ended, unless sleep is already asked for. -/
theorem no_ghost_finger {setup : Setup} {e : InitEnv} {flip : TouchFlip F} {stream : List UInt8}
    {tex : Overlay.Texture} {now : Int} {s t : Loop F D} {labels : List (LoopOp D)}
    (hinit : Loop.init setup e flip stream tex now = some s)
    (hrun : Run (Guarded (Enabled (Loop.next setup)) ((timely setup.word).Permits setup)) s labels t)
    (hplace : t.place = .top ∨ t.place = .rest) (hawake : t.console.world.runtime.sleepRequested = false)
    {i : Fin touchMaxSlots}
    (hheld : (t.console.input.cube i).active = true ∨ t.console.input.router.owner i ≠ .none) :
    Reported t.console.input.decoder.reader.input i := by
  obtain ⟨w, _, hstarts⟩ := Option.bind_eq_some_iff.mp hinit
  obtain ⟨input, hinput, rfl⟩ := Option.map_eq_some_iff.mp hstarts
  have hrun := (attentive_invariant setup).run (s := Loop.start setup { input, world := w } tex now)
    (init_attentive hinput w) hrun
  have hattentive := hrun.awake hplace
  have hempty := hattentive.emptied hawake
  rcases hheld with hactive | howner
  · exact hattentive.aligned.finger hawake hempty hactive
  · exact hattentive.aligned.reported hawake hempty howner

/-! A nap: a finger is on the cube when the key is pressed, it is lifted in the dark, and another one
lands when the tablet is awake again. -/
section Nap
attribute [local instance] roughMath roughAngle

/-- The finger of the first slot is lifted. -/
def lifting : List UInt8 :=
  [2, 0, 0, 0, 0, 0, 0, 0, 3, 0, 57, 0, 255, 255, 255, 255] ++ recordBytes 2 evSyn synReport 0

/-- The kernel's answers to a call that reads so many records. -/
def reading (records : Nat) : List (Action ℚ) := List.replicate records (.read 16) ++ [.readFails eagain]

def nap : List (LoopOp ℚ) :=
  [nightTop 1 [] (reading 4), nightRest 1 1, nightTop 2 keyPress (reading 0), nightDark 3 [] [(none, reading 2)],
    nightDark 4 keyPress [(none, reading 0)], nightRest 2 4, nightTop 5 [] (reading 4)]

theorem nap_finger : ∃ s t : Loop ℚ ℚ, nightStart (nightSetup true) (landing 1 ++ lifting ++ landing 5) = some s ∧
    Reported t.console.input.decoder.reader.input 0 := by
  have hnap : ((nightStart (nightSetup true) (landing 1 ++ lifting ++ landing 5)).bind fun s =>
      (nap.foldlM (fun s op =>
        if (timely 4).Permits (nightSetup true) s op then s.next (nightSetup true) op else none) s).map
        fun t => (t.place, t.console.world.runtime.sleepRequested, (t.console.input.cube 0).active)) =
      some (.rest, false, true) := by
    decide +kernel
  obtain ⟨s, hstart, hruns⟩ := Option.bind_eq_some_iff.mp hnap
  obtain ⟨t, ht, hends⟩ := Option.map_eq_some_iff.mp hruns
  simp only [Prod.mk.injEq] at hends
  obtain ⟨hplace, hawake, hactive⟩ := hends
  exact ⟨s, t, hstart,
    no_ghost_finger hstart (run_guarded_foldlM _ _ ht) (.inr hplace) hawake (.inl hactive)⟩

end Nap

end Taq102.App
