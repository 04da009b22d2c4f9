import Taq102.App.Gesture
import Taq102.App.Input
import Taq102.App.Orientation
import Taq102.Panel.Draw
import Taq102.Runtime.PowerKey

/-! The main loop of the application (`glcube.c`): a frame after another while the tablet is awake, a
poll after another while it sleeps. What the loop meets outside comes with each of its parts; the
accelerometer's thread takes its steps between them. -/
namespace Taq102.App
open Taq102.Lib CFloat
open Touch Touch.Evdev Touch.Reading Taq102.Runtime Panel

structure Timespec where
  sec : Int
  nsec : Int
  deriving DecidableEq, Repr

/-- `now_ms`. -/
def Timespec.ms (t : Timespec) : Int := t.sec * 1000 + t.nsec.tdiv 1000000

/-- `now_seconds`. -/
def Timespec.seconds {D : Type} [CFloat D] (t : Timespec) : D := ofInt t.sec + ofInt t.nsec / lit 1000000000

/-- What does not change: the machine's word, what could be opened, and the screen. -/
structure Setup where
  word : Nat
  hasTouch : Bool
  hasKey : Bool
  hasAccel : Bool
  staticScene : Bool
  screen : ScreenSize
  fonts : Option CcFonts

/-- What a page flip came to: refused, done, or not done within the time it is waited for. -/
inductive FlipAnswer where
  | refused
  | done
  | late
  deriving DecidableEq, Repr

/-- What the loop asks of the display. -/
inductive Effect where
  /-- `display_power_on` or `display_power_off`. -/
  | power (on : Bool)
  /-- `drmModeSetCrtc` with a buffer. -/
  | modeset (buffer : Nat)
  /-- `drmModeSetCrtc` without one. -/
  | blank
  | flip (buffer : Nat) (answer : FlipAnswer)
  | release (buffer : Nat)
  deriving DecidableEq, Repr

/-- Where the loop is: at a frame's start, at a poll in sleep, after a frame's input, or gone. -/
inductive Place where
  | top
  | dark
  | rest
  | exited
  deriving DecidableEq, Repr

structure Loop (F D : Type) where
  place : Place
  console : Console F D
  key : PowerKey
  hand : Hand F
  orientation : Orientation
  monitor : AccelMonitor
  sleepSequence : Nat
  pickup : Pickup
  overlay : OverlayState F
  first : Bool
  waking : Bool
  frames : Int
  t0 : Timespec
  nowMs : Int
  previousReadAtMs : Int
  /-- The quads of the last frame. -/
  quads : List (Quad F)
  prevBo : Option Nat
  /-- The buffers that have a framebuffer. -/
  fbs : List Nat
  effects : List Effect

/-- What going to sleep meets. -/
structure SleepEnv where
  save : SaveTry
  crtc : Bool

/-- What a frame meets before its gestures. -/
structure TopEnv (D : Type) where
  clock : Timespec
  key : List KeyRead
  read : ReadCall D
  tick : TickEnv
  sleep : SleepEnv

inductive PollAnswer where
  | ready
  | interrupted
  | failed
  deriving DecidableEq, Repr

/-- What a poll in sleep meets. -/
structure DarkEnv (D : Type) where
  poll : PollAnswer
  key : List KeyRead
  discards : List (Option Int × List (Action D))
  clock : Timespec
  tick : TickEnv

/-- What a frame meets from its gestures on. -/
structure RestEnv where
  buffer : Option Nat
  framebuffer : Bool
  modeset : Bool
  set : Bool
  flip : FlipAnswer
  clock : Timespec

/-- The canvas of the panel as it is allocated. -/
def panelSize : Graphics.CanvasSize := ⟨ccPanel.w, ccPanel.h, 0, 0, 0, 0⟩

def emptyPanel : Graphics.Canvas := ⟨panelSize, fun _ => 0⟩

inductive LoopOp (D : Type) where
  | top (e : TopEnv D)
  | dark (e : DarkEnv D)
  | rest (e : RestEnv)
  | accel (sample : Sample)

section Model
variable {F D : Type} [CFloat F] [CFloat D] [CDouble F D] [CMath F]

/-- Entering sleep. -/
def fallAsleep (s : Loop F D) (e : SleepEnv) : Loop F D :=
  let console := controlInputReset (withRuntime s.console (.sleep s.nowMs e.save)) s.orientation.flipped
  let s := { s with console, hand := letGo s.hand }
  if e.crtc then
    { s with
      effects := s.effects ++ [.power false, .blank]
      pickup := pickupStart s.nowMs
      sleepSequence := s.orientation.accelSequence
      place := .dark }
  else { s with effects := s.effects ++ [.power false, .power true], place := .exited }

/-- What a frame does with its input, which has been read. -/
def afterRead (s : Loop F D) (e : TopEnv D) : Loop F D :=
  let s := { s with
    hand := if s.console.input.cubeReleased then { s.hand with touching := false } else s.hand
    console := showPanel (withRuntime s.console (.tick s.nowMs false e.tick)) }
  if s.console.world.runtime.sleepRequested && !s.first then fallAsleep s e.sleep
  else { s with place := .rest }

/-- The read of a frame. -/
def frameCall (setup : Setup) (e : TopEnv D) : ReadCall D :=
  { e.read with hasFd := setup.hasTouch, now := e.clock.seconds }

/-- The key was read: a press asks for sleep, but not before the screen is on. -/
def afterKey (s : Loop F D) (e : TopEnv D) (read : Bool × PowerKey) : Loop F D :=
  { s with
    key := read.2
    nowMs := e.clock.ms
    previousReadAtMs := s.console.world.runtime.readAtMs
    console := if read.1 && !s.first then requestSleep s.console else s.console }

/-- A frame up to its gestures. -/
def topStep (setup : Setup) (s : Loop F D) (e : TopEnv D) : Option (Loop F D) :=
  (powerKeyRead s.key setup.hasKey e.key).bind fun read =>
    let s := afterKey s e read
    (controlInputRead setup.word s.console (frameCall setup e)).map fun got =>
      let s := { s with console := got.2 }
      if got.1 then afterRead s e else { s with place := .exited }

/-- The loop that reads and throws away what was touched in the dark; the answer is whether no call
failed. -/
def discardAll (word : Nat) : List (Option Int × List (Action D)) → Descriptor F D →
    Option (Bool × Descriptor F D)
  | [], _ => none
  | (clock, answers) :: rest, d =>
    match readFd word d clock answers with
    | none => none
    | some (.error _, d) => if rest.isEmpty then some (false, d) else none
    | some (.ok events, d) =>
      if events.length = portion.toNat then discardAll word rest d
      else if rest.isEmpty then some (true, d) else none

/-- What follows the loop of sleep. -/
def wakeUp (s : Loop F D) : Loop F D :=
  { s with
    console := withRuntime (controlInputReset s.console s.orientation.flipped) (.touchIdle s.nowMs)
    first := true
    waking := true
    t0 := ⟨0, 0⟩
    frames := 0
    place := .rest }

/-- A new reading in sleep goes to the pick-up detector. -/
def senseMotion (setup : Setup) (s : Loop F D) : Bool × Loop F D :=
  match if setup.hasAccel then accelMonitorSnapshot s.monitor else none with
  | none => (false, s)
  | some (sequence, sample) =>
    if sequence = s.sleepSequence then (false, s)
    else
      let fed := pickupFeed s.pickup sample.xMg sample.yMg sample.zMg sample.atMs
      (fed.1, { s with sleepSequence := sequence, pickup := fed.2 })

/-- A turn of the loop of sleep, the key and the touch screen having been read. -/
def afterPoll (setup : Setup) (s : Loop F D) (e : DarkEnv D) (pressed : Bool) : Loop F D :=
  let nowMs := e.clock.ms
  let sensed := senseMotion setup
    { s with nowMs, console := withRuntime s.console (.tick nowMs true e.tick) }
  if pressed || sensed.1 then wakeUp sensed.2 else sensed.2

/-- The reads of the touch screen in sleep. -/
def discarded (setup : Setup) (d : Descriptor F D) (e : DarkEnv D) : Option (Bool × Descriptor F D) :=
  if setup.hasTouch then discardAll setup.word e.discards d
  else if e.discards.isEmpty then some (true, d) else none

/-- One turn of the loop of sleep. -/
def darkStep (setup : Setup) (s : Loop F D) (e : DarkEnv D) : Option (Loop F D) :=
  if e.poll = .failed then some (wakeUp s)
  else
    (powerKeyRead s.key setup.hasKey e.key).bind fun read =>
      (discarded setup s.console.input.decoder e).map fun got =>
        let s := { s with key := read.2, console := withDecoder s.console got.2 }
        if got.1 then afterPoll setup s e read.1 else wakeUp s

/-- The orientation is looked at every ten frames. -/
def orient (setup : Setup) (s : Loop F D) : Loop F D :=
  if !setup.staticScene && setup.hasAccel && s.frames % 10 == 0 then
    let looked := look s.orientation s.monitor
    let s := { s with orientation := looked.2 }
    if looked.1 then
      { s with console := controlInputReset s.console s.orientation.flipped, hand := letGo s.hand }
    else s
  else s

/-- The framebuffer of a buffer; `none` exits. -/
def fbFor (fbs : List Nat) (buffer : Nat) (added : Bool) : Option (List Nat) :=
  if buffer ∈ fbs then some fbs
  else if !added || fbs.length == 8 then none
  else some (fbs ++ [buffer])

/-- The overlay's drawing. -/
def drawOverlay (setup : Setup) (s : Loop F D) : Loop F D :=
  let runtime := s.console.world.runtime
  let drawn := controlOverlayDraw D setup.fonts setup.screen s.overlay runtime.panel s.orientation.flipped
    s.nowMs (decide (runtime.readAtMs ≠ s.previousReadAtMs))
  { s with
    overlay := drawn.1
    console := { s.console with world := s.console.world.withPanel drawn.2.1 }
    quads := drawn.2.2 }

/-- The buffer goes on the screen; `none` exits. -/
def present (s : Loop F D) (buffer : Nat) (e : RestEnv) : Option (Loop F D) :=
  if s.first then
    if e.modeset then
      let lit : Loop F D := { s with effects := s.effects ++ [.modeset buffer], first := false }
      if s.waking then
        some { lit with
          console := withRuntime s.console (.wake s.nowMs e.set)
          effects := lit.effects ++ [.power true]
          waking := false }
      else some lit
    else none
  else some { s with effects := s.effects ++ [.flip buffer e.flip] }

/-- The end of a frame: the buffer before is given back, and frames are counted by the second. -/
def endFrame (s : Loop F D) (buffer : Nat) (clock : Timespec) : Loop F D :=
  let t0 := if s.t0.sec = 0 then clock else s.t0
  let elapsed : D := ofInt (clock.sec - t0.sec) + ofInt (clock.nsec - t0.nsec) / lit 1000000000
  let second := decide (lit 1 ≤ elapsed)
  { s with
    effects := s.effects ++ (s.prevBo.map Effect.release).toList
    prevBo := some buffer
    t0 := if second then clock else t0
    frames := if second then 0 else s.frames + 1
    place := .top }

variable [CAngle F]

/-- What the fingers do to the cube. -/
def gestures (setup : Setup) (s : Loop F D) : Loop F D :=
  if setup.staticScene then s
  else { s with hand := handFrame s.hand s.console.input.cube setup.screen.w setup.screen.h }

/-- A frame from its gestures on. -/
def restStep (setup : Setup) (s : Loop F D) (e : RestEnv) : Loop F D :=
  let s := drawOverlay setup (gestures setup (orient setup s))
  match e.buffer with
  | none => { s with place := .exited }
  | some buffer =>
    match fbFor s.fbs buffer e.framebuffer with
    | none => { s with place := .exited }
    | some fbs =>
      match present { s with fbs } buffer e with
      | none => { s with fbs, place := .exited }
      | some s => endFrame s buffer e.clock

/-- Before the first frame; `tex` is what the texture held when it was made. -/
def Loop.start (setup : Setup) (console : Console F D) (tex : Overlay.Texture) (now : Int) : Loop F D where
  place := .top
  console
  key := ⟨[]⟩
  hand := handStart setup.staticScene
  orientation := ⟨false, 0, 0⟩
  monitor := ⟨[]⟩
  sleepSequence := 0
  pickup := pickupStart 0
  overlay :=
    { overlay := { panel := emptyPanel, panelTex := tex, painted := console.world.runtime.panel }
      prepared := false
      paintedAtMs := 0 }
  first := true
  waking := false
  frames := 0
  t0 := ⟨0, 0⟩
  nowMs := now
  previousReadAtMs := 0
  quads := []
  prevBo := none
  fbs := []
  effects := []

/-- The start of the application: preferences and telemetry, then the input. -/
def Loop.init (setup : Setup) (e : InitEnv) (flip : TouchFlip F) (stream : List UInt8) (tex : Overlay.Texture)
    (now : Int) : Option (Loop F D) :=
  (controlRuntimeInit e now).bind fun world =>
    (controlInputInit flip stream).map fun input => Loop.start setup { input, world } tex now

/-- The next state; `none` where the loop does not take that part, or the kernel does not end a call
of it. -/
def Loop.next (setup : Setup) (s : Loop F D) : LoopOp D → Option (Loop F D)
  | .top e => if s.place = .top then topStep setup s e else none
  | .dark e => if s.place = .dark then darkStep setup s e else none
  | .rest e => if s.place = .rest then some (restStep setup s e) else none
  | .accel sample =>
    if setup.hasAccel then some { s with monitor := ⟨sample :: s.monitor.readings⟩ } else none

end Model

end Taq102.App
