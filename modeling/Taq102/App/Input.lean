import Taq102.Panel.Capture
import Taq102.Runtime.Control
import Taq102.Touch.Reading
import Taq102.Touch.Routing

/-! Touch input of the application (`control_input.c`): the decoder's events are routed one by one,
and the panel's are handled and their actions carried out at once. -/
namespace Taq102.App
open Taq102.Lib CFloat Transition
open Touch Touch.Evdev Touch.Reading Taq102.Runtime Panel

structure ControlInput (F D : Type) where
  decoder : Descriptor F D
  router : TouchRouter F D
  cube : CubeContacts F
  cubeReleased : Bool
  failed : Bool

/-- The input with the runtime it acts on. -/
structure Console (F D : Type) where
  input : ControlInput F D
  world : World F

/-- What one event meets outside: the memory for the router's queue, and the surroundings of the
actions it causes, by the round of the loop, the event of the round and the action. -/
structure EventEnv where
  memory : Bool
  actions : Nat → Nat → Nat → ActionEnv

/-- One call of `control_input_read`: whether there is a descriptor, the kernel's answers to the
reading call, the time of the expiry, and what each event meets, by portion and position. -/
structure ReadCall (D : Type) where
  hasFd : Bool
  clock : Option Int
  answers : List (Action D)
  now : D
  arriving : Nat → Nat → EventEnv
  expiring : Nat → Nat → EventEnv

/-- How many events `control_input_read` asks for. -/
def portion : Int := 64

variable {F D : Type}

/-- An answer of the kernel within a call, not a call of its own. -/
def Action.isAnswer : Action D → Bool
  | .call _ _ _ => false
  | .drain _ _ => false
  | _ => true

section Model
variable [CFloat F] [CFloat D]

/-- The milliseconds of an event; `none` is a time the application does not take. -/
def eventTime (e : TouchEvent F D) : Option Int :=
  if ¬ isFinite e.t ∨ e.t < lit 0 ∨ (ofInt int64Max : D) / lit 1000 ≤ e.t then none
  else some (trunc (e.t * lit 1000))

/-- A finger of the cube that is lifted. -/
def noteRelease (input : ControlInput F D) (e : TouchEvent F D) : ControlInput F D :=
  match selectedSlot e.slot with
  | some i =>
    if e.kind.ends ∧ (input.cube i).active then { input with cubeReleased := true } else input
  | none => input

variable [CDouble F D]

/-- The panel's events of one round, each with its actions. -/
def handlePanel (now : Int) : List (TouchEvent F D) → (Nat → Nat → ActionEnv) → World F → World F
  | [], _, w => w
  | ev :: rest, e, w => handlePanel now rest (fun j => e (j + 1)) (touchPanel w ev now true 3 (e 0))

/-- One round: what the router asks for, and what it hands out. -/
def deliver (now : Int) (out : RouterOut F D) (e : Nat → Nat → ActionEnv) (c : Console F D) :
    Console F D :=
  let c : Console F D :=
    if out.openPanel then
      { input := { c.input with router := touchRouterSetPanelOpen c.input.router 1 }
        world := step c.world (.openPanel now : RuntimeOp F D) }
    else c
  let w := handlePanel now out.panel e c.world
  let w := if out.closePanel then step w (.closePanel now : RuntimeOp F D) else w
  { input := { c.input with cube := out.cube }, world := w }

/-- The rounds of one event, and whether the queue failed. The first number bounds the rounds. -/
def rounds (now : Int) : Nat → RouterOut F D → (Nat → Nat → Nat → ActionEnv) → Console F D →
    Console F D × Bool
  | fuel, out, e, c =>
    if out.nPanel < 0 then ({ c with input := { c.input with failed := true } }, true)
    else
      let c := deliver now out (e 0) c
      if out.nPanel < panelOutputCapacity then (c, false)
      else
        match fuel with
        | 0 => (c, false)
        | fuel + 1 =>
          let fed := touchRouterFeed c.input.router (some [])
          rounds now fuel fed.1 (fun k => e (k + 1))
            { c with input := { c.input with router := fed.2 } }

/-- One turn of the loop of `control_input_feed`. -/
def feedEvent (c : Console F D) (ev : TouchEvent F D) (e : EventEnv) : Console F D × Bool :=
  match eventTime ev with
  | none => (c, false)
  | some now =>
    let w := if ev.kind = .down ∨ ev.kind = .move then step c.world (.touchIdle now : RuntimeOp F D)
      else c.world
    let input := noteRelease c.input ev
    let w := step w (.tickPanel now : RuntimeOp F D)
    let router := touchRouterSetPanelOpen input.router (if ccVisible w.runtime.panel then 1 else 0)
    let fed := touchRouterFeed router (some [⟨ev, e.memory⟩])
    rounds now fed.2.pending.length fed.1 e.actions
      { input := { input with router := fed.2 }, world := w }

/-- The loop ends early when sleep is asked for, and when the queue fails. -/
def controlInputFeed (c : Console F D) : List (TouchEvent F D) → (Nat → EventEnv) → Console F D
  | [], _ => c
  | ev :: rest, e =>
    if c.world.runtime.sleepRequested then c
    else
      let fed := feedEvent c ev (e 0)
      if fed.2 then fed.1 else controlInputFeed fed.1 rest (fun i => e (i + 1))

def withDecoder (c : Console F D) (d : Descriptor F D) : Console F D :=
  { c with input := { c.input with decoder := d } }

/-- The decoder with some events handed out. -/
def handOut (d : Descriptor F D) (drained : Option (List (TouchEvent F D)) × TouchInput F D) :
    Descriptor F D :=
  { d with
    reader := { d.reader with input := drained.2 }
    delivered := d.delivered ++ drained.1.getD [] }

/-- A portion is fed, and the next one fetched, until one is short or sleep is asked for. -/
def pump : Nat → List (TouchEvent F D) → (Nat → Nat → EventEnv) → Console F D → Console F D
  | fuel, events, e, c =>
    let c := controlInputFeed c events (e 0)
    if events.length = portion.toNat ∧ ¬ c.world.runtime.sleepRequested then
      match fuel with
      | 0 => c
      | fuel + 1 =>
        let drained := touchInputFeed c.input.decoder.reader.input [] true portion
        pump fuel (drained.1.getD []) (fun k => e (k + 1)) (withDecoder c (handOut c.input.decoder drained))
    else c

/-- `touch_input_read_fd` with the kernel's answers to it; `none` when they do not end the call. -/
def readFd (word : Nat) (d : Descriptor F D) (clock : Option Int) (answers : List (Action D)) :
    Option (Except Int (List (TouchEvent F D)) × Descriptor F D) :=
  if answers.all Action.isAnswer then
    match (.call true portion clock :: answers).foldlM (Descriptor.next word) d with
    | some d => match d.reader.pc with
      | .idle => some (d.reader.returned, d)
      | _ => none
    | none => none
  else none

/-- The part of `control_input_read` after the reading call. -/
def readExpired (c : Console F D) (call : ReadCall D) : Console F D :=
  let drained := touchInputExpire c.input.decoder.reader.input call.now true portion
  let c := withDecoder c (handOut c.input.decoder drained)
  pump c.input.decoder.reader.input.ready.length (drained.1.getD []) call.expiring c

/-- The answer is whether the call succeeded; `none` when the kernel does not end it. -/
def controlInputRead (word : Nat) (c : Console F D) (call : ReadCall D) : Option (Bool × Console F D) :=
  let c : Console F D := { c with input := { c.input with cubeReleased := false } }
  let ended (c : Console F D) : Bool × Console F D :=
    let c := readExpired c call
    (!c.input.failed, c)
  if call.hasFd then
    (readFd word c.input.decoder call.clock call.answers).map fun got =>
      let c := withDecoder c got.2
      match got.1 with
      | .error _ => (false, c)
      | .ok events => ended (pump c.input.decoder.reader.input.ready.length events call.arriving c)
  else some (ended c)

/-- What is ready is handed out and thrown away, a portion at a time. -/
def flushReady : Nat → Descriptor F D → Descriptor F D
  | 0, d => d
  | fuel + 1, d =>
    let drained := touchInputFeed d.reader.input [] true portion
    if (drained.1.getD []).isEmpty then d else flushReady fuel (handOut d drained)

def controlInputReset (c : Console F D) (flipped : Bool) : Console F D :=
  let d := c.input.decoder
  let ti := touchInputSetFlipped d.reader.input flipped
  let d := handOut { d with reader := { d.reader with input := ti } } (touchInputCancelAll ti true portion)
  let d := flushReady d.reader.input.ready.length d
  { input :=
      { decoder := d
        router := touchRouterReset c.input.router
        cube := fun _ => { active := false, x := lit 0, y := lit 0 }
        cubeReleased := true
        failed := c.input.failed }
    world := c.world.withPanel (Capturing.controlInputReset (D := D) c.world.runtime.panel) }

/-- The input before the first event; `stream` is what the device will write. -/
def controlInputInit (flip : TouchFlip F) (stream : List UInt8) : Option (ControlInput F D) :=
  (touchRouterNew flip.width flip.height 48 ccPanel.x ccPanel.y ccPanel.w ccPanel.h).map fun router =>
    { decoder := .opened (.start flip) stream
      router
      cube := fun _ => { active := false, x := lit 0, y := lit 0 }
      cubeReleased := false
      failed := false }

/-- The calls of the application on its input, and what it does to the runtime between them. -/
inductive InputOp (F D : Type) where
  | read (call : ReadCall D)
  /-- `touch_input_read_fd` into a buffer that is thrown away. -/
  | discard (clock : Option Int) (answers : List (Action D))
  | reset (flipped : Bool)
  | runtime (op : RuntimeOp F D)
  | showPanel
  /-- The power key. -/
  | requestSleep
  /-- The panel's model after it was drawn. -/
  | painted (dirty : Int)

def withRuntime (c : Console F D) (op : RuntimeOp F D) : Console F D := { c with world := step c.world op }

/-- `touch_router_set_panel_open` with the panel as it is. -/
def showPanel (c : Console F D) : Console F D :=
  let isOpen := if ccVisible c.world.runtime.panel then 1 else 0
  { c with input := { c.input with router := touchRouterSetPanelOpen c.input.router isOpen } }

def requestSleep (c : Console F D) : Console F D :=
  { c with world := { c.world with runtime := { c.world.runtime with sleepRequested := true } } }

/-- The input after a call; `none` when the kernel does not end it, or when it fails and the
application exits. -/
def Console.next (word : Nat) (c : Console F D) : InputOp F D → Option (Console F D)
  | .read reading =>
    match controlInputRead word c reading with
    | some (true, c') => some c'
    | _ => none
  | .discard clock answers => (readFd word c.input.decoder clock answers).map fun got => withDecoder c got.2
  | .reset flipped => some (controlInputReset c flipped)
  | .runtime op => some (withRuntime c op)
  | .showPanel => some (showPanel c)
  | .requestSleep => some (requestSleep c)
  | .painted dirty => some { c with world := c.world.withPanel { c.world.runtime.panel with dirty } }

end Model

end Taq102.App
