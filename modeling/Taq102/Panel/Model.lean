import Taq102.Panel.Layout
import Taq102.Touch.Decoder

/-! The control centre's model (`control_center.c`): what opening, closing, time and touches
do to it, and the actions they ask for. -/
namespace Taq102.Panel
open Taq102.Lib CFloat CDouble
open Touch (TouchEvent TouchKind)

inductive WifiState where
  | off
  | starting
  | associating
  | connected
  | failed
  deriving DecidableEq, Repr

inductive CcAction where
  | none
  | setBrightness
  | setAuto
  | sleepNow
  | setSleepMinutes
  | wifiToggle
  | rebootRescue
  | rebootLoader
  | saveSettings
  deriving DecidableEq, Repr

structure CcResult where
  action : CcAction
  arg : Int
  deriving DecidableEq, Repr

/-- What a contact was put down on; the four timer segments are numbered. -/
inductive Capture where
  | none
  | handle
  | wifi
  | bright
  | auto
  | off
  | rescue
  | loader
  | timer (segment : Fin 4)
  | outside
  deriving DecidableEq, Repr

structure CcModel (F : Type) where
  «open» : Int
  slide : F
  slideStartMs : Int
  brightness : Int
  brightnessMax : Int
  autoOn : Int
  sleepMinutes : Int
  wifi : WifiState
  ssid : List UInt8
  addr : List UInt8
  levelDbm : Int
  cap : Int
  plugged : Int
  battWord : List UInt8
  build : List UInt8
  kernel : List UInt8
  note : List UInt8
  armed : Int
  armedAtMs : Int
  draggingBrightness : Int
  lastDragPaintMs : Int
  dirty : Int
  captureSlot : Int
  captureTile : Capture
  captureY : F
  captureAtMs : Int
  pendingBrightness : Int
  slideFrom : F
  deriving DecidableEq, Repr

variable {F D : Type}

/-- The limit has passed; a time before `since` is not past it. -/
def elapsed (now since limit : Int) : Bool := since ≤ now && limit ≤ now - since

def release (m : CcModel F) : CcModel F :=
  { m with captureSlot := -1, captureTile := .none, draggingBrightness := 0 }

def disarm (m : CcModel F) : CcModel F :=
  if m.armed ≠ 0 then { m with armed := 0, dirty := 1 } else m

/-- The drag's level becomes the brightness, unless it already is. -/
def brightness (m : CcModel F) (now : Int) : List CcResult × CcModel F :=
  if m.pendingBrightness = m.brightness then ([], m)
  else
    ([⟨.setBrightness, m.pendingBrightness⟩],
      { m with brightness := m.pendingBrightness, lastDragPaintMs := now, dirty := 1 })

/-- A completed tap on a reboot tile: the second one in time asks for the reboot. -/
def tapReboot (m : CcModel F) (arm : Int) (action : CcAction) (now : Int) :
    List CcResult × CcModel F :=
  if m.armed = arm ∧ m.armedAtMs ≤ now ∧ elapsed now m.armedAtMs 3000 = false then
    ([⟨action, 0⟩], disarm m)
  else ([], { m with armed := arm, armedAtMs := now, dirty := 1 })

def timerMinutes : Fin 4 → Int
  | 0 => 1
  | 1 => 5
  | 2 => 15
  | 3 => 0

variable [CFloat F]

def inside (r : CcRect) (x y : F) : Bool :=
  decide (ofInt r.x ≤ x) && decide (ofInt r.y ≤ y) && decide (x < ofInt (r.x + r.w)) &&
    decide (y < ofInt (r.y + r.h))

def hit (x y : F) : Capture :=
  if inside ccHandle x y then .handle
  else if inside ccWifi x y then .wifi
  else if inside ccBright x y then .bright
  else if inside ccAuto x y then .auto
  else if inside ccOffnow x y then .off
  else if inside ccRescue x y then .rescue
  else if inside ccLoader x y then .loader
  else match (List.finRange 4).find? fun i => inside (ccTimerSegment i.val) x y with
    | some i => .timer i
    | none => if inside ccPanel x y then .none else .outside

def slideTick (m : CcModel F) (now : Int) : CcModel F :=
  let progress : F :=
    if elapsed now m.slideStartMs 180 then lit 1
    else if m.slideStartMs < now then ofInt (now - m.slideStartMs) / lit 180
    else lit 0
  let eased := lit 1 - (lit 1 - progress) * (lit 1 - progress) * (lit 1 - progress)
  { m with slide := m.slideFrom + ((if m.open ≠ 0 then lit 1 else lit 0) - m.slideFrom) * eased }

def ccInit (brightness maximum automatic minutes : Int) : CcModel F :=
  let brightnessMax := if maximum < 8 then 8 else maximum
  let brightness :=
    if brightness < 8 then 8 else if brightness > brightnessMax then brightnessMax else brightness
  { «open» := 0, slide := lit 0, slideStartMs := 0, brightness, brightnessMax,
    autoOn := if automatic ≠ 0 then 1 else 0,
    sleepMinutes := if minutes = 0 ∨ minutes = 1 ∨ minutes = 5 ∨ minutes = 15 then minutes else 5,
    wifi := .off, ssid := [], addr := [], levelDbm := 0, cap := 0, plugged := 0, battWord := [],
    build := [], kernel := [], note := [], armed := 0, armedAtMs := 0, draggingBrightness := 0,
    lastDragPaintMs := 0, dirty := 1, captureSlot := -1, captureTile := .none, captureY := lit 0,
    captureAtMs := 0, pendingBrightness := brightness, slideFrom := lit 0 }

def ccOpen (m : CcModel F) (now : Int) : CcModel F :=
  if m.open ≠ 0 then m
  else { slideTick m now with slideFrom := (slideTick m now).slide, slideStartMs := now, «open» := 1 }

def ccClose (m : CcModel F) (now : Int) : CcModel F :=
  let m := release (disarm m)
  if m.open = 0 then m
  else { slideTick m now with slideFrom := (slideTick m now).slide, slideStartMs := now, «open» := 0 }

def ccVisible (m : CcModel F) : Bool := m.open ≠ 0 || decide (lit 0 < m.slide)

def ccTick (m : CcModel F) (now : Int) : CcModel F :=
  let m := slideTick m now
  if m.armed ≠ 0 && elapsed now m.armedAtMs 3000 then disarm m else m

/-- What a completed tap does, the contact being released. -/
def tapTile (m : CcModel F) (tile : Capture) (now : Int) : List CcResult × CcModel F :=
  match tile with
  | .auto =>
    let autoOn := if m.autoOn = 0 then 1 else 0
    ([⟨.setAuto, autoOn⟩, ⟨.saveSettings, 0⟩], { m with autoOn, dirty := 1 })
  | .timer i =>
    ([⟨.setSleepMinutes, timerMinutes i⟩, ⟨.saveSettings, 0⟩],
      { m with sleepMinutes := timerMinutes i, dirty := 1 })
  | .wifi =>
    let wanted := m.wifi = .off ∨ m.wifi = .failed
    ([⟨.wifiToggle, if wanted then 1 else 0⟩],
      { m with wifi := if wanted then .starting else .off, dirty := 1 })
  | .off => ([⟨.sleepNow, 0⟩], ccClose m now)
  | .rescue => tapReboot m 1 .rebootRescue now
  | .loader => tapReboot m 2 .rebootLoader now
  | .none | .handle | .bright | .outside => ([], m)

/-- The branch of `handle` for a lifted contact. -/
def handleUp (m : CcModel F) (e : TouchEvent F D) (now : Int) : List CcResult × CcModel F :=
  let tile := m.captureTile
  let tapped := m.captureAtMs ≤ now ∧ elapsed now m.captureAtMs 401 = false ∧ tile = hit e.x e.y
  if tile = .outside then ([], ccClose (release m) now)
  else if ¬ tapped then ([], release m)
  else tapTile (release m) tile now

variable [CFloat D] [CDouble F D]

/-- The brightness at a height of the slider. -/
def level (m : CcModel F) (y : F) : Int :=
  let part : D := (ofInt (ccBright.y + ccBright.h) - lit 1 - widen y) / (ofInt ccBright.h - lit 1)
  let part := if part < lit 0 then lit 0 else part
  let part := if lit 1 < part then lit 1 else part
  8 + lround (part * ofInt (m.brightnessMax - 8))

/-- The branch of `handle` for a contact put down while none is captured. -/
def handleDown (m : CcModel F) (e : TouchEvent F D) (now : Int) : List CcResult × CcModel F :=
  let m := { m with
    captureSlot := e.slot
    captureTile := hit e.x e.y
    captureY := e.y
    captureAtMs := now }
  if m.captureTile ≠ .bright then ([], m)
  else
    let m := { m with draggingBrightness := 1 }
    let auto : List CcResult × CcModel F :=
      if m.autoOn ≠ 0 then ([⟨.setAuto, 0⟩], { m with autoOn := 0, dirty := 1 }) else ([], m)
    let m := { auto.2 with pendingBrightness := level auto.2 e.y }
    let set := brightness m now
    (auto.1 ++ set.1, { set.2 with lastDragPaintMs := now })

/-- The branch of `handle` for a contact that drags the slider. -/
def handleDrag (m : CcModel F) (e : TouchEvent F D) (now : Int) : List CcResult × CcModel F :=
  let m := { m with pendingBrightness := level m e.y }
  let set := if e.kind = .up ∨ elapsed now m.lastDragPaintMs 33 then brightness m now else ([], m)
  if e.kind = .up then (set.1 ++ [⟨.saveSettings, 0⟩], release set.2) else set

def handle (m : CcModel F) (e : TouchEvent F D) (now : Int) : List CcResult × CcModel F :=
  if ¬ ccVisible m ∨ ¬ isFinite e.x ∨ ¬ isFinite e.y then ([], m)
  else if e.kind = .down then
    if 0 ≤ m.captureSlot then ([], m) else handleDown m e now
  else if m.captureSlot < 0 ∨ e.slot ≠ m.captureSlot then ([], m)
  else if e.kind = .cancel then ([], release m)
  else if m.draggingBrightness ≠ 0 then handleDrag m e now
  else if m.captureTile = .handle ∧ lit 60 < m.captureY - e.y then ([], ccClose m now)
  else if e.kind ≠ .up then ([], m)
  else handleUp m e now

/-- The actions and the model after an event; `error n` is the return value `-n` for an output
buffer that is missing or too small, which leaves the model as it was. -/
def ccHandleEvent (m : CcModel F) (e : TouchEvent F D) (now : Int) (out : Bool) (max : Int) :
    Except Nat (List CcResult) × CcModel F :=
  let next := handle m e now
  if max < next.1.length ∨ (next.1 ≠ [] ∧ out = false) then (.error next.1.length, m)
  else (.ok next.1, next.2)

/-- The panel is on screen and the event has a position. -/
def Sees (m : CcModel F) (e : TouchEvent F D) : Prop :=
  ccVisible m = true ∧ isFinite e.x = true ∧ isFinite e.y = true

/-- The event belongs to the captured contact. -/
def Owns (m : CcModel F) (e : TouchEvent F D) : Prop := 0 ≤ m.captureSlot ∧ e.slot = m.captureSlot

/-- Everything one event can do. -/
theorem handle_cases {P : List CcResult × CcModel F → Prop} (m : CcModel F) (e : TouchEvent F D)
    (now : Int) (unseen : ¬ Sees m e → P ([], m))
    (busy : Sees m e → e.kind = .down → 0 ≤ m.captureSlot → P ([], m))
    (press : Sees m e → e.kind = .down → m.captureSlot < 0 → P (handleDown m e now))
    (stray : Sees m e → e.kind ≠ .down → ¬ Owns m e → P ([], m))
    (cancel : Sees m e → Owns m e → e.kind = .cancel → P ([], release m))
    (drag : Sees m e → Owns m e → e.kind = .move ∨ e.kind = .up → m.draggingBrightness ≠ 0 →
      P (handleDrag m e now))
    (swipe : Sees m e → Owns m e → e.kind = .move ∨ e.kind = .up → m.captureTile = .handle →
      P ([], ccClose m now))
    (hold : Sees m e → Owns m e → e.kind = .move → P ([], m))
    (lift : Sees m e → Owns m e → e.kind = .up → m.draggingBrightness = 0 → P (handleUp m e now)) :
    P (handle m e now) := by
  unfold handle
  split
  · rename_i h
    refine unseen fun hs => ?_
    simp [hs.1, hs.2.1, hs.2.2] at h
  rename_i h
  have hs : Sees m e := by simpa [not_or, Sees] using h
  split
  · rename_i hk
    split
    · exact busy hs hk ‹_›
    · exact press hs hk (by omega)
  rename_i hk
  split
  · refine stray hs hk fun ho => ?_
    have hslot := ho.1
    have heq := ho.2
    omega
  rename_i ho
  have ho : Owns m e := ⟨by omega, by omega⟩
  split
  · exact cancel hs ho ‹_›
  rename_i hc
  have hmove : e.kind = .move ∨ e.kind = .up := by
    cases hkind : e.kind <;> simp_all
  split
  · exact drag hs ho hmove ‹_›
  rename_i hdrag
  split
  · rename_i hswipe
    exact swipe hs ho hmove hswipe.1
  split
  · rename_i hup
    exact hold hs ho (hmove.resolve_right hup)
  · rename_i hup
    exact lift hs ho (not_not.mp hup) (not_not.mp hdrag)

/-- The calls on a model. -/
inductive PanelOp (F D : Type) where
  | «open» (now : Int)
  | close (now : Int)
  | tick (now : Int)
  | handle (e : TouchEvent F D) (now : Int) (out : Bool) (max : Int)

/-- The answer to a call and the model after it. -/
def perform (m : CcModel F) : PanelOp F D → Except Nat (List CcResult) × CcModel F
  | .open now => (.ok [], ccOpen m now)
  | .close now => (.ok [], ccClose m now)
  | .tick now => (.ok [], ccTick m now)
  | .handle e now out max => ccHandleEvent m e now out max

/-- A call that was made: the model before it and the answer to it. -/
structure Record (F D : Type) where
  before : CcModel F
  op : PanelOp F D
  answer : Except Nat (List CcResult)

/-- The event a call took, with its time. -/
def Record.taken (r : Record F D) : Option (TouchEvent F D × Int) :=
  match r.op, r.answer with
  | .handle e now _ _, .ok _ => some (e, now)
  | _, _ => none

def Record.actions (r : Record F D) : List CcResult :=
  match r.answer with
  | .ok actions => actions
  | .error _ => []

/-- A model in use, with the calls made on it. -/
structure Usage (F D : Type) where
  model : CcModel F
  past : List (Record F D)

def Usage.start (m : CcModel F) : Usage F D := { model := m, past := [] }

def Usage.call (s : Usage F D) (op : PanelOp F D) : Usage F D :=
  let after := perform s.model op
  { model := after.2, past := s.past ++ [{ before := s.model, op, answer := after.1 }] }

end Taq102.Panel
