import Taq102.Lib.Transition
import Taq102.Touch.Decoder

/-! A protocol-B device behind evdev and `touch_input_read_fd` reading it. Each system call of
the reader is a step of its own, so the device can move between any two of them. -/
namespace Taq102.Touch.Evdev
open Taq102.Lib CFloat Transition

/-- A record in the kernel's queue, with the slot selected when it was written. -/
structure Queued (D : Type) where
  raw : TouchRaw D
  slot : Nat

/-- The device's slots are 0 to `lastSlot`. -/
structure Device (D : Type) where
  lastSlot : Nat
  selected : Nat
  contact : Nat → Option Nat
  position : TouchAxis → Nat → Int
  queue : List (Queued D)

inductive DeviceEvent (D : Type) where
  | select (slot : Nat) (t : D)
  | track (id : Option Nat) (t : D)
  | move (axis : TouchAxis) (value : Int) (t : D)
  | report (t : D)
  | other (raw : TouchRaw D)
  | overflow (lost : Nat) (t : D)

def axisCode : TouchAxis → Nat
  | .x => absMtPositionX
  | .y => absMtPositionY

/-- The value of ABS_MT_TRACKING_ID for a contact, -1 for none. -/
def trackingValue (contact : Option Nat) : Int := contact.elim (-1) Int.ofNat

/-- Records that carry neither contact state nor packet boundaries. -/
def isForeign {D : Type} (raw : TouchRaw D) : Bool :=
  !raw.isSynDropped && !raw.isSynReport &&
    !(raw.type == evAbs && (raw.code == absMtSlot || raw.code == absMtTrackingId ||
      raw.code == absMtPositionX || raw.code == absMtPositionY))

variable {F D : Type}

def Device.start (lastSlot : Nat) (position : TouchAxis → Nat → Int) : Device D :=
  { lastSlot, selected := 0, contact := fun _ => none, position, queue := [] }

def Device.push (d : Device D) (raw : TouchRaw D) : Device D :=
  { d with queue := d.queue ++ [⟨raw, d.selected⟩] }

/-- What the device can do. An unchanged selection is not reported, and an overflow leaves
SYN_DROPPED before the newest records. -/
def Device.act (d : Device D) : DeviceEvent D → Option (Device D)
  | .select slot t =>
    if slot ≤ d.lastSlot ∧ slot ≠ d.selected then
      some { d.push ⟨evAbs, absMtSlot, slot, t⟩ with selected := slot }
    else none
  | .track id t =>
    some { d.push ⟨evAbs, absMtTrackingId, trackingValue id, t⟩ with
      contact := Function.update d.contact d.selected id }
  | .move axis value t =>
    some { d.push ⟨evAbs, axisCode axis, value, t⟩ with
      position := Function.update d.position axis
        (Function.update (d.position axis) d.selected value) }
  | .report t => some (d.push ⟨evSyn, synReport, 0, t⟩)
  | .other raw => if isForeign raw then some (d.push raw) else none
  | .overflow lost t =>
    some { d with queue := ⟨⟨evSyn, synDropped, 0, t⟩, d.selected⟩ :: d.queue.drop lost }

structure SlotInfo where
  value : Int
  minimum : Int
  maximum : Int

/-- The answer to EVIOCGABS(ABS_MT_SLOT). -/
def Device.slotInfo (d : Device D) : SlotInfo :=
  { value := d.selected, minimum := 0, maximum := d.lastSlot }

/-- The answer to EVIOCGMTSLOTS: one code's value for the first slots, as many as fit. -/
def Device.mtSlots (d : Device D) (value : Nat → Int) (slots : Nat) : List Int :=
  (List.range (min slots (d.lastSlot + 1))).map value

/-- The slots a resynchronisation asks for. -/
def SlotInfo.count (info : SlotInfo) : Int :=
  if info.maximum - info.minimum + 1 > touchMaxSlots then touchMaxSlots
  else info.maximum - info.minimum + 1

/-- Where a resynchronisation was started from. -/
inductive Resume (D : Type) where
  | entry
  | before (event : Queued D)
  | after

/-- The next ioctl of a resynchronisation and the answers so far. -/
inductive Stage where
  | slot
  | ids (info : SlotInfo)
  | xs (info : SlotInfo) (ids : List Int)
  | ys (info : SlotInfo) (ids xs : List Int)

inductive Pc (D : Type) where
  | idle
  | reading
  | resync (stage : Stage) (resume : Resume D)

def eintr : Int := 4
def eio : Int := 5
def eagain : Int := 11
def einval : Int := 22
def eproto : Int := 71

/-- The decoder with its file-descriptor state, and the call in progress. -/
structure Reader (F D : Type) where
  input : TouchInput F D
  bound : Bool
  resyncNeeded : Bool
  resyncErrno : Int
  resyncTime : D
  pc : Pc D
  out : Bool
  max : Int
  /-- What the last finished call returned: an error number or the events handed out. -/
  returned : Except Int (List (TouchEvent F D))

def Reader.return (r : Reader F D) (result : Except Int (List (TouchEvent F D))) : Reader F D :=
  { r with pc := .idle, returned := result }

variable [CFloat F] [CFloat D]

def Reader.start (flip : TouchFlip F) : Reader F D :=
  { input := touchInputNew flip, bound := false, resyncNeeded := false, resyncErrno := 0,
    resyncTime := lit 0, pc := .idle, out := false, max := 0, returned := .ok [] }

/-- One slot of the snapshot: a live id becomes a contact and its DOWN. -/
def resyncSlot (info : SlotInfo) (ids xs ys : List Int) (t : D) (ti : TouchInput F D) (i : Nat) :
    TouchInput F D :=
  if ids.getD i (-1) < 0 then ti else
  match selectedSlot (info.minimum + i) with
  | none => ti
  | some k =>
    let slot := { clearSlot (ti.slot k) with
      active := true
      announced := true
      trackingId := ids.getD i (-1)
      lastSpoke := t
      filterTimeOrigin := t
      filterTimeStarted := true }
    let x := oneeuroApply slot.fx (ofInt (touchFlipValue ti.flip .x (xs.getD i 0) ti.flipped)) (lit 0)
    let y := oneeuroApply slot.fy (ofInt (touchFlipValue ti.flip .y (ys.getD i 0) ti.flipped)) (lit 0)
    let slot := { slot with x := x.1, fx := x.2, y := y.1, fy := y.2 }
    { ti.setSlot k slot with ready := ti.ready ++ [slotEvent slot .down k t] }

/-- What `resync_driver` does once all four ioctls have answered. -/
def resyncDriver (info : SlotInfo) (ids xs ys : List Int) (t : D) (ti : TouchInput F D) :
    TouchInput F D :=
  (List.range info.count.toNat).foldl (resyncSlot info ids xs ys t) { ti with currentSlot := info.value }

variable [CDouble F D]

/-- The part of `process_input_event` from `feed_one` on. -/
def Reader.feedRecord (r : Reader F D) (raw : TouchRaw D) : Reader F D :=
  let ti := feedOne r.input raw
  let r' :=
    if r.input.discarding && !ti.discarding && raw.isSynReport then
      { r with input := ti, resyncNeeded := true, resyncTime := raw.t }
    else { r with input := ti }
  { r' with pc := if r'.resyncNeeded then .resync .slot .after else .reading }

/-- A record arrives: an outstanding resynchronisation is tried before it is fed. -/
def Reader.processInputEvent (r : Reader F D) (event : Queued D) : Reader F D :=
  if r.resyncNeeded then { r with pc := .resync .slot (.before event) } else r.feedRecord event.raw

def Reader.resyncSucceeded (r : Reader F D) (resume : Resume D) : Reader F D :=
  let r := { r with resyncNeeded := false, resyncErrno := 0 }
  match resume with
  | .before event => r.feedRecord event.raw
  | .entry | .after => { r with pc := .reading }

/-- A failure at entry is not recorded; a record whose resynchronisation fails is dropped. -/
def Reader.resyncFailed (r : Reader F D) (resume : Resume D) (errno : Int) : Reader F D :=
  match resume with
  | .entry => { r with pc := .reading }
  | .before _ | .after =>
    { r with resyncErrno := if errno = 0 then eio else errno, pc := .reading }

/-- The answer of the pending ioctl arrives. -/
def Reader.answered (r : Reader F D) (d : Device D) (stage : Stage) (resume : Resume D) :
    Reader F D :=
  match stage with
  | .slot =>
    if d.slotInfo.count ≤ 0 then r.resyncFailed resume eproto
    else { r with pc := .resync (.ids d.slotInfo) resume }
  | .ids info =>
    let ids := d.mtSlots (fun i => trackingValue (d.contact i)) info.count.toNat
    { r with pc := .resync (.xs info ids) resume }
  | .xs info ids =>
    { r with pc := .resync (.ys info ids (d.mtSlots (d.position .x) info.count.toNat)) resume }
  | .ys info ids xs =>
    let ys := d.mtSlots (d.position .y) info.count.toNat
    { r with input := resyncDriver info ids xs ys r.resyncTime r.input }.resyncSucceeded resume

/-- The end of a call whose reads found the queue empty. -/
def Reader.finish (r : Reader F D) : Reader F D :=
  match drainReady r.input r.out r.max with
  | (none, ti) => { r with input := ti }.return (.error einval)
  | (some events, ti) =>
    let r := { r with input := ti }
    if events.length ≠ 0 || !r.resyncNeeded then r.return (.ok events)
    else r.return (.error (if r.resyncErrno = 0 then eio else r.resyncErrno))

/-- A read that brings no record. -/
def Reader.readFailed (r : Reader F D) (errno : Int) : Reader F D :=
  if errno = eagain then r.finish
  else if errno = eintr then r
  else r.return (.error errno)

/-- The entry of `touch_input_read_fd`; the first call selects the monotonic clock. -/
def Reader.enter (r : Reader F D) (out : Bool) (max : Int) (clock : Option Int) : Reader F D :=
  match if r.bound then none else clock with
  | some errno => r.return (.error errno)
  | none =>
    { r with
      bound := true
      out := out
      max := max
      pc := if r.resyncNeeded then .resync .slot .entry else .reading }

structure System (F D : Type) where
  device : Device D
  reader : Reader F D

inductive Step (D : Type) where
  | device (event : DeviceEvent D)
  /-- A call of `touch_input_read_fd`; `clock` is how selecting the clock would fail. -/
  | call (out : Bool) (max : Int) (clock : Option Int)
  | read
  | readFails (errno : Int)
  | answer
  | refuse (errno : Int)

def System.start (lastSlot : Nat) (position : TouchAxis → Nat → Int) (flip : TouchFlip F) :
    System F D :=
  { device := .start lastSlot position, reader := .start flip }

/-- One step of the device or one system call of the reader; `none` where it cannot happen. -/
def System.next (s : System F D) : Step D → Option (System F D)
  | .device event => (s.device.act event).map fun d => { s with device := d }
  | .call out max clock =>
    match s.reader.pc with
    | .idle => some { s with reader := s.reader.enter out max clock }
    | _ => none
  | .read =>
    match s.reader.pc, s.device.queue with
    | .reading, event :: rest => some
      { device := { s.device with queue := rest }, reader := s.reader.processInputEvent event }
    | _, _ => none
  | .readFails errno =>
    match s.reader.pc with
    | .reading =>
      if errno = eagain ∧ !s.device.queue.isEmpty then none
      else some { s with reader := s.reader.readFailed errno }
    | _ => none
  | .answer =>
    match s.reader.pc with
    | .resync stage resume => some { s with reader := s.reader.answered s.device stage resume }
    | _ => none
  | .refuse errno =>
    match s.reader.pc with
    | .resync _ resume => some { s with reader := s.reader.resyncFailed resume errno }
    | _ => none

end Taq102.Touch.Evdev
