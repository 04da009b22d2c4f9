import Mathlib.Data.Fin.Basic
import Mathlib.Data.List.FinRange
import Mathlib.Logic.Function.Basic
import Taq102.Lib.Sweep
import Taq102.Touch.Filter

/-! The multitouch decoder of `touch_input.c`: raw evdev records are collected into a pending
frame, published to the ready queue at SYN_REPORT, and handed out from there. Allocation is
taken to succeed, so buffers are lists. -/
namespace Taq102.Touch
open Taq102.Lib CFloat CDouble

inductive TouchKind where
  | down
  | move
  | up
  | cancel
  deriving DecidableEq, Repr

structure TouchEvent (F D : Type) where
  kind : TouchKind
  slot : Int
  x : F
  y : F
  t : D
  deriving DecidableEq, Repr

structure TouchRaw (D : Type) where
  type : Nat
  code : Nat
  value : Int
  t : D

abbrev touchMaxSlots : Nat := 10

def evSyn : Nat := 0
def evAbs : Nat := 3
def synReport : Nat := 0
def synDropped : Nat := 3
def absMtSlot : Nat := 0x2f
def absMtPositionX : Nat := 0x35
def absMtPositionY : Nat := 0x36
def absMtTrackingId : Nat := 0x39

def TouchRaw.isSynDropped {D : Type} (raw : TouchRaw D) : Bool :=
  raw.type == evSyn && raw.code == synDropped

def TouchRaw.isSynReport {D : Type} (raw : TouchRaw D) : Bool :=
  raw.type == evSyn && raw.code == synReport

structure TouchSlot (F D : Type) where
  active : Bool
  announced : Bool
  trackingId : Int
  /-- Index of the slot's last event in the pending frame; `none` is -1. -/
  frameEvent : Option Nat
  x : F
  y : F
  lastSpoke : D
  filterTimeOrigin : D
  filterTimeStarted : Bool
  fx : OneEuro F
  fy : OneEuro F

structure TouchInput (F D : Type) where
  flip : TouchFlip F
  flipped : Bool
  currentSlot : Int
  discarding : Bool
  slot : Fin touchMaxSlots → TouchSlot F D
  frame : List (TouchEvent F D)
  ready : List (TouchEvent F D)

variable {F D : Type}

/-- The number events carry for a slot. -/
def slotNumber (i : Fin touchMaxSlots) : Int := (i.val : Int)

theorem slotNumber_injective : Function.Injective slotNumber := by
  intro i j h
  exact Fin.ext (Int.ofNat.inj h)

@[simp] theorem slotNumber_eq_iff (i j : Fin touchMaxSlots) : slotNumber i = slotNumber j ↔ i = j :=
  slotNumber_injective.eq_iff

def TouchInput.setSlot (ti : TouchInput F D) (i : Fin touchMaxSlots) (slot : TouchSlot F D) :
    TouchInput F D :=
  { ti with slot := Function.update ti.slot i slot }

theorem setSlot_slot (ti : TouchInput F D) (i j : Fin touchMaxSlots) (s : TouchSlot F D) :
    (ti.setSlot i s).slot j = if j = i then s else ti.slot j :=
  Function.update_apply _ _ _ _

@[simp] theorem setSlot_self (ti : TouchInput F D) (i : Fin touchMaxSlots) (s : TouchSlot F D) :
    (ti.setSlot i s).slot i = s := Function.update_self _ _ _

@[simp] theorem setSlot_setSlot (ti : TouchInput F D) (i : Fin touchMaxSlots) (s s' : TouchSlot F D) :
    (ti.setSlot i s).setSlot i s' = ti.setSlot i s' := by
  simp [TouchInput.setSlot]

@[simp] theorem setSlot_frame (ti : TouchInput F D) (i : Fin touchMaxSlots) (s : TouchSlot F D) :
    (ti.setSlot i s).frame = ti.frame := rfl

@[simp] theorem setSlot_ready (ti : TouchInput F D) (i : Fin touchMaxSlots) (s : TouchSlot F D) :
    (ti.setSlot i s).ready = ti.ready := rfl

@[simp] theorem setSlot_discarding (ti : TouchInput F D) (i : Fin touchMaxSlots) (s : TouchSlot F D) :
    (ti.setSlot i s).discarding = ti.discarding := rfl

@[simp] theorem setSlot_currentSlot (ti : TouchInput F D) (i : Fin touchMaxSlots)
    (s : TouchSlot F D) : (ti.setSlot i s).currentSlot = ti.currentSlot := rfl

def slotEvent (slot : TouchSlot F D) (kind : TouchKind) (i : Fin touchMaxSlots) (t : D) :
    TouchEvent F D :=
  { kind, slot := slotNumber i, x := slot.x, y := slot.y, t }

def appendFrameEvent (ti : TouchInput F D) (kind : TouchKind) (i : Fin touchMaxSlots) (t : D) :
    TouchInput F D :=
  let slot := ti.slot i
  { ti with frame := ti.frame ++ [slotEvent slot kind i t] }.setSlot i
    { slot with frameEvent := some ti.frame.length }

@[simp] theorem appendFrameEvent_frame (ti : TouchInput F D) (kind : TouchKind)
    (i : Fin touchMaxSlots) (t : D) :
    (appendFrameEvent ti kind i t).frame = ti.frame ++ [slotEvent (ti.slot i) kind i t] := rfl

theorem appendFrameEvent_slot (ti : TouchInput F D) (kind : TouchKind) (i j : Fin touchMaxSlots)
    (t : D) : (appendFrameEvent ti kind i t).slot j =
      if j = i then { ti.slot i with frameEvent := some ti.frame.length } else ti.slot j :=
  setSlot_slot _ _ _ _

/-- What publishing an event does to the announced flag of the slot it names. -/
def announce (announced : Bool) (kind : TouchKind) : Bool :=
  match kind with
  | .down => true
  | .move => announced
  | .up | .cancel => false

/-- The slots with the one an event names rewritten, when there is one. -/
def modifySlot (slots : Fin touchMaxSlots → TouchSlot F D) (number : Int)
    (f : TouchSlot F D → TouchSlot F D) : Fin touchMaxSlots → TouchSlot F D :=
  fun i => if slotNumber i = number then f (slots i) else slots i

/-- A field that every update of a sequence preserves is preserved by the sequence. -/
theorem foldl_modifySlot {ε α : Type} (field : TouchSlot F D → α) (number : ε → Int)
    (f : ε → TouchSlot F D → TouchSlot F D) (hf : ∀ e s, field (f e s) = field s)
    (entries : List ε) (slots : Fin touchMaxSlots → TouchSlot F D) (i : Fin touchMaxSlots) :
    field (entries.foldl (fun slots e => modifySlot slots (number e) (f e)) slots i) =
      field (slots i) := by
  induction entries generalizing slots with
  | nil => rfl
  | cons e rest ih =>
    rw [List.foldl_cons, ih, modifySlot]
    split
    · exact hf e (slots i)
    · rfl

def announceFrame (frame : List (TouchEvent F D)) (slots : Fin touchMaxSlots → TouchSlot F D) :
    Fin touchMaxSlots → TouchSlot F D :=
  frame.foldl (fun slots event => modifySlot slots event.slot fun s =>
    { s with announced := announce s.announced event.kind }) slots

def publishFrame (ti : TouchInput F D) : TouchInput F D :=
  if ti.frame.isEmpty then ti else
  { ti with
    ready := ti.ready ++ ti.frame
    frame := []
    slot := fun i => { announceFrame ti.frame ti.slot i with frameEvent := none } }

def discardFrameSlot (ti : TouchInput F D) (i : Fin touchMaxSlots) : TouchInput F D :=
  let frame := ti.frame.filter (fun event => event.slot ≠ slotNumber i)
  let cleared := fun j => { ti.slot j with frameEvent := none }
  { ti with
    frame
    slot := frame.zipIdx.foldl (fun slots entry =>
      modifySlot slots entry.1.slot fun s => { s with frameEvent := some entry.2 }) cleared }

/-- Dropping a slot's pending events touches no field of any slot but its frame index. -/
theorem discardFrameSlot_slot {α : Type} (field : TouchSlot F D → α)
    (hf : ∀ s e, field { s with frameEvent := e } = field s) (ti : TouchInput F D)
    (i j : Fin touchMaxSlots) : field ((discardFrameSlot ti i).slot j) = field (ti.slot j) := by
  unfold discardFrameSlot
  rw [foldl_modifySlot field (fun entry : TouchEvent F D × Nat => entry.1.slot)
    (fun entry s => { s with frameEvent := some entry.2 }) (fun _ _ => hf _ _)]
  exact hf _ _

/-- The events handed out, or `none` for an invalid output buffer. -/
def drainReady (ti : TouchInput F D) (out : Bool) (max : Int) :
    Option (List (TouchEvent F D)) × TouchInput F D :=
  if max < 0 ∨ (0 < max ∧ out = false) then (none, ti)
  else (some (ti.ready.take max.toNat), { ti with ready := ti.ready.drop max.toNat })

/-- The slot a selection names, when the decoder tracks it. -/
def selectedSlot (n : Int) : Option (Fin touchMaxSlots) :=
  if h : 0 ≤ n ∧ n < touchMaxSlots then some ⟨n.toNat, by omega⟩ else none

theorem selectedSlot_slotNumber (i : Fin touchMaxSlots) : selectedSlot (slotNumber i) = some i := by
  unfold selectedSlot slotNumber
  rw [dif_pos ⟨by omega, by omega⟩]
  simp

theorem slotNumber_of_selectedSlot {n : Int} {i : Fin touchMaxSlots} (h : selectedSlot n = some i) :
    slotNumber i = n := by
  unfold selectedSlot at h
  split at h
  · obtain rfl := Option.some.inj h
    unfold slotNumber
    simp only
    omega
  · cases h

variable [CFloat F] [CFloat D]

def filterMinCutoff : F := lit 1
def filterBeta : F := lit 0.02
def slotSilenceSeconds : D := lit 0.5

def resetFilter (slot : TouchSlot F D) : TouchSlot F D :=
  { slot with
    fx := oneeuroInit filterMinCutoff filterBeta
    fy := oneeuroInit filterMinCutoff filterBeta }

def clearSlot (slot : TouchSlot F D) : TouchSlot F D :=
  resetFilter { slot with
    active := false
    announced := false
    trackingId := -1
    frameEvent := none
    filterTimeOrigin := lit 0
    filterTimeStarted := false }

@[simp] theorem clearSlot_active (slot : TouchSlot F D) : (clearSlot slot).active = false := rfl

@[simp] theorem clearSlot_announced (slot : TouchSlot F D) : (clearSlot slot).announced = false := rfl

/-- One slot of the loop of `cancel_active_to_frame`. -/
def cancelSlotToFrame (t : D) (ti : TouchInput F D) (i : Fin touchMaxSlots) : TouchInput F D :=
  let ti := ti.setSlot i { ti.slot i with frameEvent := none }
  let ti := if (ti.slot i).announced then appendFrameEvent ti .cancel i t else ti
  ti.setSlot i (clearSlot (ti.slot i))

def cancelActiveToFrame (ti : TouchInput F D) (t : D) : TouchInput F D :=
  (List.finRange touchMaxSlots).foldl (cancelSlotToFrame t) { ti with frame := [] }

/-- One slot of the loop of `cancel_active_to_ready`. -/
def cancelSlotToReady (t : D) (ti : TouchInput F D) (i : Fin touchMaxSlots) : TouchInput F D :=
  let ti := if (ti.slot i).announced then
      { ti with ready := ti.ready ++ [slotEvent (ti.slot i) .cancel i t] }
    else ti
  ti.setSlot i (clearSlot (ti.slot i))

def cancelActiveToReady (ti : TouchInput F D) (t : D) : TouchInput F D :=
  (List.finRange touchMaxSlots).foldl (cancelSlotToReady t) { ti with frame := [] }

/-- The cancellation of a slot the application has been told about. -/
def slotCancel (t : D) (i : Fin touchMaxSlots) (slot : TouchSlot F D) : List (TouchEvent F D) :=
  if slot.announced then [slotEvent slot .cancel i t] else []

/-- The cancellations of all announced slots, in slot order. -/
def cancelEvents (ti : TouchInput F D) (t : D) : List (TouchEvent F D) :=
  (List.finRange touchMaxSlots).flatMap fun i => slotCancel t i (ti.slot i)

theorem cancelActiveToFrame_eq (ti : TouchInput F D) (t : D) :
    cancelActiveToFrame ti t =
      { ti with frame := cancelEvents ti t, slot := fun i => clearSlot (ti.slot i) } := by
  let pack (p : List (TouchEvent F D) × (Fin touchMaxSlots → TouchSlot F D)) : TouchInput F D :=
    { ti with frame := p.1, slot := p.2 }
  have hbody (p : List (TouchEvent F D) × (Fin touchMaxSlots → TouchSlot F D))
      (i : Fin touchMaxSlots) :
      cancelSlotToFrame t (pack p) i = pack (Sweep.visit (slotCancel t) (fun _ => clearSlot) p i) := by
    by_cases h : (p.2 i).announced = true
    · simp [cancelSlotToFrame, pack, h, Sweep.visit, slotCancel, slotEvent, appendFrameEvent,
        TouchInput.setSlot, clearSlot, resetFilter]
    · simp [cancelSlotToFrame, pack, h, Sweep.visit, slotCancel, TouchInput.setSlot, clearSlot,
        resetFilter]
  calc
    _ = (List.finRange touchMaxSlots).foldl (cancelSlotToFrame t) (pack ([], ti.slot)) := rfl
    _ = pack _ := List.foldl_hom pack hbody
    _ = _ := by
      rw [Sweep.foldl_visit_all _ _ (List.nodup_finRange _) List.mem_finRange]
      rfl

theorem cancelActiveToReady_eq (ti : TouchInput F D) (t : D) :
    cancelActiveToReady ti t =
      { ti with
        frame := []
        ready := ti.ready ++ cancelEvents ti t
        slot := fun i => clearSlot (ti.slot i) } := by
  let pack (p : List (TouchEvent F D) × (Fin touchMaxSlots → TouchSlot F D)) : TouchInput F D :=
    { ti with frame := [], ready := p.1, slot := p.2 }
  have hbody (p : List (TouchEvent F D) × (Fin touchMaxSlots → TouchSlot F D))
      (i : Fin touchMaxSlots) :
      cancelSlotToReady t (pack p) i = pack (Sweep.visit (slotCancel t) (fun _ => clearSlot) p i) := by
    by_cases h : (p.2 i).announced = true <;>
      simp [cancelSlotToReady, pack, h, Sweep.visit, slotCancel, TouchInput.setSlot]
  calc
    _ = (List.finRange touchMaxSlots).foldl (cancelSlotToReady t) (pack (ti.ready, ti.slot)) := rfl
    _ = pack _ := List.foldl_hom pack hbody
    _ = _ := by
      rw [Sweep.foldl_visit_all _ _ (List.nodup_finRange _) List.mem_finRange]
      rfl

def touchInputNew (flip : TouchFlip F) : TouchInput F D :=
  let zeroed : TouchSlot F D :=
    { active := false, announced := false, trackingId := 0, frameEvent := some 0, x := lit 0, y := lit 0,
      lastSpoke := lit 0, filterTimeOrigin := lit 0, filterTimeStarted := false,
      fx := ⟨lit 0, lit 0, lit 0, lit 0, lit 0, lit 0, false⟩,
      fy := ⟨lit 0, lit 0, lit 0, lit 0, lit 0, lit 0, false⟩ }
  { flip, flipped := false, currentSlot := 0, discarding := false,
    slot := fun _ => clearSlot zeroed, frame := [], ready := [] }

/-- The time stamped on a cancellation: the latest moment any slot spoke. -/
def latestSpoke (ti : TouchInput F D) : D :=
  (List.finRange touchMaxSlots).foldl (fun t i =>
    if t < (ti.slot i).lastSpoke then (ti.slot i).lastSpoke else t) (lit 0)

def touchInputSetFlipped (ti : TouchInput F D) (flipped : Bool) : TouchInput F D :=
  if ti.flipped = flipped then ti
  else { cancelActiveToReady ti (latestSpoke ti) with discarding := false, flipped }

def handleTrackingId (ti : TouchInput F D) (value : Int) (t : D) : TouchInput F D :=
  match selectedSlot ti.currentSlot with
  | none => ti
  | some i =>
    let ti := ti.setSlot i { ti.slot i with lastSpoke := t }
    if value = -1 then
      if !(ti.slot i).active then ti else
      let ti := appendFrameEvent ti .up i t
      ti.setSlot i { ti.slot i with active := false, trackingId := -1 }
    else if (ti.slot i).active && (ti.slot i).trackingId = value then ti
    else
      let ti := if (ti.slot i).active then appendFrameEvent ti .cancel i t else ti
      let ti := ti.setSlot i { resetFilter { ti.slot i with active := true, trackingId := value } with
        filterTimeOrigin := t, filterTimeStarted := true }
      appendFrameEvent ti .down i t

/-- A slot as a new contact finds it: the coordinates are those of the contact before. -/
def landedSlot (slot : TouchSlot F D) (value : Int) (t : D) : TouchSlot F D :=
  { resetFilter { slot with active := true, trackingId := value } with
    filterTimeOrigin := t, filterTimeStarted := true }

/-- The decoder with a new contact on a slot, after the cancellation of the one it replaces. -/
def landed (ti : TouchInput F D) (i : Fin touchMaxSlots) (value : Int) (t : D) :
    TouchInput F D :=
  let ti := if (ti.slot i).active then appendFrameEvent ti .cancel i t else ti
  appendFrameEvent (ti.setSlot i (landedSlot (ti.slot i) value t)) .down i t

omit [CFloat D] in
/-- Everything a tracking id can do to the selected slot. -/
theorem handleTrackingId_cases {P : TouchInput F D → Prop} (ti : TouchInput F D)
    {i : Fin touchMaxSlots} (hi : selectedSlot ti.currentSlot = some i) (value : Int) (t : D)
    (quiet : value = -1 ∧ (ti.slot i).active = false ∨
        value ≠ -1 ∧ (ti.slot i).active = true ∧ (ti.slot i).trackingId = value →
      P (ti.setSlot i { ti.slot i with lastSpoke := t }))
    (lift : value = -1 → (ti.slot i).active = true →
      ∀ ti', ti' = appendFrameEvent (ti.setSlot i { ti.slot i with lastSpoke := t }) .up i t →
        P (ti'.setSlot i { ti'.slot i with active := false, trackingId := -1 }))
    (land : value ≠ -1 → ¬ ((ti.slot i).active = true ∧ (ti.slot i).trackingId = value) →
      P (landed (ti.setSlot i { ti.slot i with lastSpoke := t }) i value t)) :
    P (handleTrackingId ti value t) := by
  have hactive : ((ti.setSlot i { ti.slot i with lastSpoke := t }).slot i).active =
      (ti.slot i).active := by rw [setSlot_self]
  have hid : ((ti.setSlot i { ti.slot i with lastSpoke := t }).slot i).trackingId =
      (ti.slot i).trackingId := by rw [setSlot_self]
  unfold handleTrackingId
  rw [hi]
  simp only
  generalize ti.setSlot i { ti.slot i with lastSpoke := t } = spoken at *
  rw [← hactive, ← hid] at quiet land
  rw [← hactive] at lift
  cases hnow : (spoken.slot i).active with
  | false =>
    by_cases hlift : value = -1
    · simpa [hlift] using quiet (.inl ⟨hlift, hnow⟩)
    · simpa [hlift, hnow, landed, landedSlot] using land hlift (by simp [hnow])
  | true =>
    by_cases hlift : value = -1
    · simpa [hlift] using lift hlift hnow _ rfl
    · by_cases hsame : (spoken.slot i).trackingId = value
      · simpa [hlift, hsame] using quiet (.inr ⟨hlift, hnow, hsame⟩)
      · simpa [hlift, hsame, hnow, landed, landedSlot] using land hlift fun h => hsame h.2

variable [CDouble F D]

/-- The slot with one axis filtered at its new raw value. -/
def filterPosition (ti : TouchInput F D) (slot : TouchSlot F D) (code : Nat) (value : Int) (t : D) :
    TouchSlot F D :=
  let slot := if !slot.filterTimeStarted then
      { slot with filterTimeOrigin := t, filterTimeStarted := true }
    else slot
  let filterTime : F := narrow (t - slot.filterTimeOrigin)
  if code = absMtPositionX then
    let filtered := oneeuroApply slot.fx (ofInt (touchFlipValue ti.flip .x value ti.flipped)) filterTime
    { slot with x := filtered.1, fx := filtered.2 }
  else
    let filtered := oneeuroApply slot.fy (ofInt (touchFlipValue ti.flip .y value ti.flipped)) filterTime
    { slot with y := filtered.1, fy := filtered.2 }

theorem filterPosition_keeps (ti : TouchInput F D) (slot : TouchSlot F D) (code : Nat) (value : Int)
    (t : D) : (filterPosition ti slot code value t).active = slot.active ∧
      (filterPosition ti slot code value t).announced = slot.announced ∧
      (filterPosition ti slot code value t).trackingId = slot.trackingId := by
  unfold filterPosition
  simp only
  split <;> split <;> exact ⟨rfl, rfl, rfl⟩

/-- The pending DOWN or MOVE a position update still rewrites. -/
def openFrameEvent (ti : TouchInput F D) (slot : TouchSlot F D) : Option (Nat × TouchEvent F D) :=
  slot.frameEvent.bind fun k => ti.frame[k]?.bind fun event =>
    if event.kind = .down ∨ event.kind = .move then some (k, event) else none

omit [CFloat F] [CFloat D] [CDouble F D] in
theorem openFrameEvent_eq {ti : TouchInput F D} {slot : TouchSlot F D} {k : Nat}
    {event : TouchEvent F D} (h : openFrameEvent ti slot = some (k, event)) :
    slot.frameEvent = some k ∧ ti.frame[k]? = some event := by
  obtain ⟨n, hn, hevent⟩ := Option.bind_eq_some_iff.mp h
  obtain ⟨e, he, hif⟩ := Option.bind_eq_some_iff.mp hevent
  split at hif
  · cases hif
    exact ⟨hn, he⟩
  · cases hif

def handlePosition (ti : TouchInput F D) (code : Nat) (value : Int) (t : D) : TouchInput F D :=
  match selectedSlot ti.currentSlot with
  | none => ti
  | some i =>
    let ti := ti.setSlot i { ti.slot i with lastSpoke := t }
    if !(ti.slot i).active then ti else
    let slot := filterPosition ti (ti.slot i) code value t
    let ti := ti.setSlot i slot
    match openFrameEvent ti slot with
    | some (k, event) => { ti with frame := ti.frame.set k { event with x := slot.x, y := slot.y, t := t } }
    | none => appendFrameEvent ti .move i t

/-- Everything a position can do to the selected slot. -/
theorem handlePosition_cases {P : TouchInput F D → Prop} (ti : TouchInput F D)
    {i : Fin touchMaxSlots} (hi : selectedSlot ti.currentSlot = some i) (code : Nat) (value : Int)
    (t : D) (quiet : (ti.slot i).active = false → P (ti.setSlot i { ti.slot i with lastSpoke := t }))
    (place : (ti.slot i).active = true →
      ∀ spoken slot, spoken = ti.setSlot i { ti.slot i with lastSpoke := t } →
        slot = filterPosition spoken (spoken.slot i) code value t →
          (∀ k event, openFrameEvent (spoken.setSlot i slot) slot = some (k, event) →
            P { spoken.setSlot i slot with
              frame := spoken.frame.set k { event with x := slot.x, y := slot.y, t := t } }) ∧
          (openFrameEvent (spoken.setSlot i slot) slot = none →
            P (appendFrameEvent (spoken.setSlot i slot) .move i t))) :
    P (handlePosition ti code value t) := by
  have hactive : ((ti.setSlot i { ti.slot i with lastSpoke := t }).slot i).active =
      (ti.slot i).active := by rw [setSlot_self]
  unfold handlePosition
  rw [hi]
  simp only
  generalize ti.setSlot i { ti.slot i with lastSpoke := t } = spoken at *
  rw [← hactive] at quiet place
  split
  · rename_i hoff
    exact quiet (by simpa using hoff)
  · rename_i hon
    obtain ⟨hrewrite, happend⟩ := place (by simpa using hon) _ _ rfl rfl
    split
    · exact hrewrite _ _ ‹_›
    · exact happend ‹_›

def feedOne (ti : TouchInput F D) (raw : TouchRaw D) : TouchInput F D :=
  if raw.isSynDropped then
    { cancelActiveToFrame ti raw.t with discarding := true, currentSlot := 0 }
  else if ti.discarding then
    if raw.isSynReport then publishFrame { ti with discarding := false } else ti
  else if raw.isSynReport then publishFrame ti
  else if raw.type ≠ evAbs then ti
  else if raw.code = absMtSlot then { ti with currentSlot := raw.value }
  else if raw.code = absMtTrackingId then handleTrackingId ti raw.value raw.t
  else if raw.code = absMtPositionX ∨ raw.code = absMtPositionY then
    handlePosition ti raw.code raw.value raw.t
  else ti

/-- Everything one raw record can do to the decoder. -/
theorem feedOne_cases {P : TouchInput F D → Prop} (ti : TouchInput F D) (raw : TouchRaw D)
    (drop : raw.isSynDropped = true →
      P { cancelActiveToFrame ti raw.t with discarding := true, currentSlot := 0 })
    (report : raw.isSynDropped = false → raw.isSynReport = true →
      P (publishFrame { ti with discarding := false }))
    (skip : raw.isSynDropped = false → raw.isSynReport = false → ti.discarding = true → P ti)
    (other : raw.isSynDropped = false → raw.isSynReport = false → ti.discarding = false →
      (raw.type = evAbs → raw.code ≠ absMtSlot ∧ raw.code ≠ absMtTrackingId ∧
        ¬ (raw.code = absMtPositionX ∨ raw.code = absMtPositionY)) → P ti)
    (select : ti.discarding = false → raw.type = evAbs → raw.code = absMtSlot →
      P { ti with currentSlot := raw.value })
    (track : ti.discarding = false → raw.type = evAbs → raw.code = absMtTrackingId →
      P (handleTrackingId ti raw.value raw.t))
    (place : ti.discarding = false → raw.type = evAbs →
      raw.code = absMtPositionX ∨ raw.code = absMtPositionY →
      P (handlePosition ti raw.code raw.value raw.t)) : P (feedOne ti raw) := by
  unfold feedOne
  cases hdrop : raw.isSynDropped with
  | true => exact drop hdrop
  | false =>
    cases hreport : raw.isSynReport with
    | true =>
      have hp := report hdrop hreport
      cases hd : ti.discarding with
      | true => simpa [hd] using hp
      | false =>
        have hsame : { ti with discarding := false } = ti := by rw [← hd]
        rw [hsame] at hp
        simpa [hd] using hp
    | false =>
      cases hd : ti.discarding with
      | true => simpa using skip hdrop hreport hd
      | false =>
        simp only [Bool.false_eq_true, if_false]
        split
        · rename_i htype
          exact other hdrop hreport hd fun h => absurd h htype
        · rename_i htype
          have habs : raw.type = evAbs := not_not.mp htype
          split
          · simpa [hd] using select hd habs ‹_›
          split
          · exact track hd habs ‹_›
          split
          · exact place hd habs ‹_›
          · exact other hdrop hreport hd fun _ => ⟨‹_›, ‹_›, ‹_›⟩

def touchInputFeed (ti : TouchInput F D) (raw : List (TouchRaw D)) (out : Bool) (max : Int) :
    Option (List (TouchEvent F D)) × TouchInput F D :=
  drainReady (raw.foldl feedOne ti) out max

/-- One slot of the expiry loop. -/
def expireSlot (now : D) (ti : TouchInput F D) (i : Fin touchMaxSlots) : TouchInput F D :=
  let slot := ti.slot i
  if (!slot.active && !slot.announced) || now - slot.lastSpoke ≤ slotSilenceSeconds then ti else
  let ti := discardFrameSlot ti i
  let ti := if (ti.slot i).announced then
      { ti with ready := ti.ready ++ [slotEvent (ti.slot i) .cancel i now] }
    else ti
  ti.setSlot i (clearSlot (ti.slot i))

def touchInputExpire (ti : TouchInput F D) (now : D) (out : Bool) (max : Int) :
    Option (List (TouchEvent F D)) × TouchInput F D :=
  drainReady ((List.finRange touchMaxSlots).foldl (expireSlot now) ti) out max

def touchInputCancelAll (ti : TouchInput F D) (out : Bool) (max : Int) :
    Option (List (TouchEvent F D)) × TouchInput F D :=
  drainReady { cancelActiveToReady ti (latestSpoke ti) with discarding := false } out max

end Taq102.Touch
