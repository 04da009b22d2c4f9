import Taq102.Touch.Evdev

/-! What the records of a frame do to the events that wait in it. Records about one slot rewrite only
the event the slot points at, and a contact's DOWN follows its slot until the contact ends. -/
namespace Taq102.Touch.PendingFrame
open Taq102.Lib CFloat Evdev
variable {F D : Type}

/-- Records inside a frame. -/
def Plain (raw : TouchRaw D) : Prop := raw.isSynDropped = false ∧ raw.isSynReport = false

def selects (raw : TouchRaw D) : Bool := raw.type == evAbs && raw.code == absMtSlot

def tracks (raw : TouchRaw D) : Bool := raw.type == evAbs && raw.code == absMtTrackingId

/-- The axis a record carries. -/
def axisOf (raw : TouchRaw D) : Option TouchAxis :=
  if raw.type ≠ evAbs then none
  else if raw.code = absMtPositionX then some .x
  else if raw.code = absMtPositionY then some .y
  else none

def slotCoordinate (slot : TouchSlot F D) : TouchAxis → F
  | .x => slot.x
  | .y => slot.y

def slotFilter (slot : TouchSlot F D) : TouchAxis → OneEuro F
  | .x => slot.fx
  | .y => slot.fy

def eventCoordinate (event : TouchEvent F D) : TouchAxis → F
  | .x => event.x
  | .y => event.y

/-- The record begins a contact on a slot. -/
def Lands (ti : TouchInput F D) (raw : TouchRaw D) (i : Fin touchMaxSlots) : Prop :=
  tracks raw = true ∧ ti.currentSlot = slotNumber i ∧ raw.value ≠ -1 ∧
    ¬ ((ti.slot i).active = true ∧ (ti.slot i).trackingId = raw.value)

theorem axisOf_eq_some {raw : TouchRaw D} {axis : TouchAxis} (h : axisOf raw = some axis) :
    selects raw = false ∧ tracks raw = false ∧ raw.code = axisCode axis := by
  unfold axisOf at h
  split at h
  · cases h
  split at h
  · cases h
    simp [selects, tracks, axisCode, *, absMtPositionX, absMtSlot, absMtTrackingId]
  split at h
  · cases h
    simp [selects, tracks, axisCode, *, absMtPositionY, absMtSlot, absMtTrackingId]
  · cases h

theorem axisOf_selects {raw : TouchRaw D} (h : selects raw = true) : axisOf raw = none := by
  cases haxis : axisOf raw with
  | none => rfl
  | some axis => simp [(axisOf_eq_some haxis).1] at h

theorem axisOf_tracks {raw : TouchRaw D} (h : tracks raw = true) : axisOf raw = none := by
  cases haxis : axisOf raw with
  | none => rfl
  | some axis => simp [(axisOf_eq_some haxis).2.1] at h

theorem tracks_selects {raw : TouchRaw D} (h : tracks raw = true) : selects raw = false := by
  simp only [tracks, Bool.and_eq_true, beq_iff_eq] at h
  simp [selects, h, absMtTrackingId, absMtSlot]

section Frame

/-- Every slot's pointer into the pending frame is at an event of that slot. -/
def Indexed (ti : TouchInput F D) : Prop :=
  ∀ i k, (ti.slot i).frameEvent = some k →
    ∃ e : TouchEvent F D, ti.frame[k]? = some e ∧ e.slot = slotNumber i

/-- A change of one slot and of the pending frame on its behalf. Only the event that the slot
points at is rewritten. -/
structure Works (i : Fin touchMaxSlots) (ti ti' : TouchInput F D) : Prop where
  config : ti'.flip = ti.flip ∧ ti'.flipped = ti.flipped
  mode : ti'.discarding = ti.discarding
  selection : ti'.currentSlot = ti.currentSlot
  queue : ti'.ready = ti.ready
  others : ∀ j, j ≠ i → ti'.slot j = ti.slot j
  rest : ∀ (k : Nat) (e : TouchEvent F D), ti.frame[k]? = some e →
    (ti.slot i).frameEvent ≠ some k → ti'.frame[k]? = some e
  kinds : ∀ (k : Nat) (e : TouchEvent F D), ti.frame[k]? = some e →
    ∃ e' : TouchEvent F D, ti'.frame[k]? = some e' ∧ e'.kind = e.kind
  pointer : (ti'.slot i).frameEvent = (ti.slot i).frameEvent ∨
    ∃ k, (ti'.slot i).frameEvent = some k ∧ ti.frame.length ≤ k
  indexed : Indexed ti → Indexed ti'

theorem Works.refl (i : Fin touchMaxSlots) (ti : TouchInput F D) : Works i ti ti where
  config := ⟨rfl, rfl⟩
  mode := rfl
  selection := rfl
  queue := rfl
  others _ _ := rfl
  rest _ _ h _ := h
  kinds _ e h := ⟨e, h, rfl⟩
  pointer := .inl rfl
  indexed := id

theorem Works.length_le {i : Fin touchMaxSlots} {ti ti' : TouchInput F D} (h : Works i ti ti') :
    ti.frame.length ≤ ti'.frame.length := by
  by_contra hlt
  obtain ⟨e, he, _⟩ := h.kinds ti'.frame.length _ (List.getElem?_eq_getElem (by omega))
  simp at he

theorem Works.trans {i : Fin touchMaxSlots} {ti ti' ti'' : TouchInput F D} (h : Works i ti ti')
    (h' : Works i ti' ti'') : Works i ti ti'' where
  config := ⟨h'.config.1.trans h.config.1, h'.config.2.trans h.config.2⟩
  mode := h'.mode.trans h.mode
  selection := h'.selection.trans h.selection
  queue := h'.queue.trans h.queue
  others j hj := (h'.others j hj).trans (h.others j hj)
  rest k e he hk := by
    refine h'.rest k e (h.rest k e he hk) fun hk' => ?_
    have hlt : k < ti.frame.length := (List.getElem?_eq_some_iff.mp he).1
    rcases h.pointer with hsame | ⟨n, hnew, hn⟩
    · exact hk (hsame.symm.trans hk')
    · obtain rfl : n = k := Option.some.inj (hnew.symm.trans hk')
      omega
  kinds k e he := by
    obtain ⟨e', he', hkind⟩ := h.kinds k e he
    obtain ⟨e'', he'', hkind'⟩ := h'.kinds k e' he'
    exact ⟨e'', he'', hkind'.trans hkind⟩
  pointer := by
    rcases h'.pointer with hsame | ⟨n, hnew, hn⟩
    · rw [hsame]
      exact h.pointer
    · exact .inr ⟨n, hnew, h.length_le.trans hn⟩
  indexed := h'.indexed ∘ h.indexed

theorem Works.setSlot (ti : TouchInput F D) (i : Fin touchMaxSlots) (s : TouchSlot F D)
    (hs : s.frameEvent = (ti.slot i).frameEvent) : Works i ti (ti.setSlot i s) where
  config := ⟨rfl, rfl⟩
  mode := rfl
  selection := rfl
  queue := rfl
  others j hj := by rw [setSlot_slot, if_neg hj]
  rest _ _ h _ := h
  kinds _ e h := ⟨e, h, rfl⟩
  pointer := .inl (by rw [setSlot_self, hs])
  indexed h j k hk := by
    refine h j k ?_
    rw [← hk, setSlot_slot]
    split_ifs with hj
    · rw [hj, hs]
    · rfl

theorem Works.append (ti : TouchInput F D) (i : Fin touchMaxSlots) (kind : TouchKind) (t : D) :
    Works i ti (appendFrameEvent ti kind i t) where
  config := ⟨rfl, rfl⟩
  mode := rfl
  selection := rfl
  queue := rfl
  others j hj := by rw [appendFrameEvent_slot, if_neg hj]
  rest k e h _ := by
    rw [appendFrameEvent_frame, List.getElem?_append_left (List.getElem?_eq_some_iff.mp h).1, h]
  kinds k e h := by
    refine ⟨e, ?_, rfl⟩
    rw [appendFrameEvent_frame, List.getElem?_append_left (List.getElem?_eq_some_iff.mp h).1, h]
  pointer := by
    right
    exact ⟨_, by rw [appendFrameEvent_slot, if_pos rfl], le_rfl⟩
  indexed h j k hk := by
    rw [appendFrameEvent_slot] at hk
    rw [appendFrameEvent_frame]
    split_ifs at hk with hj
    · obtain rfl : ti.frame.length = k := Option.some.inj hk
      refine ⟨_, List.getElem?_concat_length, ?_⟩
      rw [hj]
      rfl
    · obtain ⟨e, he, hslot⟩ := h j k hk
      refine ⟨e, ?_, hslot⟩
      rw [List.getElem?_append_left (List.getElem?_eq_some_iff.mp he).1, he]

/-- The slot's own open event gets new coordinates. -/
theorem Works.rewrite {ti : TouchInput F D} {i : Fin touchMaxSlots} {k : Nat}
    {event event' : TouchEvent F D} (hpointer : (ti.slot i).frameEvent = some k)
    (hevent : ti.frame[k]? = some event) (hkind : event'.kind = event.kind)
    (hslot : event'.slot = event.slot) : Works i ti { ti with frame := ti.frame.set k event' } where
  config := ⟨rfl, rfl⟩
  mode := rfl
  selection := rfl
  queue := rfl
  others _ _ := rfl
  rest j e he hj := by
    have hne : k ≠ j := fun hkj => hj (hkj ▸ hpointer)
    exact (List.getElem?_set_ne hne).trans he
  kinds j e he := by
    by_cases hkj : k = j
    · subst hkj
      obtain rfl : event = e := Option.some.inj (hevent.symm.trans he)
      exact ⟨event', List.getElem?_set_self (List.getElem?_eq_some_iff.mp he).1, hkind⟩
    · exact ⟨e, (List.getElem?_set_ne hkj).trans he, rfl⟩
  pointer := .inl rfl
  indexed h j n hn := by
    obtain ⟨e, he, hown⟩ := h j n hn
    by_cases hkn : k = n
    · subst hkn
      obtain rfl : event = e := Option.some.inj (hevent.symm.trans he)
      exact ⟨event', List.getElem?_set_self (List.getElem?_eq_some_iff.mp he).1, hslot.trans hown⟩
    · exact ⟨e, (List.getElem?_set_ne hkn).trans he, hown⟩

/-- An event that no slot points at any more: its coordinates are final. -/
def Closed (ti : TouchInput F D) (k : Nat) (e : TouchEvent F D) : Prop :=
  ti.frame[k]? = some e ∧ ∀ i, (ti.slot i).frameEvent ≠ some k

/-- What every record inside a frame keeps. -/
structure Progress (ti ti' : TouchInput F D) : Prop where
  config : ti'.flip = ti.flip ∧ ti'.flipped = ti.flipped
  mode : ti'.discarding = ti.discarding
  queue : ti'.ready = ti.ready
  kinds : ∀ (k : Nat) (e : TouchEvent F D), ti.frame[k]? = some e →
    ∃ e' : TouchEvent F D, ti'.frame[k]? = some e' ∧ e'.kind = e.kind
  closed : ∀ k e, Closed ti k e → Closed ti' k e
  indexed : Indexed ti → Indexed ti'

theorem Progress.refl (ti : TouchInput F D) : Progress ti ti where
  config := ⟨rfl, rfl⟩
  mode := rfl
  queue := rfl
  kinds _ e h := ⟨e, h, rfl⟩
  closed _ _ h := h
  indexed := id

theorem Progress.trans {ti ti' ti'' : TouchInput F D} (h : Progress ti ti')
    (h' : Progress ti' ti'') : Progress ti ti'' where
  config := ⟨h'.config.1.trans h.config.1, h'.config.2.trans h.config.2⟩
  mode := h'.mode.trans h.mode
  queue := h'.queue.trans h.queue
  kinds k e he := by
    obtain ⟨e', he', hkind⟩ := h.kinds k e he
    obtain ⟨e'', he'', hkind'⟩ := h'.kinds k e' he'
    exact ⟨e'', he'', hkind'.trans hkind⟩
  closed k e he := h'.closed k e (h.closed k e he)
  indexed := h'.indexed ∘ h.indexed

theorem Progress.length_le {ti ti' : TouchInput F D} (h : Progress ti ti') :
    ti.frame.length ≤ ti'.frame.length := by
  by_contra hlt
  obtain ⟨e, he, _⟩ := h.kinds ti'.frame.length _ (List.getElem?_eq_getElem (by omega))
  simp at he

theorem Works.progress {i : Fin touchMaxSlots} {ti ti' : TouchInput F D} (h : Works i ti ti') :
    Progress ti ti' where
  config := h.config
  mode := h.mode
  queue := h.queue
  kinds := h.kinds
  closed k e hclosed := by
    obtain ⟨he, hk⟩ := hclosed
    refine ⟨h.rest k e he (hk i), fun j hj => ?_⟩
    have hlt : k < ti.frame.length := (List.getElem?_eq_some_iff.mp he).1
    by_cases hji : j = i
    · subst hji
      rcases h.pointer with hsame | ⟨n, hnew, hn⟩
      · exact hk j (hsame.symm.trans hj)
      · obtain rfl : n = k := Option.some.inj (hnew.symm.trans hj)
        omega
    · rw [h.others j hji] at hj
      exact hk j hj
  indexed := h.indexed

/-- The only new event of an append. -/
theorem append_new {ti : TouchInput F D} {kind : TouchKind} {i : Fin touchMaxSlots} {t : D} {n : Nat}
    {e : TouchEvent F D} (he : (appendFrameEvent ti kind i t).frame[n]? = some e)
    (hn : ti.frame.length ≤ n) :
    n = ti.frame.length ∧ e.kind = kind := by
  rw [appendFrameEvent_frame] at he
  have hlt := (List.getElem?_eq_some_iff.mp he).1
  rw [List.length_append, List.length_singleton] at hlt
  obtain rfl : n = ti.frame.length := by omega
  rw [List.getElem?_concat_length] at he
  cases he
  exact ⟨rfl, rfl⟩

/-- A contact has landed on a slot in the pending frame, and its DOWN still follows the slot. -/
structure Open (ti : TouchInput F D) (i : Fin touchMaxSlots) (id : Int) (k : Nat)
    (e : TouchEvent F D) : Prop where
  active : (ti.slot i).active = true
  contact : (ti.slot i).trackingId = id
  pointer : (ti.slot i).frameEvent = some k
  event : ti.frame[k]? = some e
  kind : e.kind = .down
  owner : e.slot = slotNumber i
  synced : ∀ axis, eventCoordinate e axis = slotCoordinate (ti.slot i) axis

theorem Open.others {ti : TouchInput F D} {i : Fin touchMaxSlots} {id : Int} {k : Nat}
    {e : TouchEvent F D} (h : Open ti i id k e) (hindexed : Indexed ti) (j : Fin touchMaxSlots)
    (hj : j ≠ i) : (ti.slot j).frameEvent ≠ some k := by
  intro hk
  obtain ⟨e', he', howner⟩ := hindexed j k hk
  obtain rfl : e = e' := Option.some.inj (h.event.symm.trans he')
  exact hj (slotNumber_injective (howner.symm.trans h.owner))

/-- Work on another slot leaves the contact as it is. -/
theorem Open.works {ti ti' : TouchInput F D} {i j : Fin touchMaxSlots} {id : Int} {k : Nat}
    {e : TouchEvent F D} (h : Open ti i id k e) (hindexed : Indexed ti) (hj : j ≠ i)
    (hw : Works j ti ti') : Open ti' i id k e := by
  have hslot : ti'.slot i = ti.slot i := hw.others i (Ne.symm hj)
  refine ⟨?_, ?_, ?_, hw.rest k e h.event (h.others hindexed j hj), h.kind, h.owner, ?_⟩
  · rw [hslot, h.active]
  · rw [hslot, h.contact]
  · rw [hslot, h.pointer]
  · rw [hslot]
    exact h.synced

/-- The slot's next event makes this one final. -/
theorem Open.append_closes {ti : TouchInput F D} {i : Fin touchMaxSlots} {id : Int} {k : Nat}
    {e : TouchEvent F D} (h : Open ti i id k e) (hindexed : Indexed ti) (kind : TouchKind) (t : D) :
    Closed (appendFrameEvent ti kind i t) k e := by
  have hlt : k < ti.frame.length := (List.getElem?_eq_some_iff.mp h.event).1
  constructor
  · rw [appendFrameEvent_frame, List.getElem?_append_left hlt, h.event]
  · intro j
    rw [appendFrameEvent_slot]
    split_ifs with hj
    · intro hk
      obtain rfl : ti.frame.length = k := Option.some.inj hk
      omega
    · exact h.others hindexed j hj

theorem Open.lastSpoke {ti : TouchInput F D} {i : Fin touchMaxSlots} {id : Int} {k : Nat}
    {e : TouchEvent F D} (h : Open ti i id k e) (t : D) :
    Open (ti.setSlot i { ti.slot i with lastSpoke := t }) i id k e := by
  refine ⟨?_, ?_, ?_, h.event, h.kind, h.owner, ?_⟩
  · rw [setSlot_self]
    exact h.active
  · rw [setSlot_self]
    exact h.contact
  · rw [setSlot_self]
    exact h.pointer
  · intro axis
    rw [setSlot_self, h.synced]
    cases axis <;> rfl

end Frame

section Decoder
variable [CFloat F]

theorem landed_works (ti : TouchInput F D) (i : Fin touchMaxSlots) (value : Int) (t : D) :
    Works i ti (landed ti i value t) := by
  have hcancel : Works i ti (if (ti.slot i).active then appendFrameEvent ti .cancel i t else ti) := by
    split
    · exact .append ti i .cancel t
    · exact .refl i ti
  have hslot (ti' : TouchInput F D) :
      Works i ti' (ti'.setSlot i (landedSlot (ti'.slot i) value t)) := .setSlot ti' i _ rfl
  exact hcancel.trans ((hslot _).trans (.append _ i .down t))

theorem handleTrackingId_works {ti : TouchInput F D} {i : Fin touchMaxSlots}
    (hi : selectedSlot ti.currentSlot = some i) (value : Int) (t : D) :
    Works i ti (handleTrackingId ti value t) := by
  have hspoken : Works i ti (ti.setSlot i { ti.slot i with lastSpoke := t }) :=
    .setSlot ti i _ rfl
  apply handleTrackingId_cases (P := Works i ti) ti hi value t
  case quiet => exact fun _ => hspoken
  case lift =>
    rintro _ _ ti' rfl
    exact hspoken.trans ((Works.append _ i .up t).trans (.setSlot _ i _ rfl))
  case land => exact fun _ _ => hspoken.trans (landed_works _ i value t)

/-- A tracking id either belongs to the contact or ends it. -/
theorem Open.track {ti : TouchInput F D} {i : Fin touchMaxSlots} {id : Int} {k : Nat}
    {e : TouchEvent F D} (h : Open ti i id k e) (hindexed : Indexed ti) (hid : id ≠ -1)
    (hselected : ti.currentSlot = slotNumber i) (value : Int) (t : D) :
    if value = id then
      handleTrackingId ti value t = ti.setSlot i { ti.slot i with lastSpoke := t }
    else Closed (handleTrackingId ti value t) k e := by
  have hi : selectedSlot ti.currentSlot = some i := by
    rw [hselected, selectedSlot_slotNumber]
  have hspoken := h.lastSpoke t
  have hspokenWorks : Works i ti (ti.setSlot i { ti.slot i with lastSpoke := t }) :=
    .setSlot ti i _ rfl
  have hspokenIndexed := hspokenWorks.indexed hindexed
  apply handleTrackingId_cases (P := fun ti' => if value = id then
    ti' = ti.setSlot i { ti.slot i with lastSpoke := t } else Closed ti' k e) ti hi value t
  case quiet =>
    rintro (⟨_, hinactive⟩ | ⟨_, _, hsame⟩)
    · exact absurd h.active (by simp [hinactive])
    · rw [if_pos (hsame.symm.trans h.contact)]
  case lift =>
    rintro rfl _ ti' rfl
    rw [if_neg (Ne.symm hid)]
    have hlifted (ti' : TouchInput F D) : Works i ti'
        (ti'.setSlot i { ti'.slot i with active := false, trackingId := -1 }) := .setSlot ti' i _ rfl
    exact (hlifted _).progress.closed k e (hspoken.append_closes hspokenIndexed .up t)
  case land =>
    intro _ hnew
    have hother : value ≠ id := fun heq => hnew ⟨h.active, h.contact.trans heq.symm⟩
    rw [if_neg hother]
    have hclosed := hspoken.append_closes hspokenIndexed .cancel t
    generalize ti.setSlot i { ti.slot i with lastSpoke := t } = spoken at *
    unfold landed
    simp only [hspoken.active, if_true]
    have hreset := Works.setSlot (appendFrameEvent spoken .cancel i t) i
      (landedSlot ((appendFrameEvent spoken .cancel i t).slot i) value t) rfl
    exact (hreset.trans (.append _ i .down t)).progress.closed k e hclosed

/-- A slot made ready for a contact, and the DOWN appended. -/
theorem append_open (ti : TouchInput F D) (i : Fin touchMaxSlots) (value : Int) (t : D) :
    ∃ e, Open (appendFrameEvent (ti.setSlot i (landedSlot (ti.slot i) value t)) .down i t) i value
        ti.frame.length e ∧
      ∀ axis, eventCoordinate e axis = slotCoordinate (ti.slot i) axis ∧
        (slotFilter ((appendFrameEvent (ti.setSlot i (landedSlot (ti.slot i) value t)) .down i t).slot i)
          axis).started = false := by
  have hself : (appendFrameEvent (ti.setSlot i (landedSlot (ti.slot i) value t)) .down i t).slot i =
      { landedSlot (ti.slot i) value t with frameEvent := some ti.frame.length } := by
    rw [appendFrameEvent_slot, if_pos rfl, setSlot_self]
    rfl
  refine ⟨slotEvent (landedSlot (ti.slot i) value t) .down i t, ?_, fun axis => ⟨?_, ?_⟩⟩
  · constructor
    case active => rw [hself]; rfl
    case contact => rw [hself]; rfl
    case pointer => rw [hself]
    case event =>
      rw [appendFrameEvent_frame, setSlot_self, setSlot_frame]
      exact List.getElem?_concat_length
    case kind => rfl
    case owner => rfl
    case synced =>
      intro axis
      rw [hself]
      cases axis <;> rfl
  · cases axis <;> rfl
  · rw [hself]
    cases axis <;> rfl

/-- The DOWN of a new contact has the coordinates that the slot has kept, and the filter is new. -/
theorem landed_open (ti : TouchInput F D) (i : Fin touchMaxSlots) (value : Int) (t : D) :
    ∃ k e, ti.frame.length ≤ k ∧ Open (landed ti i value t) i value k e ∧
      (∀ axis, eventCoordinate e axis = slotCoordinate (ti.slot i) axis ∧
        (slotFilter ((landed ti i value t).slot i) axis).started = false) ∧
      ∀ n e', ti.frame.length ≤ n → (landed ti i value t).frame[n]? = some e' →
        e'.kind = .down → n = k := by
  unfold landed
  by_cases hactive : (ti.slot i).active = true
  · simp only [hactive, if_true]
    have hcoordinate (axis : TouchAxis) : slotCoordinate ((appendFrameEvent ti .cancel i t).slot i) axis =
        slotCoordinate (ti.slot i) axis := by
      rw [appendFrameEvent_slot, if_pos rfl]
      cases axis <;> rfl
    obtain ⟨e, hopen, haxis⟩ := append_open (appendFrameEvent ti .cancel i t) i value t
    refine ⟨_, e, ?_, hopen, fun axis => ?_, fun n e' hn he' hdown => ?_⟩
    · simp
    · rw [← hcoordinate]
      exact haxis axis
    · by_cases hnew : (appendFrameEvent ti .cancel i t).frame.length ≤ n
      · exact (append_new he' hnew).1
      · rw [appendFrameEvent_frame, setSlot_frame, List.getElem?_append_left (by omega)] at he'
        rw [(append_new he' hn).2] at hdown
        cases hdown
  · simp only [hactive, if_false, Bool.false_eq_true]
    obtain ⟨e, hopen, haxis⟩ := append_open ti i value t
    exact ⟨_, e, le_rfl, hopen, haxis, fun n e' hn he' _ => (append_new he' hn).1⟩

theorem handleTrackingId_appended {ti : TouchInput F D} {i : Fin touchMaxSlots} (value : Int) (t : D)
    (hi : selectedSlot ti.currentSlot = some i) (hquiet : value = -1 ∨
      (ti.slot i).active = true ∧ (ti.slot i).trackingId = value) {n : Nat} {e : TouchEvent F D}
    (hn : ti.frame.length ≤ n) (he : (handleTrackingId ti value t).frame[n]? = some e) :
    e.kind ≠ .down := by
  revert he
  apply handleTrackingId_cases (P := fun ti' => ti'.frame[n]? = some e → e.kind ≠ .down) ti hi value t
  case quiet =>
    intro _ he
    rw [setSlot_frame, List.getElem?_eq_none hn] at he
    cases he
  case lift =>
    rintro _ _ ti' rfl he
    rw [setSlot_frame] at he
    rw [(append_new he hn).2]
    decide
  case land =>
    intro hdown hnew
    exact absurd (hquiet.resolve_left hdown) hnew

variable [CFloat D] [CDouble F D]

theorem filterPosition_frameEvent (ti : TouchInput F D) (slot : TouchSlot F D) (code : Nat)
    (value : Int) (t : D) :
    (filterPosition ti slot code value t).frameEvent = slot.frameEvent := by
  unfold filterPosition
  simp only
  split <;> split <;> rfl

theorem handlePosition_works {ti : TouchInput F D} {i : Fin touchMaxSlots}
    (hi : selectedSlot ti.currentSlot = some i) (code : Nat) (value : Int) (t : D) :
    Works i ti (handlePosition ti code value t) := by
  have hspoken : Works i ti (ti.setSlot i { ti.slot i with lastSpoke := t }) := .setSlot ti i _ rfl
  apply handlePosition_cases (P := Works i ti) ti hi code value t
  case quiet => exact fun _ => hspoken
  case place =>
    rintro _ spoken slot rfl rfl
    generalize ti.setSlot i { ti.slot i with lastSpoke := t } = spoken at *
    have hslot := hspoken.trans
      (.setSlot spoken i _ (filterPosition_frameEvent spoken (spoken.slot i) code value t))
    refine ⟨fun k event hopen => hslot.trans ?_, fun _ => hslot.trans (.append _ i .move t)⟩
    obtain ⟨hpointer, hevent⟩ := openFrameEvent_eq hopen
    refine Works.rewrite ?_ hevent rfl rfl
    rw [setSlot_self]
    exact hpointer

/-- A record inside a frame, by what it carries. -/
theorem feedOne_plain {ti : TouchInput F D} {raw : TouchRaw D} (hd : ti.discarding = false)
    (hraw : Plain raw) : feedOne ti raw =
      if selects raw then { ti with currentSlot := raw.value }
      else if tracks raw then handleTrackingId ti raw.value raw.t
      else (axisOf raw).elim ti fun axis =>
        handlePosition ti (axisCode axis) raw.value raw.t := by
  unfold feedOne selects tracks axisOf
  simp only [hraw.1, hraw.2, hd, Bool.false_eq_true, if_false, Bool.and_eq_true, beq_iff_eq]
  by_cases htype : raw.type = evAbs
  · simp only [htype, ne_eq, not_true_eq_false, if_false, true_and]
    split_ifs with hslot hid hpos hx hy hx hy
    · rfl
    · rfl
    · simp [axisCode, hx]
    · simp [axisCode, hy]
    · simp_all
    · simp_all
    · simp_all
    · rfl
  · simp [htype]

/-- A record inside a frame selects a slot, works on the selected one, or does nothing. -/
theorem feedOne_cases_plain {ti : TouchInput F D} {raw : TouchRaw D} (hd : ti.discarding = false)
    (hraw : Plain raw) :
    selects raw = true ∧ feedOne ti raw = { ti with currentSlot := raw.value } ∨
      selects raw = false ∧ (feedOne ti raw = ti ∨
        ∃ j, ti.currentSlot = slotNumber j ∧ Works j ti (feedOne ti raw)) := by
  rw [feedOne_plain hd hraw]
  cases hselects : selects raw with
  | true => exact .inl ⟨rfl, rfl⟩
  | false =>
    refine .inr ⟨rfl, ?_⟩
    cases hslot : selectedSlot ti.currentSlot with
    | none =>
      left
      cases axisOf raw <;> simp [handleTrackingId, handlePosition, hslot]
    | some j =>
      have hj : ti.currentSlot = slotNumber j := (slotNumber_of_selectedSlot hslot).symm
      simp only [Bool.false_eq_true, if_false]
      split
      · exact .inr ⟨j, hj, handleTrackingId_works hslot raw.value raw.t⟩
      cases axisOf raw with
      | none => exact .inl rfl
      | some axis => exact .inr ⟨j, hj, handlePosition_works hslot (axisCode axis) raw.value raw.t⟩

theorem feedOne_progress {ti : TouchInput F D} {raw : TouchRaw D} (hd : ti.discarding = false)
    (hraw : Plain raw) : Progress ti (feedOne ti raw) := by
  obtain ⟨_, heq⟩ | ⟨_, heq | ⟨j, _, hw⟩⟩ := feedOne_cases_plain hd hraw
  · rw [heq]
    exact ⟨⟨rfl, rfl⟩, rfl, rfl, fun _ e h => ⟨e, h, rfl⟩, fun _ _ h => h, id⟩
  · rw [heq]
    exact .refl ti
  · exact hw.progress

theorem feedOne_currentSlot {ti : TouchInput F D} {raw : TouchRaw D} (hd : ti.discarding = false)
    (hraw : Plain raw) :
    (feedOne ti raw).currentSlot = if selects raw then raw.value else ti.currentSlot := by
  obtain ⟨hselects, heq⟩ | ⟨hselects, heq | ⟨j, _, hw⟩⟩ := feedOne_cases_plain hd hraw
  · simp [hselects, heq]
  · simp [hselects, heq]
  · simp [hselects, hw.selection]

theorem feed_progress {ti : TouchInput F D} {records : List (TouchRaw D)}
    (hd : ti.discarding = false) (hplain : ∀ r ∈ records, Plain r) :
    Progress ti (records.foldl feedOne ti) := by
  induction records generalizing ti with
  | nil => exact .refl ti
  | cons r rest ih =>
    have hfirst := feedOne_progress hd (hplain r List.mem_cons_self)
    have hrest := ih (hfirst.mode.trans hd) fun r' hr' => hplain r' (List.mem_cons_of_mem _ hr')
    exact hfirst.trans hrest

/-- A position passes the filter of its own axis and leaves the other axis alone. -/
theorem filterPosition_axis (ti : TouchInput F D) (slot : TouchSlot F D) (axis : TouchAxis)
    (value : Int) (t : D) : ∃ time : F,
      slotCoordinate (filterPosition ti slot (axisCode axis) value t) axis =
        (oneeuroApply (slotFilter slot axis)
          (ofInt (touchFlipValue ti.flip axis value ti.flipped)) time).1 ∧
      slotFilter (filterPosition ti slot (axisCode axis) value t) axis =
        (oneeuroApply (slotFilter slot axis)
          (ofInt (touchFlipValue ti.flip axis value ti.flipped)) time).2 ∧
      ∀ other, other ≠ axis →
        slotCoordinate (filterPosition ti slot (axisCode axis) value t) other =
          slotCoordinate slot other ∧
        slotFilter (filterPosition ti slot (axisCode axis) value t) other = slotFilter slot other := by
  have hcode : axisCode .y ≠ absMtPositionX := by decide
  cases axis with
  | x =>
    have hother (slot' : TouchSlot F D) (other : TouchAxis) (h : other ≠ .x)
        (hy : slot'.y = slot.y) (hfy : slot'.fy = slot.fy) :
        slotCoordinate slot' other = slotCoordinate slot other ∧
          slotFilter slot' other = slotFilter slot other := by
      cases other with
      | x => exact absurd rfl h
      | y => exact ⟨hy, hfy⟩
    cases hstarted : slot.filterTimeStarted <;>
      simp only [filterPosition, axisCode, hstarted, Bool.not_true, Bool.not_false,
        Bool.false_eq_true, if_true, if_false] <;>
      exact ⟨_, rfl, rfl, fun other h => hother _ other h rfl rfl⟩
  | y =>
    have hother (slot' : TouchSlot F D) (other : TouchAxis) (h : other ≠ .y)
        (hx : slot'.x = slot.x) (hfx : slot'.fx = slot.fx) :
        slotCoordinate slot' other = slotCoordinate slot other ∧
          slotFilter slot' other = slotFilter slot other := by
      cases other with
      | x => exact ⟨hx, hfx⟩
      | y => exact absurd rfl h
    cases hstarted : slot.filterTimeStarted <;>
      simp only [filterPosition, hcode, hstarted, Bool.not_true, Bool.not_false,
        Bool.false_eq_true, if_true, if_false] <;>
      exact ⟨_, rfl, rfl, fun other h => hother _ other h rfl rfl⟩

/-- A position moves the contact's DOWN along. -/
theorem Open.place {ti : TouchInput F D} {i : Fin touchMaxSlots} {id : Int} {k : Nat}
    {e : TouchEvent F D} (h : Open ti i id k e) (hselected : ti.currentSlot = slotNumber i)
    (axis : TouchAxis) (value : Int) (t : D) : ∃ (e' : TouchEvent F D) (time : F),
      Open (handlePosition ti (axisCode axis) value t) i id k e' ∧
      eventCoordinate e' axis = (oneeuroApply (slotFilter (ti.slot i) axis)
        (ofInt (touchFlipValue ti.flip axis value ti.flipped)) time).1 ∧
      ∀ other, other ≠ axis → eventCoordinate e' other = eventCoordinate e other ∧
        slotFilter ((handlePosition ti (axisCode axis) value t).slot i) other =
          slotFilter (ti.slot i) other := by
  have hi : selectedSlot ti.currentSlot = some i := by
    rw [hselected, selectedSlot_slotNumber]
  have hspoken := h.lastSpoke t
  have hfilter (a : TouchAxis) : slotFilter ((ti.setSlot i { ti.slot i with lastSpoke := t }).slot i) a =
      slotFilter (ti.slot i) a := by
    rw [setSlot_self]
    cases a <;> rfl
  have hconfig : (ti.setSlot i { ti.slot i with lastSpoke := t }).flip = ti.flip ∧
      (ti.setSlot i { ti.slot i with lastSpoke := t }).flipped = ti.flipped := ⟨rfl, rfl⟩
  unfold handlePosition
  rw [hi]
  simp only
  generalize ti.setSlot i { ti.slot i with lastSpoke := t } = spoken at *
  obtain ⟨time, hown, _, hother⟩ := filterPosition_axis spoken (spoken.slot i) axis value t
  obtain ⟨hactive, _, hid⟩ := filterPosition_keeps spoken (spoken.slot i) (axisCode axis) value t
  have hpointer := filterPosition_frameEvent spoken (spoken.slot i) (axisCode axis) value t
  generalize filterPosition spoken (spoken.slot i) (axisCode axis) value t = slot at *
  have hopen : openFrameEvent (spoken.setSlot i slot) slot = some (k, e) := by
    unfold openFrameEvent
    rw [hpointer, hspoken.pointer, Option.bind_some, setSlot_frame, hspoken.event, Option.bind_some,
      if_pos (.inl h.kind)]
  simp only [hspoken.active, Bool.not_true, Bool.false_eq_true, if_false, hopen]
  have hlt : k < spoken.frame.length := (List.getElem?_eq_some_iff.mp hspoken.event).1
  have hself : (spoken.setSlot i slot).slot i = slot := setSlot_self spoken i slot
  have hsynced (a : TouchAxis) :
      eventCoordinate { e with x := slot.x, y := slot.y, t := t } a = slotCoordinate slot a := by
    cases a <;> rfl
  refine ⟨{ e with x := slot.x, y := slot.y, t := t }, time, ?_, ?_, fun other hne => ⟨?_, ?_⟩⟩
  · constructor
    case active => exact (congrArg _ hself).trans (hactive.trans hspoken.active)
    case contact => exact (congrArg _ hself).trans (hid.trans hspoken.contact)
    case pointer => exact (congrArg _ hself).trans (hpointer.trans hspoken.pointer)
    case event => exact List.getElem?_set_self hlt
    case kind => exact h.kind
    case owner => exact h.owner
    case synced =>
      intro a
      exact (hsynced a).trans (congrArg (slotCoordinate · a) hself.symm)
  · rw [hsynced, hown, hfilter, hconfig.1, hconfig.2]
  · rw [hsynced, (hother other hne).1, ← hspoken.synced]
  · rw [← hfilter, ← (hother other hne).2]
    exact congrArg (slotFilter · other) hself

/-- A record that is not about the slot leaves its contact as it is. -/
theorem Open.elsewhere {ti : TouchInput F D} {i : Fin touchMaxSlots} {id : Int} {k : Nat}
    {e : TouchEvent F D} (h : Open ti i id k e) (hindexed : Indexed ti)
    (hd : ti.discarding = false) {raw : TouchRaw D} (hraw : Plain raw)
    (hslot : ti.currentSlot ≠ slotNumber i ∨ tracks raw = false ∧ axisOf raw = none) :
    Open (feedOne ti raw) i id k e ∧ (feedOne ti raw).slot i = ti.slot i := by
  obtain ⟨_, heq⟩ | ⟨hselects, heq | ⟨j, hj, hw⟩⟩ := feedOne_cases_plain hd hraw
  · rw [heq]
    exact ⟨⟨h.active, h.contact, h.pointer, h.event, h.kind, h.owner, h.synced⟩, rfl⟩
  · rw [heq]
    exact ⟨h, rfl⟩
  · rcases hslot with hother | ⟨hid, haxis⟩
    · have hne : j ≠ i := by
        rintro rfl
        exact hother hj
      exact ⟨h.works hindexed hne hw, hw.others i (Ne.symm hne)⟩
    · have hsame : feedOne ti raw = ti := by simp [feedOne_plain hd hraw, hselects, hid, haxis]
      rw [hsame]
      exact ⟨h, rfl⟩

/-- One record ends the contact, moves it along an axis or leaves it alone. -/
theorem Open.step {ti : TouchInput F D} {i : Fin touchMaxSlots} {id : Int} {k : Nat}
    {e : TouchEvent F D} (h : Open ti i id k e) (hindexed : Indexed ti) (hid : id ≠ -1)
    (hd : ti.discarding = false) {raw : TouchRaw D} (hraw : Plain raw) (axis : TouchAxis) :
    if ti.currentSlot = slotNumber i ∧ tracks raw = true ∧ raw.value ≠ id then
      Closed (feedOne ti raw) k e
    else ∃ e', Open (feedOne ti raw) i id k e' ∧
      if ti.currentSlot = slotNumber i ∧ axisOf raw = some axis then
        ∃ time, eventCoordinate e' axis = (oneeuroApply (slotFilter (ti.slot i) axis)
          (ofInt (touchFlipValue ti.flip axis raw.value ti.flipped)) time).1
      else eventCoordinate e' axis = eventCoordinate e axis ∧
        slotFilter ((feedOne ti raw).slot i) axis = slotFilter (ti.slot i) axis := by
  by_cases hslot : ti.currentSlot = slotNumber i
  · cases htrack : tracks raw with
    | true =>
      have htracked := h.track hindexed hid hslot raw.value raw.t
      have hfeed : feedOne ti raw = handleTrackingId ti raw.value raw.t := by
        simp [feedOne_plain hd hraw, tracks_selects htrack, htrack]
      rw [hfeed]
      by_cases hsame : raw.value = id
      · rw [if_pos hsame] at htracked
        rw [if_neg fun hends => hends.2.2 hsame, htracked]
        refine ⟨e, h.lastSpoke raw.t, ?_⟩
        rw [if_neg (by simp [axisOf_tracks htrack]), setSlot_self]
        refine ⟨rfl, ?_⟩
        cases axis <;> rfl
      · rw [if_neg hsame] at htracked
        rwa [if_pos ⟨hslot, rfl, hsame⟩]
    | false =>
      rw [if_neg (by simp)]
      cases haxis : axisOf raw with
      | none =>
        obtain ⟨hopen, hkept⟩ := h.elsewhere hindexed hd hraw (.inr ⟨htrack, haxis⟩)
        refine ⟨e, hopen, ?_⟩
        rw [if_neg (by simp), hkept]
        exact ⟨rfl, rfl⟩
      | some a =>
        have hfeed : feedOne ti raw = handlePosition ti (axisCode a) raw.value raw.t := by
          simp [feedOne_plain hd hraw, (axisOf_eq_some haxis).1, htrack, haxis]
        obtain ⟨e', time, hopen, hown, hother⟩ := h.place hslot a raw.value raw.t
        rw [hfeed]
        refine ⟨e', hopen, ?_⟩
        by_cases ha : a = axis
        · subst ha
          rw [if_pos ⟨hslot, rfl⟩]
          exact ⟨time, hown⟩
        · rw [if_neg (by simp [ha])]
          exact hother axis (Ne.symm ha)
  · rw [if_neg fun hends => hslot hends.1]
    obtain ⟨hopen, hkept⟩ := h.elsewhere hindexed hd hraw (.inl hslot)
    refine ⟨e, hopen, ?_⟩
    rw [if_neg fun hsends => hslot hsends.1, hkept]
    exact ⟨rfl, rfl⟩

theorem oneeuroApply_fresh {filter : OneEuro F} (h : filter.started = false) (x t : F) :
    (oneeuroApply filter x t).1 = x := by
  simp [oneeuroApply, h]

theorem handlePosition_appended (ti : TouchInput F D) (code : Nat) (value : Int) (t : D) {n : Nat}
    {e : TouchEvent F D} (hn : ti.frame.length ≤ n)
    (he : (handlePosition ti code value t).frame[n]? = some e) : e.kind ≠ .down := by
  have hnone {events : List (TouchEvent F D)} (hlength : events.length = ti.frame.length)
      (he : events[n]? = some e) : e.kind ≠ .down := by
    rw [List.getElem?_eq_none (hlength.le.trans hn)] at he
    cases he
  revert he
  cases hi : selectedSlot ti.currentSlot with
  | none =>
    intro he
    simp only [handlePosition, hi] at he
    exact hnone rfl he
  | some i =>
    apply handlePosition_cases (P := fun ti' => ti'.frame[n]? = some e → e.kind ≠ .down) ti hi code value t
    case quiet => exact fun _ he => hnone rfl he
    case place =>
      rintro _ spoken slot rfl rfl
      refine ⟨fun k event _ he => hnone List.length_set he, fun _ he => ?_⟩
      rw [(append_new he hn).2]
      decide

/-- Only a landing puts a DOWN into the frame. -/
theorem feedOne_appended {ti : TouchInput F D} {raw : TouchRaw D} (hd : ti.discarding = false)
    (hraw : Plain raw) (hland : ∀ i, ¬ Lands ti raw i) {n : Nat} {e : TouchEvent F D}
    (hn : ti.frame.length ≤ n) (he : (feedOne ti raw).frame[n]? = some e) : e.kind ≠ .down := by
  have hsame {ti' : TouchInput F D} (h : ti'.frame = ti.frame) (he : ti'.frame[n]? = some e) :
      e.kind ≠ .down := by
    rw [h, List.getElem?_eq_none hn] at he
    cases he
  rw [feedOne_plain hd hraw] at he
  split at he
  · exact hsame rfl he
  split at he
  · rename_i htracks
    cases hi : selectedSlot ti.currentSlot with
    | none => exact hsame (by simp [handleTrackingId, hi]) he
    | some i =>
      refine handleTrackingId_appended raw.value raw.t hi ?_ hn he
      by_contra hnew
      rw [not_or] at hnew
      exact hland i ⟨htracks, (slotNumber_of_selectedSlot hi).symm, hnew⟩
  cases haxis : axisOf raw with
  | none =>
    rw [haxis] at he
    exact hsame rfl he
  | some axis =>
    rw [haxis] at he
    exact handlePosition_appended ti (axisCode axis) raw.value raw.t hn he

/-- What a landing leaves in the frame and in the slot. -/
theorem Lands.opens {ti : TouchInput F D} {raw : TouchRaw D} {i : Fin touchMaxSlots}
    (h : Lands ti raw i) (hd : ti.discarding = false) (hraw : Plain raw) :
    ∃ k e, ti.frame.length ≤ k ∧ Open (feedOne ti raw) i raw.value k e ∧
      (∀ axis, eventCoordinate e axis = slotCoordinate (ti.slot i) axis ∧
        (slotFilter ((feedOne ti raw).slot i) axis).started = false) ∧
      ∀ n e', ti.frame.length ≤ n → (feedOne ti raw).frame[n]? = some e' →
        e'.kind = .down → n = k := by
  obtain ⟨htracks, hselected, hid, hnew⟩ := h
  have hi : selectedSlot ti.currentSlot = some i := by
    rw [hselected, selectedSlot_slotNumber]
  have hfeed : feedOne ti raw = handleTrackingId ti raw.value raw.t := by
    simp [feedOne_plain hd hraw, tracks_selects htracks, htracks]
  have hcoordinate (axis : TouchAxis) :
      slotCoordinate ((ti.setSlot i { ti.slot i with lastSpoke := raw.t }).slot i) axis =
        slotCoordinate (ti.slot i) axis := by
    rw [setSlot_self]
    cases axis <;> rfl
  have hland : handleTrackingId ti raw.value raw.t =
      landed (ti.setSlot i { ti.slot i with lastSpoke := raw.t }) i raw.value raw.t := by
    apply handleTrackingId_cases (P := fun ti' =>
      ti' = landed (ti.setSlot i { ti.slot i with lastSpoke := raw.t }) i raw.value raw.t)
      ti hi raw.value raw.t
    case quiet =>
      rintro (⟨hlift, _⟩ | ⟨_, hsame⟩)
      · exact absurd hlift hid
      · exact absurd hsame hnew
    case lift => exact fun hlift => absurd hlift hid
    case land => exact fun _ _ => rfl
  rw [hfeed, hland]
  obtain ⟨k, e, hk, hopen, haxis, hdown⟩ :=
    landed_open (ti.setSlot i { ti.slot i with lastSpoke := raw.t }) i raw.value raw.t
  exact ⟨k, e, hk, hopen, fun axis => ⟨(haxis axis).1.trans (hcoordinate axis), (haxis axis).2⟩, hdown⟩

end Decoder

end Taq102.Touch.PendingFrame
