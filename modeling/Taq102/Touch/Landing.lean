import Taq102.Touch.ContactStream
import Taq102.Touch.PendingFrame

/-! Where a new contact is reported. A slot keeps its coordinates between contacts, and the
controller leaves out an axis whose value has not changed, so a DOWN event can carry a coordinate
that the decoder worked out for an earlier contact. -/
namespace Taq102.Touch.Landing
open Taq102.Lib CFloat Transition ContactStream Evdev PendingFrame
variable {F D : Type}

/-- A controller as its records show it: the slot it has selected, the last value it has sent for
each slot and axis, and the slots that have had a contact. -/
structure Controller where
  selected : Int
  sent : Int → TouchAxis → Option Int
  begun : Int → Bool

def Controller.start : Controller :=
  { selected := 0, sent := fun _ _ => none, begun := fun _ => false }

def Controller.send (c : Controller) (raw : TouchRaw D) : Controller :=
  if selects raw then { c with selected := raw.value }
  else if tracks raw then
    if raw.value = -1 then c else { c with begun := Function.update c.begun c.selected true }
  else (axisOf raw).elim c fun axis =>
    let values := Function.update (c.sent c.selected) axis (some raw.value)
    { c with sent := Function.update c.sent c.selected values }

/-- Each record with the slot selected when it is sent. -/
def addressed (selected : Int) : List (TouchRaw D) → List (Int × TouchRaw D)
  | [] => []
  | raw :: rest => (selected, raw) :: addressed (if selects raw then raw.value else selected) rest

/-- What the records send for one axis of a slot. -/
def axisValues (slot : Int) (axis : TouchAxis) (records : List (Int × TouchRaw D)) : List Int :=
  records.filterMap fun record =>
    if record.1 = slot ∧ axisOf record.2 = some axis then some record.2.value else none

/-- The records up to the slot's next change of contact. -/
def contactPart (slot id : Int) (records : List (Int × TouchRaw D)) : List (Int × TouchRaw D) :=
  records.takeWhile fun record => !(record.1 == slot && tracks record.2 && record.2.value != id)

/-- No slot sends an axis twice. -/
def Once (selected : Int) (records : List (TouchRaw D)) : Prop :=
  (addressed selected records).Pairwise fun first later =>
    axisOf first.2 ≠ none → axisOf first.2 = axisOf later.2 → first.1 ≠ later.1

section Controller

theorem send_selected (c : Controller) (raw : TouchRaw D) :
    (c.send raw).selected = if selects raw then raw.value else c.selected := by
  unfold Controller.send
  split
  · rfl
  split
  · split <;> rfl
  · cases axisOf raw <;> rfl

theorem send_sent (c : Controller) (raw : TouchRaw D) (slot : Int) (axis : TouchAxis) :
    (c.send raw).sent slot axis =
      if c.selected = slot ∧ axisOf raw = some axis then some raw.value else c.sent slot axis := by
  unfold Controller.send
  by_cases hs : selects raw = true
  · simp [hs, axisOf_selects hs]
  by_cases ht : tracks raw = true
  · by_cases hlift : raw.value = -1 <;> simp [hs, ht, hlift, axisOf_tracks ht]
  · simp only [hs, ht]
    cases haxis : axisOf raw with
    | none => simp
    | some a =>
      by_cases hslot : c.selected = slot
      · subst hslot
        by_cases ha : a = axis
        · simp [ha]
        · simp [Function.update_of_ne (Ne.symm ha), ha]
      · simp [Function.update_of_ne (Ne.symm hslot), hslot]

theorem axisValues_cons (slot : Int) (axis : TouchAxis) (record : Int × TouchRaw D)
    (rest : List (Int × TouchRaw D)) : axisValues slot axis (record :: rest) =
      if record.1 = slot ∧ axisOf record.2 = some axis then
        record.2.value :: axisValues slot axis rest
      else axisValues slot axis rest := by
  unfold axisValues
  rw [List.filterMap_cons]
  split_ifs <;> rfl

/-- The last value sent is the current coordinate. -/
theorem foldl_send_sent (c : Controller) (records : List (TouchRaw D)) (slot : Int)
    (axis : TouchAxis) : (records.foldl Controller.send c).sent slot axis =
      (axisValues slot axis (addressed c.selected records)).getLast?.or (c.sent slot axis) := by
  induction records generalizing c with
  | nil => rfl
  | cons raw rest ih =>
    rw [List.foldl_cons, ih, addressed, axisValues_cons, send_selected, send_sent]
    by_cases hs : selects raw = true
    · simp [hs, axisOf_selects hs]
    · by_cases hsends : c.selected = slot ∧ axisOf raw = some axis
      · simp only [hs, hsends, and_self, if_true, Bool.false_eq_true, if_false, List.getLast?_cons]
        cases (axisValues slot axis (addressed slot rest)).getLast? <;> rfl
      · simp [hs, hsends]

theorem contactPart_cons (slot id : Int) (record : Int × TouchRaw D)
    (rest : List (Int × TouchRaw D)) : contactPart slot id (record :: rest) =
      if record.1 = slot ∧ tracks record.2 = true ∧ record.2.value ≠ id then []
      else record :: contactPart slot id rest := by
  unfold contactPart
  rw [List.takeWhile_cons]
  by_cases hends : record.1 = slot ∧ tracks record.2 = true ∧ record.2.value ≠ id
  · simp [hends]
  · rw [if_neg hends, if_pos]
    by_contra hkept
    exact hends (by simpa [and_assoc] using hkept)

theorem axisValues_append (slot : Int) (axis : TouchAxis) (before after : List (Int × TouchRaw D)) :
    axisValues slot axis (before ++ after) = axisValues slot axis before ++ axisValues slot axis after :=
  List.filterMap_append

theorem Once.cons {selected : Int} {raw : TouchRaw D} {rest : List (TouchRaw D)}
    (h : Once selected (raw :: rest)) : Once (if selects raw then raw.value else selected) rest :=
  (List.pairwise_cons.mp h).2

/-- Each axis of a slot has at most one value in a frame. -/
theorem axisValues_length_le {records : List (Int × TouchRaw D)}
    (h : records.Pairwise fun first later =>
      axisOf first.2 ≠ none → axisOf first.2 = axisOf later.2 → first.1 ≠ later.1)
    (slot : Int) (axis : TouchAxis) : (axisValues slot axis records).length ≤ 1 := by
  induction records with
  | nil => exact Nat.zero_le 1
  | cons record rest ih =>
    obtain ⟨hfirst, hrest⟩ := List.pairwise_cons.mp h
    rw [axisValues_cons]
    split_ifs with hsends
    · have hnone : axisValues slot axis rest = [] := by
        refine List.filterMap_eq_nil_iff.mpr fun later hlater => if_neg ?_
        rintro ⟨hslot, haxis⟩
        refine hfirst later hlater ?_ (hsends.2.trans haxis.symm) (hsends.1.trans hslot.symm)
        simp [hsends.2]
      rw [hnone]
      rfl
    · exact ih hrest

/-- What a contact sends for an axis is all that the slot sends for it. -/
theorem contactPart_values {selected : Int} {records : List (TouchRaw D)}
    (honce : Once selected records) (slot id : Int) (axis : TouchAxis) :
    axisValues slot axis (contactPart slot id (addressed selected records)) = [] ∨
      ∃ v, axisValues slot axis (contactPart slot id (addressed selected records)) = [v] ∧
        axisValues slot axis (addressed selected records) = [v] := by
  have hall := axisValues_length_le honce slot axis
  obtain ⟨later, hsplit⟩ : contactPart slot id (addressed selected records) <+:
      addressed selected records := List.takeWhile_prefix _
  have hwhole : axisValues slot axis (addressed selected records) =
      axisValues slot axis (contactPart slot id (addressed selected records)) ++
        axisValues slot axis later := by rw [← axisValues_append, hsplit]
  rw [hwhole] at hall ⊢
  cases hvalues : axisValues slot axis (contactPart slot id (addressed selected records)) with
  | nil => exact .inl rfl
  | cons v tail =>
    rw [hvalues, List.cons_append, List.length_cons] at hall
    have hnone : tail ++ axisValues slot axis later = [] :=
      List.length_eq_zero_iff.mp (by omega)
    obtain ⟨rfl, hlater⟩ := List.append_eq_nil_iff.mp hnone
    refine .inr ⟨v, rfl, ?_⟩
    rw [hlater]
    rfl

end Controller

section Frame
variable [CFloat F]

/-- The event is where the controller has the slot, in the orientation in force. -/
def AtFinger (ti : TouchInput F D) (c : Controller) (e : TouchEvent F D) : Prop :=
  ∀ axis, ∃ v, c.sent e.slot axis = some v ∧
    eventCoordinate e axis = ofInt (touchFlipValue ti.flip axis v ti.flipped)

theorem atFinger_congr {ti ti' : TouchInput F D} (h : ti'.flip = ti.flip ∧ ti'.flipped = ti.flipped)
    (c : Controller) (e : TouchEvent F D) : AtFinger ti' c e ↔ AtFinger ti c e := by
  unfold AtFinger
  rw [h.1, h.2]

variable [CFloat D] [CDouble F D]

/-- Where a contact that the records begin leaves an axis out, the decoder has the slot stored where
the controller has it. -/
def OmittedStored (ti : TouchInput F D) (c : Controller) (records : List (TouchRaw D)) : Prop :=
  ∀ before r after, records = before ++ r :: after → ∀ i, Lands (before.foldl feedOne ti) r i →
    ∀ axis, axisValues (slotNumber i) axis
        (contactPart (slotNumber i) r.value (addressed (slotNumber i) after)) = [] →
      ∃ v, (records.foldl Controller.send c).sent (slotNumber i) axis = some v ∧
        slotCoordinate ((before.foldl feedOne ti).slot i) axis =
          ofInt (touchFlipValue ti.flip axis v ti.flipped)

/-- The rest of the frame gives a contact's DOWN the value it sends for the axis, and leaves the
coordinate alone when it sends none. -/
theorem settles {ti : TouchInput F D} {i : Fin touchMaxSlots} {id : Int} {k : Nat}
    {e : TouchEvent F D} (h : Open ti i id k e) (hindexed : Indexed ti) (hid : id ≠ -1)
    (hd : ti.discarding = false) {records : List (TouchRaw D)} (hplain : ∀ r ∈ records, Plain r)
    (axis : TouchAxis) {values : List Int}
    (hvalues : values = axisValues (slotNumber i) axis
      (contactPart (slotNumber i) id (addressed ti.currentSlot records)))
    (honce : values.length ≤ 1)
    (hfresh : values ≠ [] → (slotFilter (ti.slot i) axis).started = false) :
    ∃ e', (records.foldl feedOne ti).frame[k]? = some e' ∧ e'.slot = slotNumber i ∧
      eventCoordinate e' axis = values.head?.elim (eventCoordinate e axis) fun v =>
        ofInt (touchFlipValue ti.flip axis v ti.flipped) := by
  induction records generalizing ti e values with
  | nil =>
    subst hvalues
    exact ⟨e, h.event, h.owner, rfl⟩
  | cons raw rest ih =>
    have hraw : Plain raw := hplain raw List.mem_cons_self
    have hrest : ∀ r ∈ rest, Plain r := fun r hr => hplain r (List.mem_cons_of_mem _ hr)
    have hprogress := feedOne_progress hd hraw
    have hd' : (feedOne ti raw).discarding = false := hprogress.mode.trans hd
    have hstep := h.step hindexed hid hd hraw axis
    rw [addressed, contactPart_cons] at hvalues
    rw [List.foldl_cons]
    by_cases hends : ti.currentSlot = slotNumber i ∧ tracks raw = true ∧ raw.value ≠ id
    · rw [if_pos hends] at hstep hvalues
      subst hvalues
      have hfinal := (feed_progress hd' hrest).closed k e hstep
      exact ⟨e, hfinal.1, h.owner, rfl⟩
    · rw [if_neg hends] at hstep hvalues
      rw [axisValues_cons, ← feedOne_currentSlot hd hraw] at hvalues
      obtain ⟨e', hopen, hmoved⟩ := hstep
      by_cases hsends : ti.currentSlot = slotNumber i ∧ axisOf raw = some axis
      · rw [if_pos hsends] at hmoved hvalues
        obtain ⟨time, hcoordinate⟩ := hmoved
        -- the axis is sent only once, so the filter sees no second sample
        have hlast : axisValues (slotNumber i) axis (contactPart (slotNumber i) id
            (addressed (feedOne ti raw).currentSlot rest)) = [] := by
          rw [hvalues, List.length_cons] at honce
          exact List.length_eq_zero_iff.mp (by omega)
        rw [oneeuroApply_fresh (hfresh (by simp [hvalues]))] at hcoordinate
        obtain ⟨final, hfinal, howner, hvalue⟩ := ih hopen (hprogress.indexed hindexed) hd' hrest
          hlast.symm (by simp) (by simp)
        refine ⟨final, hfinal, howner, ?_⟩
        rw [hvalue, hvalues]
        exact hcoordinate
      · rw [if_neg hsends] at hmoved hvalues
        obtain ⟨final, hfinal, howner, hvalue⟩ := ih hopen (hprogress.indexed hindexed) hd' hrest
          hvalues honce (fun hne => hmoved.2 ▸ hfresh hne)
        refine ⟨final, hfinal, howner, ?_⟩
        rw [hvalue, hmoved.1, hprogress.config.1, hprogress.config.2]

/-- The DOWN of one landing at the end of the frame: an axis is where the contact sends it, or where
the slot had it before. -/
theorem landing_settles {ti : TouchInput F D} {raw : TouchRaw D} {rest : List (TouchRaw D)}
    {i : Fin touchMaxSlots} (h : Lands ti raw i) (hindexed : Indexed ti) (hd : ti.discarding = false)
    (hraw : Plain raw) (hrest : ∀ r ∈ rest, Plain r) (honce : Once (slotNumber i) rest) :
    ∃ k final, ti.frame.length ≤ k ∧ k < (feedOne ti raw).frame.length ∧
      (rest.foldl feedOne (feedOne ti raw)).frame[k]? = some final ∧ final.kind = .down ∧
      final.slot = slotNumber i ∧
      (∀ axis, eventCoordinate final axis = (axisValues (slotNumber i) axis (contactPart (slotNumber i)
          raw.value (addressed (slotNumber i) rest))).head?.elim (slotCoordinate (ti.slot i) axis)
            fun v => ofInt (touchFlipValue ti.flip axis v ti.flipped)) ∧
      ∀ n e, ti.frame.length ≤ n → n < (feedOne ti raw).frame.length →
        (rest.foldl feedOne (feedOne ti raw)).frame[n]? = some e → e.kind = .down → e = final := by
  obtain ⟨k, e, hk, hopen, hlanded, honly⟩ := h.opens hd hraw
  have hprogress := feedOne_progress hd hraw
  have hd' : (feedOne ti raw).discarding = false := hprogress.mode.trans hd
  have hkept : (feedOne ti raw).currentSlot = slotNumber i := by
    rw [feedOne_currentSlot hd hraw, if_neg (by simp [tracks_selects h.1]), h.2.1]
  have hkinds := (feed_progress hd' hrest).kinds
  obtain ⟨final, hfinal, hkind⟩ := hkinds k e hopen.event
  have hlt : k < (feedOne ti raw).frame.length := (List.getElem?_eq_some_iff.mp hopen.event).1
  -- the rest of the frame, for one axis of the event
  have hsettles (axis : TouchAxis) : final.slot = slotNumber i ∧
      eventCoordinate final axis = (axisValues (slotNumber i) axis (contactPart (slotNumber i)
        raw.value (addressed (slotNumber i) rest))).head?.elim (slotCoordinate (ti.slot i) axis)
          fun v => ofInt (touchFlipValue ti.flip axis v ti.flipped) := by
    have hvalues : (axisValues (slotNumber i) axis (contactPart (slotNumber i) raw.value
        (addressed (feedOne ti raw).currentSlot rest))).length ≤ 1 := by
      rw [hkept]
      rcases contactPart_values honce (slotNumber i) raw.value axis with hv | ⟨v, hv, _⟩ <;> simp [hv]
    obtain ⟨final', hfinal', howner, hvalue⟩ := settles hopen (hprogress.indexed hindexed) h.2.2.1 hd'
      hrest axis rfl hvalues fun _ => (hlanded axis).2
    obtain rfl : final = final' := Option.some.inj (hfinal.symm.trans hfinal')
    rw [hkept, (hlanded axis).1, hprogress.config.1, hprogress.config.2] at hvalue
    exact ⟨howner, hvalue⟩
  refine ⟨k, final, hk, hlt, hfinal, hkind.trans hopen.kind, (hsettles .x).1,
    fun axis => (hsettles axis).2, fun n e' hn hlen he' hdown => ?_⟩
  obtain ⟨e'', he'', hkind'⟩ := hkinds n _ (List.getElem?_eq_getElem hlen)
  obtain rfl : e' = e'' := Option.some.inj (he'.symm.trans he'')
  obtain rfl := honly n _ hn (List.getElem?_eq_getElem hlen) (hkind'.symm.trans hdown)
  exact Option.some.inj (he'.symm.trans hfinal)

/-- One landing is reported at the finger exactly when what it leaves out is stored there. -/
theorem landing_atFinger_iff {ti : TouchInput F D} {c : Controller} {raw : TouchRaw D}
    {rest : List (TouchRaw D)} {i : Fin touchMaxSlots} (h : Lands ti raw i) (hindexed : Indexed ti)
    (hd : ti.discarding = false) (hraw : Plain raw) (hrest : ∀ r ∈ rest, Plain r)
    (hselected : c.selected = ti.currentSlot) (honce : Once ti.currentSlot (raw :: rest)) :
    (∀ n e, ti.frame.length ≤ n → n < (feedOne ti raw).frame.length →
        (rest.foldl feedOne (feedOne ti raw)).frame[n]? = some e → e.kind = .down →
          AtFinger ti (rest.foldl Controller.send (c.send raw)) e) ↔
      ∀ axis, axisValues (slotNumber i) axis
          (contactPart (slotNumber i) raw.value (addressed (slotNumber i) rest)) = [] →
        ∃ v, (rest.foldl Controller.send (c.send raw)).sent (slotNumber i) axis = some v ∧
          slotCoordinate (ti.slot i) axis = ofInt (touchFlipValue ti.flip axis v ti.flipped) := by
  have hsent : (c.send raw).selected = slotNumber i := by
    rw [send_selected, if_neg (by simp [tracks_selects h.1]), hselected, h.2.1]
  have honce' : Once (slotNumber i) rest := by
    have hrest := honce.cons
    rwa [if_neg (by simp [tracks_selects h.1]), h.2.1] at hrest
  obtain ⟨k, final, hk, hlt, hfinal, hkind, howner, hvalue, honly⟩ :=
    landing_settles h hindexed hd hraw hrest honce'
  have haxis (axis : TouchAxis) : (∃ v,
      (rest.foldl Controller.send (c.send raw)).sent final.slot axis = some v ∧
        eventCoordinate final axis = ofInt (touchFlipValue ti.flip axis v ti.flipped)) ↔
      (axisValues (slotNumber i) axis
          (contactPart (slotNumber i) raw.value (addressed (slotNumber i) rest)) = [] →
        ∃ v, (rest.foldl Controller.send (c.send raw)).sent (slotNumber i) axis = some v ∧
          slotCoordinate (ti.slot i) axis = ofInt (touchFlipValue ti.flip axis v ti.flipped)) := by
    rw [howner, hvalue axis]
    rcases contactPart_values honce' (slotNumber i) raw.value axis with hnone | ⟨v, hv, hall⟩
    · simp [hnone]
    · refine iff_of_true ⟨v, ?_, by simp [hv]⟩ (by simp [hv])
      rw [foldl_send_sent, hsent, hall]
      rfl
  constructor
  · intro hall axis
    exact (haxis axis).mp (hall k final hk hlt hfinal hkind axis)
  · intro hall n e hn hlen he hdown axis
    obtain rfl := honly n e hn hlen he hdown
    exact (haxis axis).mpr (hall axis)

theorem omittedStored_cons {ti : TouchInput F D} {c : Controller} {raw : TouchRaw D}
    {rest : List (TouchRaw D)} (hd : ti.discarding = false) (hraw : Plain raw) :
    OmittedStored ti c (raw :: rest) ↔
      (∀ i, Lands ti raw i → ∀ axis, axisValues (slotNumber i) axis
          (contactPart (slotNumber i) raw.value (addressed (slotNumber i) rest)) = [] →
        ∃ v, (rest.foldl Controller.send (c.send raw)).sent (slotNumber i) axis = some v ∧
          slotCoordinate (ti.slot i) axis = ofInt (touchFlipValue ti.flip axis v ti.flipped)) ∧
        OmittedStored (feedOne ti raw) (c.send raw) rest := by
  have hconfig := (feedOne_progress hd hraw).config
  constructor
  · intro h
    refine ⟨h [] raw rest rfl, fun before r after heq i hland axis hnone => ?_⟩
    rw [hconfig.1, hconfig.2]
    exact h (raw :: before) r after (by rw [heq]; rfl) i hland axis hnone
  · rintro ⟨hfirst, hrest⟩ before r after heq i hland axis hnone
    cases before with
    | nil =>
      cases heq
      exact hfirst i hland axis hnone
    | cons r' before =>
      cases heq
      have h := hrest before r after rfl i hland axis hnone
      rwa [hconfig.1, hconfig.2] at h

theorem forall_from_split {ε : Type} {P : Nat → ε → Prop} {a b : Nat} (h : a ≤ b) :
    (∀ n e, a ≤ n → P n e) ↔ (∀ n e, a ≤ n → n < b → P n e) ∧ ∀ n e, b ≤ n → P n e := by
  constructor
  · intro hall
    exact ⟨fun n e hn _ => hall n e hn, fun n e hn => hall n e (h.trans hn)⟩
  · rintro ⟨hnow, hthen⟩ n e hn
    by_cases hlt : n < b
    · exact hnow n e hn hlt
    · exact hthen n e (not_lt.mp hlt)

/-- The new contacts of a frame are reported where the controller has them exactly when every axis
they leave out is stored there. -/
theorem frame_atFinger_iff {ti : TouchInput F D} {c : Controller} {records : List (TouchRaw D)}
    (hindexed : Indexed ti) (hd : ti.discarding = false) (hplain : ∀ r ∈ records, Plain r)
    (hselected : c.selected = ti.currentSlot) (honce : Once ti.currentSlot records) :
    (∀ n e, ti.frame.length ≤ n → (records.foldl feedOne ti).frame[n]? = some e → e.kind = .down →
        AtFinger ti (records.foldl Controller.send c) e) ↔ OmittedStored ti c records := by
  induction records generalizing ti c with
  | nil =>
    refine iff_of_true (fun n e hn he _ => ?_) fun before r after heq => ?_
    · rw [List.foldl_nil, List.getElem?_eq_none hn] at he
      cases he
    · exact absurd (congrArg List.length heq) (by simp)
  | cons raw rest ih =>
    have hraw : Plain raw := hplain raw List.mem_cons_self
    have hrest : ∀ r ∈ rest, Plain r := fun r hr => hplain r (List.mem_cons_of_mem _ hr)
    have hprogress := feedOne_progress hd hraw
    have hd' : (feedOne ti raw).discarding = false := hprogress.mode.trans hd
    have hcurrent := feedOne_currentSlot hd hraw
    have honce' : Once (feedOne ti raw).currentSlot rest := by
      rw [hcurrent]
      exact honce.cons
    have hselected' : (c.send raw).selected = (feedOne ti raw).currentSlot := by
      rw [send_selected, hcurrent, hselected]
    have hlater := ih (hprogress.indexed hindexed) hd' hrest hselected' honce'
    simp only [atFinger_congr hprogress.config] at hlater
    rw [omittedStored_cons hd hraw, ← hlater]
    -- the events of this record, and those of the records after it
    rw [List.foldl_cons, List.foldl_cons, forall_from_split hprogress.length_le]
    refine and_congr_left fun _ => ?_
    by_cases hlands : ∃ i, Lands ti raw i
    · obtain ⟨i, hi⟩ := hlands
      rw [landing_atFinger_iff hi hindexed hd hraw hrest hselected honce]
      refine ⟨fun h j hj => ?_, fun h => h i hi⟩
      obtain rfl : i = j := slotNumber_injective (hi.2.1.symm.trans hj.2.1)
      exact h
    · refine iff_of_true (fun n e hn hlt he hdown => ?_) fun i hi => absurd ⟨i, hi⟩ hlands
      obtain ⟨e', he', hkind⟩ :=
        (feed_progress hd' hrest).kinds n _ (List.getElem?_eq_getElem hlt)
      obtain rfl : e = e' := Option.some.inj (he.symm.trans he')
      have hquiet := feedOne_appended hd hraw (not_exists.mp hlands) hn
        (List.getElem?_eq_getElem hlt)
      exact absurd (hkind.symm.trans hdown) hquiet

end Frame

/-- Whole frames, and calls between them. -/
inductive Turn (D : Type) where
  | frame (records : List (TouchRaw D)) (t : D) (out : Bool) (max : Int)
  | setFlipped (flipped : Bool)
  | cancelAll (out : Bool) (max : Int)

def Turn.call : Turn D → Call D
  | .frame records t out max => .feed (records ++ [⟨evSyn, synReport, 0, t⟩]) out max
  | .setFlipped flipped => .setFlipped flipped
  | .cancelAll out max => .cancelAll out max

def Turn.records : Turn D → List (TouchRaw D)
  | .frame records _ _ _ => records
  | .setFlipped _ => []
  | .cancelAll _ _ => []

/-- A decoder in use, the controller it listens to, and the events of the last turn. -/
structure Watched (F D : Type) where
  session : Session F D
  controller : Controller
  fresh : List (TouchEvent F D)

/-- The turn carries whole frames, and no axis of a slot twice in one. -/
def Delivered (w : Watched F D) (turn : Turn D) : Prop :=
  (∀ r ∈ turn.records, Plain r) ∧ Once w.controller.selected turn.records

/-- Between two frames. -/
structure Settled (w : Watched F D) : Prop where
  frame : w.session.input.frame = []
  mode : w.session.input.discarding = false
  pointers : ∀ i, (w.session.input.slot i).frameEvent = none
  selection : w.controller.selected = w.session.input.currentSlot

theorem Settled.indexed {w : Watched F D} (h : Settled w) : Indexed w.session.input := by
  intro i k hk
  rw [h.pointers i] at hk
  cases hk

/-- Draining moves events from the queue to the application. -/
theorem collect_drain (s : Session F D) (ti : TouchInput F D) (out : Bool) (max : Int) :
    (s.collect (drainReady ti out max)).handedOut = s.delivered ++ ti.ready ∧
      ∃ ready, (s.collect (drainReady ti out max)).input = { ti with ready } := by
  unfold drainReady Session.collect Session.handedOut
  split
  · exact ⟨by simp, ti.ready, rfl⟩
  · exact ⟨by simp, _, rfl⟩

theorem publishFrame_eq {ti : TouchInput F D} (h : Indexed ti) :
    (publishFrame ti).ready = ti.ready ++ ti.frame ∧ (publishFrame ti).frame = [] ∧
      (∀ i, ((publishFrame ti).slot i).frameEvent = none) ∧
      (publishFrame ti).flip = ti.flip ∧ (publishFrame ti).flipped = ti.flipped ∧
      (publishFrame ti).discarding = ti.discarding ∧
      (publishFrame ti).currentSlot = ti.currentSlot := by
  unfold publishFrame
  by_cases hempty : ti.frame = []
  · have hpointers (i : Fin touchMaxSlots) : (ti.slot i).frameEvent = none := by
      cases hk : (ti.slot i).frameEvent with
      | none => rfl
      | some k =>
        obtain ⟨e, he, _⟩ := h i k hk
        simp [hempty] at he
    simp [hempty, hpointers]
  · simp [hempty]

section Run
variable [CFloat F]

/-- Every new contact of the last turn is reported where the finger is. -/
def NewAtFinger (w : Watched F D) : Prop :=
  ∀ e ∈ w.fresh, e.kind = .down → AtFinger w.session.input w.controller e

variable [CFloat D]

def Watched.start (flip : TouchFlip F) : Watched F D :=
  { session := Session.start flip, controller := .start, fresh := [] }

theorem settled_start (flip : TouchFlip F) : Settled (Watched.start flip : Watched F D) where
  frame := rfl
  mode := rfl
  pointers _ := rfl
  selection := rfl

/-- Cancelling everything reports no new contact and leaves the decoder between frames. -/
theorem cancel_settled {w : Watched F D} (h : Settled w) (w' : Watched F D) (flipped : Bool) (t : D)
    (hcontroller : w'.controller = w.controller)
    (hhanded : w'.session.handedOut = w.session.handedOut ++ cancelEvents w.session.input t)
    (hfresh : w'.fresh = w'.session.handedOut.drop w.session.handedOut.length)
    (hinput : ∃ ready, w'.session.input =
      { cancelActiveToReady w.session.input t with discarding := false, flipped, ready }) :
    NewAtFinger w' ∧ Settled w' := by
  obtain ⟨ready, hinput⟩ := hinput
  rw [cancelActiveToReady_eq] at hinput
  refine ⟨fun e he hdown => ?_, ?_⟩
  · rw [hfresh, hhanded, List.drop_left] at he
    rw [cancelEvents_kind he] at hdown
    cases hdown
  · constructor
    case frame => rw [hinput]
    case mode => rw [hinput]
    case pointers =>
      rw [hinput]
      exact fun _ => rfl
    case selection =>
      rw [hinput, hcontroller]
      exact h.selection

variable [CDouble F D]

def Watched.turn (w : Watched F D) (turn : Turn D) : Watched F D :=
  let session := w.session.call turn.call
  { session
    controller := turn.records.foldl Controller.send w.controller
    fresh := session.handedOut.drop w.session.handedOut.length }

/-- Every contact that the turn begins finds the axes it leaves out where the controller has them. -/
def StoredWhereOmitted (w : Watched F D) (turn : Turn D) : Prop :=
  OmittedStored w.session.input w.controller turn.records

theorem feed_selected {ti : TouchInput F D} {c : Controller} {records : List (TouchRaw D)}
    (hd : ti.discarding = false) (hplain : ∀ r ∈ records, Plain r)
    (hselected : c.selected = ti.currentSlot) :
    (records.foldl Controller.send c).selected = (records.foldl feedOne ti).currentSlot := by
  induction records generalizing ti c with
  | nil => exact hselected
  | cons r rest ih =>
    have hr : Plain r := hplain r List.mem_cons_self
    refine ih ((feedOne_progress hd hr).mode.trans hd) (fun r' hr' => ?_) ?_
    · exact hplain r' (List.mem_cons_of_mem _ hr')
    · rw [send_selected, feedOne_currentSlot hd hr, hselected]

/-- The decoder at the end of a frame. -/
theorem turn_frame {w : Watched F D} (h : Settled w) {records : List (TouchRaw D)}
    (hplain : ∀ r ∈ records, Plain r) (t : D) (out : Bool) (max : Int) :
    (w.turn (.frame records t out max)).fresh = (records.foldl feedOne w.session.input).frame ∧
      ((w.turn (.frame records t out max)).session.input.flip = w.session.input.flip ∧
        (w.turn (.frame records t out max)).session.input.flipped = w.session.input.flipped) ∧
      Settled (w.turn (.frame records t out max)) := by
  have hprogress := feed_progress h.mode hplain
  have hindexed := hprogress.indexed h.indexed
  have hmode := hprogress.mode.trans h.mode
  have hfeed : (records ++ [(⟨evSyn, synReport, 0, t⟩ : TouchRaw D)]).foldl feedOne w.session.input =
      publishFrame (records.foldl feedOne w.session.input) := by
    rw [List.foldl_append, List.foldl_cons, List.foldl_nil]
    simp [feedOne, TouchRaw.isSynDropped, TouchRaw.isSynReport, synReport, synDropped, hmode]
  obtain ⟨hready, hframe, hpointers, hflip, hflipped, hdiscarding, hcurrent⟩ := publishFrame_eq hindexed
  obtain ⟨hhanded, ready, hinput⟩ := collect_drain w.session
    (publishFrame (records.foldl feedOne w.session.input)) out max
  have hsession : (w.turn (.frame records t out max)).session = w.session.collect
      (drainReady (publishFrame (records.foldl feedOne w.session.input)) out max) := by
    rw [← hfeed]
    rfl
  refine ⟨?_, ?_, ?_⟩
  · change (w.turn (.frame records t out max)).session.handedOut.drop w.session.handedOut.length = _
    rw [hsession, hhanded, hready, hprogress.queue, ← List.append_assoc]
    exact List.drop_left
  · rw [hsession, hinput]
    exact ⟨hflip.trans hprogress.config.1, hflipped.trans hprogress.config.2⟩
  · constructor
    case frame => rw [hsession, hinput]; exact hframe
    case mode => rw [hsession, hinput]; exact hdiscarding.trans hmode
    case pointers => rw [hsession, hinput]; exact hpointers
    case selection =>
      rw [hsession, hinput]
      exact (feed_selected h.mode hplain h.selection).trans hcurrent.symm

/-- One turn leaves the decoder between frames, and reports its contacts where the fingers are exactly
when what they leave out is stored. -/
theorem turn_step {w : Watched F D} {turn : Turn D} (h : Settled w) (hsent : Delivered w turn) :
    Settled (w.turn turn) ∧ (NewAtFinger (w.turn turn) ↔ StoredWhereOmitted w turn) := by
  have hquiet : StoredWhereOmitted w (.cancelAll true 0) :=
    fun before r after heq => absurd (congrArg List.length heq) (by simp [Turn.records])
  cases turn with
  | frame records t out max =>
    obtain ⟨hplain, honce⟩ : (∀ r ∈ records, Plain r) ∧ Once w.controller.selected records := hsent
    obtain ⟨hfresh, hconfig, hsettled⟩ := turn_frame h hplain t out max
    refine ⟨hsettled, ?_⟩
    unfold NewAtFinger StoredWhereOmitted
    rw [hfresh, Turn.records, ← frame_atFinger_iff h.indexed h.mode hplain h.selection
      (h.selection ▸ honce), h.frame]
    simp only [atFinger_congr hconfig, List.mem_iff_getElem?, forall_exists_index]
    constructor
    · intro hall n e _ he hdown
      exact hall e n he hdown
    · intro hall e n he hdown
      exact hall n e (Nat.zero_le n) he hdown
  | setFlipped flipped =>
    by_cases hsame : w.session.input.flipped = flipped
    · have hcall : w.session.call (.setFlipped flipped) = w.session := by
        simp [Session.call, touchInputSetFlipped, hsame]
      have hturn : w.turn (.setFlipped flipped) = { w with fresh := [] } := by
        simp [Watched.turn, Turn.call, Turn.records, hcall]
      rw [hturn]
      exact ⟨⟨h.frame, h.mode, h.pointers, h.selection⟩, iff_of_true (by simp [NewAtFinger]) hquiet⟩
    · have hinput : touchInputSetFlipped w.session.input flipped =
          { cancelActiveToReady w.session.input (latestSpoke w.session.input) with
            discarding := false, flipped } := by simp [touchInputSetFlipped, hsame]
      have hhanded : (w.turn (.setFlipped flipped)).session.handedOut =
          w.session.handedOut ++ cancelEvents w.session.input (latestSpoke w.session.input) := by
        change w.session.delivered ++ (touchInputSetFlipped w.session.input flipped).ready = _
        rw [hinput, cancelActiveToReady_eq, Session.handedOut, List.append_assoc]
      have hcancel := cancel_settled h (w.turn (.setFlipped flipped)) flipped
        (latestSpoke w.session.input) rfl hhanded rfl ⟨_, hinput⟩
      exact ⟨hcancel.2, iff_of_true hcancel.1 hquiet⟩
  | cancelAll out max =>
    obtain ⟨hdrained, ready, hinput⟩ := collect_drain w.session
      { cancelActiveToReady w.session.input (latestSpoke w.session.input) with discarding := false }
      out max
    have hhanded : (w.turn (.cancelAll out max)).session.handedOut =
        w.session.handedOut ++ cancelEvents w.session.input (latestSpoke w.session.input) := by
      refine hdrained.trans ?_
      rw [cancelActiveToReady_eq, Session.handedOut, List.append_assoc]
    have hafter : ∃ ready, (w.turn (.cancelAll out max)).session.input =
        { cancelActiveToReady w.session.input (latestSpoke w.session.input) with
          discarding := false, flipped := w.session.input.flipped, ready } := by
      refine ⟨ready, hinput.trans ?_⟩
      rw [cancelActiveToReady_eq]
    have hcancel := cancel_settled h (w.turn (.cancelAll out max)) w.session.input.flipped
      (latestSpoke w.session.input) rfl hhanded rfl hafter
    exact ⟨hcancel.2, iff_of_true hcancel.1 hquiet⟩

/-- Over every run of whole frames, orientation changes and cancellations, new contacts are reported
where the fingers are exactly when each frame leaves out only what is stored. -/
theorem new_contacts_at_finger (flip : TouchFlip F) (turns : List (Turn D))
    (hsent : Admits Watched.turn Delivered (Watched.start flip) turns) :
    Throughout Watched.turn NewAtFinger (Watched.start flip) turns ↔
      ∀ first turn rest, turns = first ++ turn :: rest →
        StoredWhereOmitted (first.foldl Watched.turn (Watched.start flip)) turn := by
  have hsettled : Throughout Watched.turn Settled (Watched.start flip : Watched F D) turns :=
    throughout_of_admitted (settled_start flip) (fun w turn h hd => (turn_step h hd).1) hsent.at_split
  have hstart : NewAtFinger (Watched.start flip : Watched F D) :=
    fun e he => absurd he List.not_mem_nil
  have hguard (first : List (Turn D)) (turn : Turn D) (rest : List (Turn D))
      (heq : turns = first ++ turn :: rest) :
      Settled (first.foldl Watched.turn (Watched.start flip : Watched F D)) ∧
        Delivered (first.foldl Watched.turn (Watched.start flip : Watched F D)) turn :=
    ⟨hsettled first (turn :: rest) heq, hsent.at_split first turn rest heq⟩
  have hstep (w : Watched F D) (turn : Turn D) (hw : Settled w ∧ Delivered w turn) (_ : NewAtFinger w) :
      NewAtFinger (w.turn turn) ↔ StoredWhereOmitted w turn := (turn_step hw.1 hw.2).2
  exact throughout_iff_where hstart hguard hstep

/-- A frame that lands one contact with both axes. -/
def landingFrame (id x y : Int) (t : D) : List (TouchRaw D) :=
  [⟨evAbs, absMtTrackingId, id, t⟩, ⟨evAbs, absMtPositionX, x, t⟩, ⟨evAbs, absMtPositionY, y, t⟩]

theorem landingFrame_stored (ti : TouchInput F D) (c : Controller) (id x y : Int) (t : D) :
    OmittedStored ti c (landingFrame id x y t) := by
  rintro before r after heq i ⟨htracks, _⟩ axis hnone
  exfalso
  rcases before with _ | ⟨_, _ | ⟨_, _ | ⟨_, rest⟩⟩⟩
  · obtain ⟨rfl, rfl⟩ := List.cons.inj heq
    cases axis <;>
      simp [addressed, contactPart, axisValues, axisOf, selects, tracks, evAbs, absMtTrackingId,
        absMtPositionX, absMtPositionY, absMtSlot] at hnone
  · obtain ⟨_, hr⟩ := List.cons.inj heq
    obtain ⟨rfl, _⟩ := List.cons.inj hr
    simp [tracks, absMtPositionX, absMtTrackingId] at htracks
  · obtain ⟨_, hr⟩ := List.cons.inj heq
    obtain ⟨_, hr⟩ := List.cons.inj hr
    obtain ⟨rfl, _⟩ := List.cons.inj hr
    simp [tracks, absMtPositionY, absMtTrackingId] at htracks
  · exact absurd (congrArg List.length heq) (by simp [landingFrame])

end Run

instance decidableDelivered (w : Watched F D) (turn : Turn D) : Decidable (Delivered w turn) :=
  have (r : TouchRaw D) : Decidable (Plain r) :=
    inferInstanceAs (Decidable (r.isSynDropped = false ∧ r.isSynReport = false))
  have : Decidable (Once w.controller.selected turn.records) :=
    inferInstanceAs (Decidable (List.Pairwise _ _))
  inferInstanceAs (Decidable (_ ∧ _))

/-- Two contacts on a slot, in two orientations. -/
def carriedTurns : List (Turn ℚ) :=
  [.frame (landingFrame 7 100 100 1) 1 true 16, .setFlipped true,
    .frame (landingFrame 8 300 100 2) 2 true 16]

theorem carried_contacts_at_finger :
    Throughout Watched.turn NewAtFinger (Watched.start plainFlip : Watched ℚ ℚ) carriedTurns := by
  refine (new_contacts_at_finger plainFlip carriedTurns (by decide +kernel)).mpr ?_
  have hstored : Admits Watched.turn StoredWhereOmitted (Watched.start plainFlip : Watched ℚ ℚ)
      carriedTurns := by
    refine ⟨landingFrame_stored _ _ 7 100 100 1, ?_, landingFrame_stored _ _ 8 300 100 2, trivial⟩
    intro before r after heq
    exact absurd (congrArg List.length heq) (by simp [Turn.records])
  exact hstored.at_split

/-- A controller sends an axis only when its value differs from the last one sent. -/
def Changed (c : Controller) (raw : TouchRaw D) : Prop :=
  ∀ axis ∈ axisOf raw, c.sent c.selected axis ≠ some raw.value

/-- The first contact in a slot carries both axes. -/
def FirstCarriesBoth (c : Controller) : List (TouchRaw D) → Prop
  | [] => True
  | raw :: rest => (tracks raw = true → raw.value ≠ -1 → c.begun c.selected = false →
        ∀ axis ∈ [TouchAxis.x, TouchAxis.y], axisValues c.selected axis
          (contactPart c.selected raw.value (addressed c.selected rest)) ≠ []) ∧
      FirstCarriesBoth (c.send raw) rest

/-- The turn is one that a Linux multitouch device can send. -/
def FromEvdev (w : Watched F D) (turn : Turn D) : Prop :=
  Delivered w turn ∧ Admits Controller.send Changed w.controller turn.records ∧
    FirstCarriesBoth w.controller turn.records

instance decidableChanged (c : Controller) (raw : TouchRaw D) : Decidable (Changed c raw) :=
  inferInstanceAs (Decidable (∀ axis ∈ axisOf raw, _))

instance decidableFirstCarriesBoth (c : Controller) :
    ∀ records : List (TouchRaw D), Decidable (FirstCarriesBoth c records)
  | [] => isTrue trivial
  | raw :: rest =>
    have := decidableFirstCarriesBoth (c.send raw) rest
    inferInstanceAs (Decidable (_ ∧ _))

instance decidableFromEvdev (w : Watched F D) (turn : Turn D) : Decidable (FromEvdev w turn) :=
  inferInstanceAs (Decidable (_ ∧ _ ∧ _))

/-- A contact lands, moves and lifts, and the next one lands at the same x. -/
def repeatedTurns : List (Turn ℚ) :=
  [.frame (landingFrame 7 100 100 1) 1 true 16,
    .frame [⟨evAbs, absMtPositionX, 200, 2⟩] 2 true 16,
    .frame [⟨evAbs, absMtTrackingId, -1, 3⟩] 3 true 16,
    .frame [⟨evAbs, absMtTrackingId, 8, 4⟩, ⟨evAbs, absMtPositionY, 150, 4⟩] 4 true 16]

/-- The second DOWN has the x that the filter had reached on the way to 200. -/
theorem repeated_axis_off_finger :
    Admits Watched.turn FromEvdev (Watched.start plainFlip : Watched ℚ ℚ) repeatedTurns ∧
      ¬ Throughout Watched.turn NewAtFinger (Watched.start plainFlip : Watched ℚ ℚ) repeatedTurns := by
  refine ⟨by decide +kernel, fun h => ?_⟩
  have hnew := h repeatedTurns [] (List.append_nil _).symm
  have hsent : ∀ e ∈ (repeatedTurns.foldl Watched.turn (Watched.start plainFlip : Watched ℚ ℚ)).fresh,
      (repeatedTurns.foldl Watched.turn (Watched.start plainFlip : Watched ℚ ℚ)).controller.sent
        e.slot .x = some 200 := by decide +kernel
  have hx : ∀ e ∈ (repeatedTurns.foldl Watched.turn (Watched.start plainFlip : Watched ℚ ℚ)).fresh,
      e.kind = .down → e.x = 200 := by
    intro e he hdown
    obtain ⟨v, hv, hcoordinate⟩ := hnew e he hdown .x
    obtain rfl : 200 = v := Option.some.inj ((hsent e he).symm.trans hv)
    exact hcoordinate.trans (by decide +kernel)
  revert hx
  decide +kernel

end Taq102.Touch.Landing
