import Taq102.Touch.Evdev

/-! The decoder against the device it reads: after any loss and any snapshot the two agree
again, unless queued tracking ids are replayed on a slot they were not written for. -/
namespace Taq102.Touch.Resync
open Taq102.Lib Transition Evdev
variable {F D : Type}

def selects (e : Queued D) : Bool := e.raw.type == evAbs && e.raw.code == absMtSlot

def tracks (e : Queued D) : Bool := e.raw.type == evAbs && e.raw.code == absMtTrackingId

/-- A loss is reported among the records. -/
def Lossy (pending : List (Queued D)) : Prop := ∃ e ∈ pending, e.raw.isSynDropped = true

/-- Read from the selection `n`, the records meet every tracking id on the slot it was written
for, and end at the selection `m`. -/
def Follows : Int → List (Queued D) → Int → Prop
  | n, [], m => n = m
  | n, e :: rest, m =>
    if selects e = true then Follows e.raw.value rest m
    else (tracks e = true → (e.slot : Int) = n) ∧ Follows n rest m

theorem Follows.tail {n m : Int} {e : Queued D} {rest : List (Queued D)}
    (h : Follows n (e :: rest) m) : ∃ k, Follows k rest m := by
  unfold Follows at h
  split at h
  · exact ⟨_, h⟩
  · exact ⟨n, h.2⟩

theorem Follows.concat {n m m' : Int} {pending : List (Queued D)} {e : Queued D}
    (h : Follows n pending m) (hm : m' = if selects e = true then e.raw.value else m)
    (htracks : tracks e = true → (e.slot : Int) = m) : Follows n (pending ++ [e]) m' := by
  induction pending generalizing n with
  | nil =>
    obtain rfl : n = m := h
    rw [List.nil_append, Follows]
    split
    · rename_i hs
      rw [if_pos hs] at hm
      exact hm.symm
    · rename_i hs
      rw [if_neg hs] at hm
      exact ⟨htracks, hm.symm⟩
  | cons a rest ih =>
    rw [List.cons_append, Follows]
    unfold Follows at h
    split
    · rename_i hs
      rw [if_pos hs] at h
      exact ih h
    · rename_i hs
      rw [if_neg hs] at h
      exact ⟨h.1, ih h.2⟩

/-- The records can be read from the selection they end at, when the tracking ids before the
first reported selection were written for it. -/
theorem Follows.reselect {n m : Int} {pending : List (Queued D)} (h : Follows n pending m)
    (hfresh : ∀ e ∈ pending.takeWhile (fun e => !selects e), tracks e = true → (e.slot : Int) = m) :
    Follows m pending m := by
  induction pending generalizing n with
  | nil => rfl
  | cons e rest ih =>
    unfold Follows at h ⊢
    split
    · rename_i hs
      rw [if_pos hs] at h
      exact h
    · rename_i hs
      rw [if_neg hs] at h
      have htake : (e :: rest).takeWhile (fun e => !selects e) =
          e :: rest.takeWhile (fun e => !selects e) :=
        List.takeWhile_cons_of_pos (by simpa using hs)
      rw [htake] at hfresh
      refine ⟨hfresh e (by simp), ih h.2 fun a ha => ?_⟩
      exact hfresh a (List.mem_cons_of_mem e ha)

/-- The contact a value of ABS_MT_TRACKING_ID stands for. -/
def decodeId (value : Int) : Option Int := if value = -1 then none else some value

/-- The tracking id of the device's contact on a slot. -/
def heldId (d : Device D) (n : Nat) : Option Int := (d.contact n).map Int.ofNat

theorem decodeId_trackingValue (contact : Option Nat) :
    decodeId (trackingValue contact) = contact.map Int.ofNat := by
  cases contact with
  | none => rfl
  | some c =>
    have hc : (c : Int) ≠ -1 := by omega
    simp [decodeId, trackingValue, hc]

/-- The contacts written for one slot, in order. -/
def trackedIds (n : Nat) (pending : List (Queued D)) : List (Option Int) :=
  (pending.filter fun e => tracks e && e.slot == n).map fun e => decodeId e.raw.value

/-- The device's contacts are the known ones overridden by the newest tracking ids. -/
def Recalls (known : Nat → Option Int) (d : Device D) (pending : List (Queued D)) : Prop :=
  ∀ n, (trackedIds n pending).getLast?.getD (known n) = heldId d n

theorem trackedIds_append (n : Nat) (pending rest : List (Queued D)) :
    trackedIds n (pending ++ rest) = trackedIds n pending ++ trackedIds n rest := by
  simp [trackedIds]

theorem trackedIds_singleton (n : Nat) (e : Queued D) :
    trackedIds n [e] = if tracks e = true ∧ e.slot = n then [decodeId e.raw.value] else [] := by
  unfold trackedIds
  split
  · rename_i h
    simp [h]
  · rename_i h
    have hfalse : (tracks e && e.slot == n) = false := by
      simpa using h
    simp [hfalse]

/-- What the device keeps when it queues a record. -/
structure Writes (d d' : Device D) (e : Queued D) : Prop where
  lastSlot : d'.lastSlot = d.lastSlot
  slot : e.slot = d.selected
  selected : (d'.selected : Int) = if selects e = true then e.raw.value else d.selected
  contact : ∀ n, heldId d' n =
    if tracks e = true ∧ e.slot = n then decodeId e.raw.value else heldId d n

theorem Recalls.concat {known known' : Nat → Option Int} {d d' : Device D} {pending : List (Queued D)}
    {e : Queued D} (h : Recalls known d pending) (hw : Writes d d' e)
    (hknown : ∀ n, ¬ (tracks e = true ∧ e.slot = n) → known' n = known n) :
    Recalls known' d' (pending ++ [e]) := by
  intro n
  rw [trackedIds_append, trackedIds_singleton, hw.contact]
  split
  · simp
  · rename_i hn
    rw [List.append_nil, hknown n hn]
    exact h n

theorem Recalls.tail {known : Nat → Option Int} {d : Device D} {e : Queued D} {rest : List (Queued D)}
    (h : Recalls known d (e :: rest)) :
    Recalls (fun n => if tracks e = true ∧ e.slot = n then decodeId e.raw.value else known n) d rest := by
  intro n
  have hn := h n
  rw [← List.singleton_append, trackedIds_append, trackedIds_singleton, List.getLast?_append] at hn
  rw [← hn]
  cases (trackedIds n rest).getLast? with
  | some v => rfl
  | none => by_cases ht : tracks e = true ∧ e.slot = n <;> simp [ht]

theorem Recalls.mono {known known' : Nat → Option Int} {d : Device D} {pending : List (Queued D)}
    (h : Recalls known d pending) (heq : ∀ n, known' n = known n) : Recalls known' d pending := by
  intro n
  rw [heq]
  exact h n

/-- The records are what the device last did: they lead to its selection, and the newest
tracking ids are its contacts. -/
structure History (d : Device D) (pending : List (Queued D)) : Prop where
  follows : ∃ n, Follows n pending d.selected
  recalls : Recalls (heldId d) d pending

theorem History.tail {d : Device D} {e : Queued D} {rest : List (Queued D)}
    (h : History d (e :: rest)) : History d rest := by
  obtain ⟨n, hn⟩ := h.follows
  refine ⟨hn.tail, fun m => ?_⟩
  have hm := h.recalls m
  rw [← List.singleton_append, trackedIds_append, List.getLast?_append] at hm
  cases hlast : (trackedIds m rest).getLast? with
  | none => rfl
  | some v => simpa [hlast] using hm

theorem History.drop {d : Device D} {pending : List (Queued D)} (h : History d pending)
    (lost : Nat) : History d (pending.drop lost) := by
  induction lost generalizing pending with
  | zero => exact h
  | succ lost ih =>
    cases pending with
    | nil => exact h
    | cons e rest => exact ih h.tail

theorem History.concat {d d' : Device D} {pending : List (Queued D)} {e : Queued D}
    (h : History d pending) (hw : Writes d d' e) : History d' (pending ++ [e]) := by
  obtain ⟨n, hn⟩ := h.follows
  refine ⟨⟨n, hn.concat hw.selected fun _ => by rw [hw.slot]⟩, h.recalls.concat hw fun m hm => ?_⟩
  rw [hw.contact, if_neg hm]

/-- One move of the device: a record is queued, or a loss is reported over the newest ones. -/
theorem act_cases {d d' : Device D} {event : DeviceEvent D} (h : d.act event = some d') :
    (∃ e, Writes d d' e ∧ d'.queue = d.queue ++ [e]) ∨
      ∃ e lost, e.raw.isSynDropped = true ∧ d' = { d with queue := e :: d.queue.drop lost } := by
  have hrecord (raw : TouchRaw D) (hs : selects ⟨raw, d.selected⟩ = false)
      (ht : tracks ⟨raw, d.selected⟩ = false) : Writes d (d.push raw) ⟨raw, d.selected⟩ := by
    refine ⟨rfl, rfl, ?_, fun n => ?_⟩
    · rw [hs]
      rfl
    · rw [ht]
      rfl
  cases event with
  | select slot t =>
    obtain ⟨_, h⟩ := Option.ite_none_right_eq_some.mp h
    obtain rfl := Option.some.inj h
    exact .inl ⟨_, ⟨rfl, rfl, rfl, fun _ => rfl⟩, rfl⟩
  | track id t =>
    obtain rfl := Option.some.inj h
    refine .inl ⟨_, ⟨rfl, rfl, rfl, fun n => ?_⟩, rfl⟩
    by_cases hn : d.selected = n
    · subst hn
      simp [tracks, heldId, decodeId_trackingValue]
    · simp [heldId, hn, Ne.symm hn]
  | move axis value t =>
    obtain rfl := Option.some.inj h
    have hw := hrecord ⟨evAbs, axisCode axis, value, t⟩ (by cases axis <;> rfl) (by cases axis <;> rfl)
    exact .inl ⟨_, ⟨hw.lastSlot, hw.slot, hw.selected, hw.contact⟩, rfl⟩
  | report t =>
    obtain rfl := Option.some.inj h
    exact .inl ⟨_, hrecord _ rfl rfl, rfl⟩
  | other raw =>
    obtain ⟨hforeign, h⟩ := Option.ite_none_right_eq_some.mp h
    obtain rfl := Option.some.inj h
    have hkind : selects ⟨raw, d.selected⟩ = false ∧ tracks ⟨raw, d.selected⟩ = false := by
      unfold isForeign at hforeign
      unfold selects tracks
      constructor <;> by_contra hne <;> simp_all
    exact .inl ⟨_, hrecord raw hkind.1 hkind.2, rfl⟩
  | overflow lost t =>
    obtain rfl := Option.some.inj h
    exact .inr ⟨_, lost, rfl, rfl⟩

/-- Records taken over by a reader grow with the queue, or a loss is reported among them. -/
def Grows (d d' : Device D) (pending pending' : List (Queued D)) : Prop :=
  Lossy pending' ∨ ¬ Lossy pending ∧ ∃ e, Writes d d' e ∧ pending' = pending ++ [e]

theorem Lossy.mono {pending pending' : List (Queued D)} (h : Lossy pending)
    (hsub : ∀ e ∈ pending, e ∈ pending') : Lossy pending' := by
  obtain ⟨e, he, hdrop⟩ := h
  exact ⟨e, hsub e he, hdrop⟩

theorem act_grows {d d' : Device D} {event : DeviceEvent D} (h : d.act event = some d')
    (hand : List (Queued D)) : Grows d d' (hand ++ d.queue) (hand ++ d'.queue) := by
  rcases act_cases h with ⟨e, hw, hq⟩ | ⟨e, lost, hdrop, rfl⟩
  · by_cases hl : Lossy (hand ++ d.queue)
    · refine .inl (hl.mono fun a ha => ?_)
      rw [hq, ← List.append_assoc]
      exact List.mem_append_left _ ha
    · exact .inr ⟨hl, e, hw, by rw [hq, List.append_assoc]⟩
  · exact .inl ⟨e, by simp, hdrop⟩

theorem Grows.or {d d' : Device D} {pending pending' : List (Queued D)} {P Q : Prop}
    (hg : Grows d d' pending pending')
    (hstep : ∀ e, Writes d d' e → pending' = pending ++ [e] → P → Q)
    (h : Lossy pending ∨ P) : Lossy pending' ∨ Q := by
  rcases hg with hl | ⟨hl, e, hw, he⟩
  · exact .inl hl
  · exact .inr (hstep e hw he (h.resolve_left hl))

theorem act_history {d d' : Device D} {event : DeviceEvent D} (h : d.act event = some d')
    (hist : History d d.queue) : History d' d'.queue := by
  rcases act_cases h with ⟨e, hw, hq⟩ | ⟨e, lost, hdrop, rfl⟩
  · rw [hq]
    exact hist.concat hw
  · have hkind : selects e = false ∧ tracks e = false := by
      unfold TouchRaw.isSynDropped evSyn at hdrop
      unfold selects tracks evAbs
      constructor <;> by_contra hne <;> simp_all
    obtain ⟨n, hn⟩ := (hist.drop lost).follows
    refine ⟨⟨n, ?_⟩, fun m => ?_⟩
    · simpa [Follows, hkind] using hn
    · have hm := (hist.drop lost).recalls m
      change (trackedIds m (e :: d.queue.drop lost)).getLast?.getD (heldId d m) = heldId d m
      rw [← List.singleton_append, trackedIds_append, trackedIds_singleton]
      simpa [hkind] using hm

/-- The tracking id of the contact a slot of the decoder holds. -/
def contactId (slot : TouchSlot F D) : Option Int :=
  if slot.active = true then some slot.trackingId else none

/-- The same by slot number; slots the decoder does not have are empty. -/
def viewId (ti : TouchInput F D) (n : Nat) : Option Int :=
  (selectedSlot n).bind fun i => contactId (ti.slot i)

theorem selectedSlot_lt {n : Nat} (h : n < touchMaxSlots) : selectedSlot n = some ⟨n, h⟩ :=
  selectedSlot_slotNumber ⟨n, h⟩

theorem selectedSlot_none {n : Nat} (h : ¬ n < touchMaxSlots) : selectedSlot n = none := by
  unfold selectedSlot
  rw [dif_neg (by omega)]

/-- The selection, the discard flag and the contacts are left alone. -/
structure SameContacts (ti ti' : TouchInput F D) : Prop where
  currentSlot : ti'.currentSlot = ti.currentSlot
  discarding : ti'.discarding = ti.discarding
  active : ∀ i, (ti'.slot i).active = (ti.slot i).active
  trackingId : ∀ i, (ti'.slot i).trackingId = (ti.slot i).trackingId

theorem SameContacts.refl (ti : TouchInput F D) : SameContacts ti ti :=
  ⟨rfl, rfl, fun _ => rfl, fun _ => rfl⟩

theorem SameContacts.trans {ti ti' ti'' : TouchInput F D} (h : SameContacts ti ti')
    (h' : SameContacts ti' ti'') : SameContacts ti ti'' :=
  ⟨h'.currentSlot.trans h.currentSlot, h'.discarding.trans h.discarding,
    fun i => (h'.active i).trans (h.active i), fun i => (h'.trackingId i).trans (h.trackingId i)⟩

theorem SameContacts.setSlot (ti : TouchInput F D) (i : Fin touchMaxSlots) (s : TouchSlot F D)
    (hact : s.active = (ti.slot i).active) (hid : s.trackingId = (ti.slot i).trackingId) :
    SameContacts ti (ti.setSlot i s) := by
  refine ⟨rfl, rfl, fun j => ?_, fun j => ?_⟩
  · rw [setSlot_slot]
    split <;> simp_all
  · rw [setSlot_slot]
    split <;> simp_all

theorem appendFrameEvent_same (ti : TouchInput F D) (kind : TouchKind) (i : Fin touchMaxSlots) (t : D) :
    SameContacts ti (appendFrameEvent ti kind i t) := by
  have h := SameContacts.setSlot ti i { ti.slot i with frameEvent := some ti.frame.length } rfl rfl
  exact ⟨rfl, rfl, h.active, h.trackingId⟩

theorem viewId_of_inactive {ti : TouchInput F D} (h : ∀ i, (ti.slot i).active = false) (n : Nat) :
    viewId ti n = none := by
  unfold viewId contactId
  cases selectedSlot (n : Int) <;> simp [h]

theorem publishFrame_same (ti : TouchInput F D) : SameContacts ti (publishFrame ti) := by
  have hannounce {α : Type} (field : TouchSlot F D → α)
      (hf : ∀ s b, field { s with announced := b } = field s) (i : Fin touchMaxSlots) :
      field (announceFrame ti.frame ti.slot i) = field (ti.slot i) :=
    foldl_modifySlot field TouchEvent.slot (fun e s => { s with announced := announce s.announced e.kind })
      (fun _ _ => hf _ _) _ _ _
  unfold publishFrame
  split
  · exact ⟨rfl, rfl, fun _ => rfl, fun _ => rfl⟩
  · exact ⟨rfl, rfl, hannounce TouchSlot.active fun _ _ => rfl,
      hannounce TouchSlot.trackingId fun _ _ => rfl⟩

/-- One slot's contact is set, the others are left alone. -/
structure SetsContact (k : Fin touchMaxSlots) (value : Int) (ti ti' : TouchInput F D) : Prop where
  currentSlot : ti'.currentSlot = ti.currentSlot
  discarding : ti'.discarding = ti.discarding
  contact : ∀ i, contactId (ti'.slot i) = if i = k then decodeId value else contactId (ti.slot i)

theorem SetsContact.after {k : Fin touchMaxSlots} {value : Int} {ti ti' ti'' : TouchInput F D}
    (h : SameContacts ti ti') (h' : SetsContact k value ti' ti'') : SetsContact k value ti ti'' := by
  refine ⟨h'.currentSlot.trans h.currentSlot, h'.discarding.trans h.discarding, fun i => ?_⟩
  rw [h'.contact i]
  unfold contactId
  rw [h.active, h.trackingId]

section Decoder
variable [CFloat F]

/-- A new contact on a slot, whatever the slot held before. -/
private theorem landed_sets (ti : TouchInput F D) (k : Fin touchMaxSlots) {value : Int}
    (hvalue : value ≠ -1) (t : D) : SetsContact k value ti (landed ti k value t) := by
  have hcancel : SameContacts ti (if (ti.slot k).active then appendFrameEvent ti .cancel k t else ti) := by
    split
    · exact appendFrameEvent_same ti .cancel k t
    · exact .refl ti
  refine SetsContact.after hcancel ⟨rfl, rfl, fun i => ?_⟩
  by_cases hi : i = k
  · subst hi
    simp [landed, landedSlot, appendFrameEvent_slot, contactId, resetFilter, decodeId, hvalue]
  · simp [landed, appendFrameEvent_slot, setSlot_slot, hi]

/-- A tracking id sets the contact of the selected slot. -/
theorem handleTrackingId_sets {ti : TouchInput F D} {k : Fin touchMaxSlots}
    (hk : selectedSlot ti.currentSlot = some k) (value : Int) (t : D) :
    SetsContact k value ti (handleTrackingId ti value t) := by
  have hspoken : SameContacts ti (ti.setSlot k { ti.slot k with lastSpoke := t }) :=
    .setSlot ti k _ rfl rfl
  apply handleTrackingId_cases (P := SetsContact k value ti) ti hk value t
  case quiet =>
    intro hheld
    refine SetsContact.after hspoken ⟨rfl, rfl, fun i => ?_⟩
    by_cases hi : i = k
    · rw [hi, if_pos rfl, contactId, hspoken.active, hspoken.trackingId]
      rcases hheld with ⟨hlift, hoff⟩ | ⟨hlift, hon, hid⟩
      · simp [decodeId, hlift, hoff]
      · simp [decodeId, hlift, hon, hid]
    · rw [if_neg hi]
  case lift =>
    rintro hlift _ ti' rfl
    refine SetsContact.after (hspoken.trans (appendFrameEvent_same _ .up k t)) ⟨rfl, rfl, fun i => ?_⟩
    by_cases hi : i = k
    · subst hi
      simp [contactId, decodeId, hlift]
    · simp [setSlot_slot, hi]
  case land => exact fun hvalue _ => SetsContact.after hspoken (landed_sets _ k hvalue t)

theorem handlePosition_same [CFloat D] [CDouble F D] (ti : TouchInput F D) (code : Nat) (value : Int)
    (t : D) : SameContacts ti (handlePosition ti code value t) := by
  cases hi : selectedSlot ti.currentSlot with
  | none => simpa [handlePosition, hi] using SameContacts.refl ti
  | some i =>
    have hspoken : SameContacts ti (ti.setSlot i { ti.slot i with lastSpoke := t }) :=
      .setSlot ti i _ rfl rfl
    apply handlePosition_cases (P := SameContacts ti) ti hi code value t
    case quiet => exact fun _ => hspoken
    case place =>
      rintro _ spoken slot rfl rfl
      generalize ti.setSlot i { ti.slot i with lastSpoke := t } = spoken at *
      obtain ⟨hact, _, hid⟩ := filterPosition_keeps spoken (spoken.slot i) code value t
      generalize filterPosition spoken (spoken.slot i) code value t = slot at *
      have hslot := hspoken.trans (.setSlot spoken i slot hact hid)
      exact ⟨fun _ _ _ => hslot.trans ⟨rfl, rfl, fun _ => rfl, fun _ => rfl⟩,
        fun _ => hslot.trans (appendFrameEvent_same _ .move i t)⟩

variable [CFloat D]

theorem cancelActiveToFrame_silent (ti : TouchInput F D) (t : D) (i : Fin touchMaxSlots) :
    ((cancelActiveToFrame ti t).slot i).active = false := by
  rw [cancelActiveToFrame_eq]
  rfl

private theorem resyncSlot_contact {info : SlotInfo} (hmin : info.minimum = 0) (ids xs ys : List Int)
    (t : D) (ti : TouchInput F D) (m : Nat) :
    (resyncSlot info ids xs ys t ti m).currentSlot = ti.currentSlot ∧
      (resyncSlot info ids xs ys t ti m).discarding = ti.discarding ∧
      ∀ i, contactId ((resyncSlot info ids xs ys t ti m).slot i) =
        if i.val = m ∧ 0 ≤ ids.getD m (-1) then some (ids.getD m (-1)) else contactId (ti.slot i) := by
  unfold resyncSlot
  rw [hmin, Int.zero_add]
  by_cases hid : ids.getD m (-1) < 0
  · rw [if_pos hid]
    refine ⟨rfl, rfl, fun i => ?_⟩
    rw [if_neg (by omega)]
  · rw [if_neg hid]
    cases hsel : selectedSlot (m : Int) with
    | none =>
      refine ⟨rfl, rfl, fun i => ?_⟩
      have hne : i.val ≠ m := by
        rintro rfl
        rw [selectedSlot_lt i.isLt] at hsel
        cases hsel
      rw [if_neg (by omega)]
    | some k =>
      have hk : (k.val : Int) = m := slotNumber_of_selectedSlot hsel
      refine ⟨rfl, rfl, fun i => ?_⟩
      by_cases hi : i = k
      · subst hi
        rw [if_pos ⟨by omega, by omega⟩]
        simp [contactId]
      · have hne : i.val ≠ m := by
          intro he
          exact hi (Fin.ext (by omega))
        rw [if_neg (by omega)]
        simp [hi, setSlot_slot]

/-- The snapshot sets the contacts of the slots it lists and keeps the others. -/
theorem resyncDriver_contact {info : SlotInfo} (hmin : info.minimum = 0) (ids xs ys : List Int)
    (t : D) (ti : TouchInput F D) :
    (resyncDriver info ids xs ys t ti).currentSlot = info.value ∧
      (resyncDriver info ids xs ys t ti).discarding = ti.discarding ∧
      ∀ i, contactId ((resyncDriver info ids xs ys t ti).slot i) =
        if i.val < info.count.toNat ∧ 0 ≤ ids.getD i.val (-1) then some (ids.getD i.val (-1))
        else contactId (ti.slot i) := by
  unfold resyncDriver
  generalize info.count.toNat = count
  induction count with
  | zero => exact ⟨rfl, rfl, fun i => by simp⟩
  | succ m ih =>
    rw [List.range_succ, List.foldl_append, List.foldl_cons, List.foldl_nil]
    obtain ⟨hslot, hdisc, hcontact⟩ := ih
    obtain ⟨hslot', hdisc', hcontact'⟩ := resyncSlot_contact hmin ids xs ys t
      ((List.range m).foldl (resyncSlot info ids xs ys t) { ti with currentSlot := info.value }) m
    refine ⟨hslot'.trans hslot, hdisc'.trans hdisc, fun i => ?_⟩
    rw [hcontact', hcontact]
    by_cases hm : i.val = m
    · subst hm
      simp
    · have hlt : i.val < m + 1 ↔ i.val < m := by omega
      simp [hm, hlt]

variable [CDouble F D]

theorem feedOne_dropped (ti : TouchInput F D) {raw : TouchRaw D} (h : raw.isSynDropped = true) :
    (feedOne ti raw).discarding = true ∧ ∀ i, ((feedOne ti raw).slot i).active = false := by
  unfold feedOne
  rw [if_pos h]
  exact ⟨rfl, cancelActiveToFrame_silent ti raw.t⟩

/-- While a packet is discarded only SYN_REPORT has an effect, and none on the contacts. -/
theorem feedOne_discarding {ti : TouchInput F D} {raw : TouchRaw D} (hd : ti.discarding = true)
    (h : raw.isSynDropped = false) : (feedOne ti raw).discarding = !raw.isSynReport ∧
      ∀ i, ((feedOne ti raw).slot i).active = (ti.slot i).active := by
  unfold feedOne
  rw [if_neg (by simp [h]), if_pos hd]
  cases raw.isSynReport with
  | true =>
    have hsame := publishFrame_same { ti with discarding := false }
    exact ⟨hsame.discarding, hsame.active⟩
  | false => exact ⟨hd, fun _ => rfl⟩

/-- Outside a loss a record selects a slot, sets the selected slot's contact, or does neither. -/
theorem feedOne_clean {ti : TouchInput F D} (e : Queued D) (hd : ti.discarding = false)
    (h : e.raw.isSynDropped = false) : (feedOne ti e.raw).discarding = false ∧
      (feedOne ti e.raw).currentSlot = (if selects e = true then e.raw.value else ti.currentSlot) ∧
      ∀ i, contactId ((feedOne ti e.raw).slot i) =
        if tracks e = true ∧ slotNumber i = ti.currentSlot then decodeId e.raw.value
        else contactId (ti.slot i) := by
  have hkeep {ti' : TouchInput F D} (hs : selects e = false) (ht : tracks e = false)
      (hsame : SameContacts ti ti') : ti'.discarding = false ∧
        ti'.currentSlot = (if selects e = true then e.raw.value else ti.currentSlot) ∧
        ∀ i, contactId (ti'.slot i) =
          if tracks e = true ∧ slotNumber i = ti.currentSlot then decodeId e.raw.value
          else contactId (ti.slot i) := by
    refine ⟨hsame.discarding.trans hd, ?_, fun i => ?_⟩
    · rw [hs]
      exact hsame.currentSlot
    · unfold contactId
      rw [hsame.active, hsame.trackingId]
      simp [ht]
  have habs {code : Nat} (htype : e.raw.type = evAbs) (hcode : e.raw.code = code) :
      selects e = (code == absMtSlot) ∧ tracks e = (code == absMtTrackingId) := by
    simp [selects, tracks, htype, hcode]
  apply feedOne_cases (P := fun ti' => ti'.discarding = false ∧
    ti'.currentSlot = (if selects e = true then e.raw.value else ti.currentSlot) ∧
    ∀ i, contactId (ti'.slot i) =
      if tracks e = true ∧ slotNumber i = ti.currentSlot then decodeId e.raw.value
      else contactId (ti.slot i))
  case drop =>
    intro hdrop
    rw [h] at hdrop
    cases hdrop
  case report =>
    intro _ hreport
    have htype : (e.raw.type == evAbs) = false := by
      unfold TouchRaw.isSynReport evSyn at hreport
      unfold evAbs
      by_contra hne
      simp_all
    have hsame := publishFrame_same { ti with discarding := false }
    refine hkeep (by simp [selects, htype]) (by simp [tracks, htype]) ?_
    exact ⟨hsame.currentSlot, hsame.discarding.trans hd.symm, hsame.active, hsame.trackingId⟩
  case skip =>
    intro _ _ hdt
    rw [hd] at hdt
    cases hdt
  case other =>
    intro _ _ _ hother
    refine hkeep ?_ ?_ (.refl ti)
    · by_contra hne
      have hs : e.raw.type = evAbs ∧ e.raw.code = absMtSlot := by simpa [selects] using hne
      exact (hother hs.1).1 hs.2
    · by_contra hne
      have ht : e.raw.type = evAbs ∧ e.raw.code = absMtTrackingId := by simpa [tracks] using hne
      exact (hother ht.1).2.1 ht.2
  case select =>
    intro _ htype hcode
    obtain ⟨hs, ht⟩ := habs htype hcode
    rw [hs, ht]
    exact ⟨hd, rfl, fun i => rfl⟩
  case track =>
    intro _ htype hcode
    obtain ⟨hs, ht⟩ := habs htype hcode
    rw [hs, ht]
    cases hsel : selectedSlot ti.currentSlot with
    | none =>
      have hun : handleTrackingId ti e.raw.value e.raw.t = ti := by
        unfold handleTrackingId
        rw [hsel]
      rw [hun]
      refine ⟨hd, rfl, fun i => ?_⟩
      rw [if_neg]
      rintro ⟨_, hi⟩
      rw [← hi, selectedSlot_slotNumber] at hsel
      cases hsel
    | some k =>
      have hset := handleTrackingId_sets hsel e.raw.value e.raw.t
      refine ⟨hset.discarding.trans hd, hset.currentSlot, fun i => ?_⟩
      rw [hset.contact, ← slotNumber_of_selectedSlot hsel]
      simp
  case place =>
    intro _ htype hcode
    have hpos : selects e = false ∧ tracks e = false := by
      rcases hcode with hc | hc <;> exact habs htype hc
    exact hkeep hpos.1 hpos.2 (handlePosition_same ti _ _ _)

end Decoder

/-- The decoder selects the device's slot and holds exactly the device's contacts. -/
structure Agrees (s : System F D) : Prop where
  selected : s.reader.input.currentSlot = s.device.selected
  contacts : ∀ (n : Nat) (id : Int),
    (∃ i : Fin touchMaxSlots, i.val = n ∧ (s.reader.input.slot i).active = true ∧
      (s.reader.input.slot i).trackingId = id) ↔
    ∃ c : Nat, s.device.contact n = some c ∧ id = c

/-- Nothing is queued and no resynchronisation is outstanding. -/
def Settled (s : System F D) : Prop :=
  s.device.queue = [] ∧ s.reader.input.discarding = false ∧ s.reader.resyncNeeded = false

/-- The record a resynchronisation was started before, if any. -/
def inHand : Resume D → List (Queued D)
  | .before event => [event]
  | .entry | .after => []

/-- The records the device has queued and the decoder has not been fed. -/
def unfed (s : System F D) (resume : Resume D) : List (Queued D) := inHand resume ++ s.device.queue

/-- A loss is still to be read, or no tracking id is waiting that was written for another slot
than the one selected now and that no reported selection precedes. -/
def Replayable (d : Device D) (pending : List (Queued D)) : Prop :=
  Lossy pending ∨ ∀ e ∈ pending.takeWhile (fun e => !selects e), tracks e = true → e.slot = d.selected

instance (d : Device D) (pending : List (Queued D)) : Decidable (Replayable d pending) :=
  inferInstanceAs (Decidable ((∃ e ∈ pending, e.raw.isSynDropped = true) ∨ _))

/-- A resynchronisation that asks for the selected slot next. -/
def sampling : Pc D → Option (Resume D)
  | .resync .slot resume => some resume
  | _ => none

def lands : DeviceEvent D → Bool
  | .track (some _) _ => true
  | _ => false

/-- Contacts land on slots the decoder has, and whenever the selection is sampled the records
not fed yet can be replayed on it. -/
def StepReplayable (s : System F D) : Step D → Prop
  | .device event => lands event = true → s.device.selected < touchMaxSlots
  | .answer => ∀ resume ∈ sampling s.reader.pc, Replayable s.device (unfed s resume)
  | _ => True

instance (s : System F D) : (step : Step D) → Decidable (StepReplayable s step)
  | .device event => inferInstanceAs (Decidable (lands event = true → _))
  | .answer => inferInstanceAs (Decidable (∀ resume ∈ sampling s.reader.pc, _))
  | .call .. | .read | .readFails _ | .refuse _ => instDecidableTrue

/-- What the answers of a resynchronisation in progress are worth now. -/
def StageCurrent (d : Device D) (pending : List (Queued D)) : Stage → Prop
  | .slot => True
  | .ids info => info.minimum = 0 ∧ info.maximum = d.lastSlot ∧
      (Lossy pending ∨ Follows info.value pending d.selected)
  | .xs info ids | .ys info ids _ => info.minimum = 0 ∧ info.maximum = d.lastSlot ∧
      ids.length ≤ info.count.toNat ∧ (∀ v ∈ ids, -1 ≤ v) ∧
      (Lossy pending ∨ Follows info.value pending d.selected ∧
        Recalls (fun n => decodeId (ids.getD n (-1))) d pending)

/-- The device's contacts stay on slots that it and the decoder have. -/
structure InRange (d : Device D) : Prop where
  selected : d.selected ≤ d.lastSlot
  contact : ∀ n c, d.contact n = some c → n ≤ d.lastSlot ∧ n < touchMaxSlots

/-- The reader against the device. A decoder that waits for a snapshot is empty; otherwise the
unread records lead from its selection and contacts to the device's, unless one reports a loss. -/
structure Coherent (s : System F D) : Prop where
  inRange : InRange s.device
  history : History s.device s.device.queue
  silent : s.reader.input.discarding = true ∨ s.reader.resyncNeeded = true →
    ∀ i, (s.reader.input.slot i).active = false
  exclusive : s.reader.resyncNeeded = true → s.reader.input.discarding = false
  following : s.reader.input.discarding = false → s.reader.resyncNeeded = false →
    Lossy s.device.queue ∨ Follows s.reader.input.currentSlot s.device.queue s.device.selected ∧
      Recalls (viewId s.reader.input) s.device s.device.queue
  asking : ∀ stage resume, s.reader.pc = .resync stage resume → s.reader.resyncNeeded = true ∧
    (Lossy (unfed s resume) ∨ History s.device (unfed s resume)) ∧
    StageCurrent s.device (unfed s resume) stage

theorem Coherent.settle {s : System F D} (h : Coherent s) {r : Reader F D}
    (hslot : r.input.slot = s.reader.input.slot)
    (hcurrent : r.input.currentSlot = s.reader.input.currentSlot)
    (hdiscarding : r.input.discarding = s.reader.input.discarding)
    (hneeded : r.resyncNeeded = s.reader.resyncNeeded)
    (hpc : ∀ stage resume, r.pc = .resync stage resume →
      r.resyncNeeded = true ∧ stage = .slot ∧ inHand resume = []) :
    Coherent { device := s.device, reader := r } := by
  have hview : viewId r.input = viewId s.reader.input := by
    funext n
    unfold viewId
    rw [hslot]
  refine ⟨h.inRange, h.history, ?_, ?_, ?_, ?_⟩
  · rw [hdiscarding, hneeded, hslot]
    exact h.silent
  · rw [hdiscarding, hneeded]
    exact h.exclusive
  · rw [hdiscarding, hneeded, hcurrent, hview]
    exact h.following
  · intro stage resume hp
    obtain ⟨hn, rfl, hhand⟩ := hpc stage resume hp
    refine ⟨hn, .inr ?_, trivial⟩
    unfold unfed
    rw [hhand]
    exact h.history

private theorem act_inRange {d d' : Device D} {event : DeviceEvent D} (h : d.act event = some d')
    (hr : InRange d) (hok : ∀ c t, event = .track (some c) t → d.selected < touchMaxSlots) :
    InRange d' := by
  cases event with
  | select slot t =>
    obtain ⟨hslot, h⟩ := Option.ite_none_right_eq_some.mp h
    obtain rfl := Option.some.inj h
    exact ⟨hslot.1, hr.contact⟩
  | track id t =>
    obtain rfl := Option.some.inj h
    refine ⟨hr.selected, fun n c hc => ?_⟩
    by_cases hn : n = d.selected
    · subst hn
      obtain rfl : id = some c := by simpa using hc
      exact ⟨hr.selected, hok c t rfl⟩
    · exact hr.contact n c (by simpa [hn] using hc)
  | move axis value t =>
    obtain rfl := Option.some.inj h
    exact ⟨hr.selected, hr.contact⟩
  | report t =>
    obtain rfl := Option.some.inj h
    exact ⟨hr.selected, hr.contact⟩
  | other raw =>
    obtain ⟨_, h⟩ := Option.ite_none_right_eq_some.mp h
    obtain rfl := Option.some.inj h
    exact ⟨hr.selected, hr.contact⟩
  | overflow lost t =>
    obtain rfl := Option.some.inj h
    exact ⟨hr.selected, hr.contact⟩

/-- The device's moves keep the reader coherent with it. -/
theorem act_coherent {s : System F D} {event : DeviceEvent D} {d' : Device D} (h : Coherent s)
    (hact : s.device.act event = some d')
    (hok : ∀ c t, event = .track (some c) t → s.device.selected < touchMaxSlots) :
    Coherent { s with device := d' } := by
  have hlast : d'.lastSlot = s.device.lastSlot := by
    rcases act_cases hact with ⟨e, hw, _⟩ | ⟨e, lost, _, rfl⟩
    · exact hw.lastSlot
    · rfl
  have hfollows {n : Int} {e : Queued D} {pending : List (Queued D)} (hw : Writes s.device d' e)
      (hf : Follows n pending s.device.selected) : Follows n (pending ++ [e]) d'.selected :=
    hf.concat hw.selected fun _ => by rw [hw.slot]
  refine ⟨act_inRange hact h.inRange hok, act_history hact h.history, h.silent, h.exclusive, ?_, ?_⟩
  · intro hd hn
    refine (act_grows hact []).or (fun e hw he hfr => ?_) (h.following hd hn)
    rw [List.nil_append, List.nil_append] at he
    rw [he]
    exact ⟨hfollows hw hfr.1, hfr.2.concat hw fun _ _ => rfl⟩
  · intro stage resume hp
    obtain ⟨hn, hhist, hstage⟩ := h.asking stage resume hp
    have hgrows : Grows s.device d' (unfed s resume) (unfed { s with device := d' } resume) :=
      act_grows hact (inHand resume)
    refine ⟨hn, hgrows.or (fun e hw he hist => ?_) hhist, ?_⟩
    · rw [he]
      exact hist.concat hw
    · cases stage with
      | slot => trivial
      | ids info =>
        obtain ⟨hmin, hmax, hf⟩ := hstage
        refine ⟨hmin, hmax.trans (by rw [hlast]), hgrows.or (fun e hw he hf => ?_) hf⟩
        rw [he]
        exact hfollows hw hf
      | xs info ids =>
        obtain ⟨hmin, hmax, hlen, hids, hf⟩ := hstage
        refine ⟨hmin, hmax.trans (by rw [hlast]), hlen, hids, hgrows.or (fun e hw he hf => ?_) hf⟩
        rw [he]
        exact ⟨hfollows hw hf.1, hf.2.concat hw fun _ _ => rfl⟩
      | ys info ids xs =>
        obtain ⟨hmin, hmax, hlen, hids, hf⟩ := hstage
        refine ⟨hmin, hmax.trans (by rw [hlast]), hlen, hids, hgrows.or (fun e hw he hf => ?_) hf⟩
        rw [he]
        exact ⟨hfollows hw hf.1, hf.2.concat hw fun _ _ => rfl⟩

private theorem drainReady_input {ti ti' : TouchInput F D} {out : Bool} {max : Int}
    {events : Option (List (TouchEvent F D))} (h : drainReady ti out max = (events, ti')) :
    ti'.slot = ti.slot ∧ ti'.currentSlot = ti.currentSlot ∧ ti'.discarding = ti.discarding := by
  unfold drainReady at h
  split at h <;> cases h <;> exact ⟨rfl, rfl, rfl⟩

private theorem finish_coherent {s : System F D} (h : Coherent s) :
    Coherent { s with reader := s.reader.finish } := by
  unfold Reader.finish
  split
  · rename_i ti hdrain
    obtain ⟨hslot, hcurrent, hdisc⟩ := drainReady_input hdrain
    exact h.settle hslot hcurrent hdisc rfl nofun
  · rename_i events ti hdrain
    obtain ⟨hslot, hcurrent, hdisc⟩ := drainReady_input hdrain
    simp only
    split
    · exact h.settle hslot hcurrent hdisc rfl nofun
    · exact h.settle hslot hcurrent hdisc rfl nofun

theorem Coherent.agrees {s : System F D} (h : Coherent s) (hs : Settled s) : Agrees s := by
  obtain ⟨hq, hd, hn⟩ := hs
  obtain ⟨hfollow, hrecall⟩ : s.reader.input.currentSlot = s.device.selected ∧
      ∀ n, viewId s.reader.input n = heldId s.device n := by
    rcases h.following hd hn with ⟨e, he, _⟩ | hf
    · rw [hq] at he
      cases he
    · rw [hq] at hf
      exact hf
  refine ⟨hfollow, fun n id => ⟨?_, ?_⟩⟩
  · rintro ⟨i, rfl, hact, rfl⟩
    have hi := hrecall i.val
    rw [viewId, selectedSlot_lt i.isLt, Option.bind_some, contactId, if_pos hact] at hi
    obtain ⟨c, hc, hid⟩ := Option.map_eq_some_iff.mp hi.symm
    exact ⟨c, hc, hid.symm⟩
  · rintro ⟨c, hc, rfl⟩
    obtain ⟨_, hlt⟩ := h.inRange.contact n c hc
    have hi := hrecall n
    rw [viewId, selectedSlot_lt hlt, Option.bind_some, contactId, heldId, hc] at hi
    refine ⟨⟨n, hlt⟩, rfl, ?_⟩
    split at hi
    · exact ⟨‹_›, Option.some.inj hi⟩
    · cases hi

section Reader
variable [CFloat F] [CFloat D]

theorem start_coherent (lastSlot : Nat) (position : TouchAxis → Nat → Int) (flip : TouchFlip F) :
    Coherent (System.start lastSlot position flip : System F D) := by
  refine ⟨⟨Nat.zero_le _, nofun⟩, ⟨⟨0, rfl⟩, fun _ => rfl⟩, fun _ _ => rfl, nofun, fun _ _ => .inr ?_, nofun⟩
  refine ⟨rfl, fun n => ?_⟩
  exact viewId_of_inactive (fun _ => rfl) n

/-- An empty decoder takes over the snapshot's contacts. -/
private theorem resyncDriver_view {ti : TouchInput F D} {info : SlotInfo} {ids : List Int}
    (hsilent : ∀ i, (ti.slot i).active = false) (hmin : info.minimum = 0)
    (hlen : ids.length ≤ info.count.toNat) (hids : ∀ v ∈ ids, -1 ≤ v) (xs ys : List Int) (t : D)
    (n : Nat) : viewId (resyncDriver info ids xs ys t ti) n = decodeId (ids.getD n (-1)) := by
  have hlow : -1 ≤ ids.getD n (-1) := by
    rw [List.getD_eq_getElem?_getD]
    cases hv : ids[n]? with
    | none => simp
    | some v => exact hids v (List.mem_of_getElem? hv)
  have hdefault (h : ids.length ≤ n) : ids.getD n (-1) = -1 := by
    rw [List.getD_eq_getElem?_getD, List.getElem?_eq_none h, Option.getD_none]
  have hcount : info.count.toNat ≤ touchMaxSlots := by
    unfold SlotInfo.count
    split <;> omega
  unfold viewId
  by_cases hn : n < touchMaxSlots
  · have hold : contactId (ti.slot ⟨n, hn⟩) = none := by simp [contactId, hsilent]
    rw [selectedSlot_lt hn, Option.bind_some, (resyncDriver_contact hmin ids xs ys t ti).2.2, hold]
    unfold decodeId
    simp only
    by_cases hc : n < info.count.toNat
    · by_cases hid : ids.getD n (-1) = -1
      · rw [if_neg (by omega), if_pos hid]
      · rw [if_pos ⟨hc, by omega⟩, if_neg hid]
    · rw [if_neg (by omega), if_pos (hdefault (by omega))]
  · rw [selectedSlot_none hn, Option.bind_none, hdefault (by omega)]
    rfl

variable [CDouble F D]

/-- A record outside a loss takes the decoder one record closer to the device. -/
theorem feedOne_follows {d : Device D} {ti : TouchInput F D} {e : Queued D} {rest : List (Queued D)}
    (hr : InRange d) (hd : ti.discarding = false) (hdrop : e.raw.isSynDropped = false)
    (hf : Follows ti.currentSlot (e :: rest) d.selected) (hk : Recalls (viewId ti) d (e :: rest)) :
    Follows (feedOne ti e.raw).currentSlot rest d.selected ∧
      Recalls (viewId (feedOne ti e.raw)) d rest := by
  obtain ⟨_, hslot, hcontact⟩ := feedOne_clean e hd hdrop
  unfold Follows at hf
  have htracks : tracks e = true → (e.slot : Int) = ti.currentSlot := by
    intro ht
    have hs : ¬ selects e = true := by
      unfold tracks at ht
      unfold selects
      unfold absMtSlot
      unfold absMtTrackingId at ht
      intro hs
      simp_all
    rw [if_neg hs] at hf
    exact hf.1 ht
  refine ⟨?_, fun n => ?_⟩
  · rw [hslot]
    split
    · rename_i hs
      rw [if_pos hs] at hf
      exact hf
    · rename_i hs
      rw [if_neg hs] at hf
      exact hf.2
  · have hn := hk.tail n
    by_cases hlt : n < touchMaxSlots
    · have hview : viewId (feedOne ti e.raw) n =
          if tracks e = true ∧ e.slot = n then decodeId e.raw.value else viewId ti n := by
        unfold viewId
        rw [selectedSlot_lt hlt, Option.bind_some, Option.bind_some, hcontact]
        by_cases ht : tracks e = true
        · have hiff : slotNumber ⟨n, hlt⟩ = ti.currentSlot ↔ e.slot = n := by
            rw [← htracks ht]
            exact ⟨fun hi => (Int.ofNat.inj hi).symm, fun hi => congrArg Int.ofNat hi.symm⟩
          simp [hiff]
        · simp [ht]
      rw [hview]
      exact hn
    · have hnone : heldId d n = none := by
        unfold heldId
        cases hc : d.contact n with
        | none => rfl
        | some c => exact absurd (hr.contact n c hc).2 hlt
      have hview : viewId (feedOne ti e.raw) n = none := by
        unfold viewId
        rw [selectedSlot_none hlt, Option.bind_none]
      rw [hview, hnone]
      rw [hnone] at hn
      cases hlast : (trackedIds n rest).getLast? with
      | none => rfl
      | some v => simpa [hlast] using hn

/-- Feeding one record to a decoder that owes no snapshot. -/
theorem feedRecord_coherent {d : Device D} {r : Reader F D} (e : Queued D) (hr : InRange d)
    (hist : History d d.queue) (hneeded : r.resyncNeeded = false)
    (hsilent : r.input.discarding = true → ∀ i, (r.input.slot i).active = false)
    (hfollow : r.input.discarding = false → Lossy (e :: d.queue) ∨
      Follows r.input.currentSlot (e :: d.queue) d.selected ∧
        Recalls (viewId r.input) d (e :: d.queue)) :
    Coherent { device := d, reader := r.feedRecord e.raw } := by
  unfold Reader.feedRecord
  cases hdrop : e.raw.isSynDropped with
  | true =>
    obtain ⟨hdisc, hactive⟩ := feedOne_dropped r.input hdrop
    simp only [hdisc, Bool.not_true, Bool.and_false, Bool.false_and, Bool.false_eq_true, if_false,
      hneeded]
    refine ⟨hr, hist, fun _ => hactive, nofun, fun h => ?_, nofun⟩
    rw [hdisc] at h
    cases h
  | false =>
    cases hd : r.input.discarding with
    | true =>
      obtain ⟨hdisc, hactive⟩ := feedOne_discarding hd hdrop
      have hempty (i : Fin touchMaxSlots) : ((feedOne r.input e.raw).slot i).active = false :=
        (hactive i).trans (hsilent hd i)
      cases hreport : e.raw.isSynReport with
      | true =>
        rw [hreport] at hdisc
        simp only [hdisc, Bool.not_true, Bool.not_false, Bool.and_self, if_true]
        refine ⟨hr, hist, fun _ => hempty, fun _ => hdisc, nofun, ?_⟩
        rintro stage resume ⟨⟩
        exact ⟨rfl, .inr hist, trivial⟩
      | false =>
        rw [hreport] at hdisc
        simp only [hdisc, Bool.and_false, Bool.false_eq_true, if_false, hneeded]
        refine ⟨hr, hist, fun _ => hempty, nofun, fun h => ?_, nofun⟩
        rw [Bool.not_false] at hdisc
        rw [hdisc] at h
        cases h
    | false =>
      have hdisc : (feedOne r.input e.raw).discarding = false := (feedOne_clean e hd hdrop).1
      simp only [Bool.false_and, Bool.false_eq_true, if_false, hneeded]
      refine ⟨hr, hist, ?_, nofun, fun _ _ => ?_, nofun⟩
      · rintro (h | h)
        · rw [hdisc] at h
          cases h
        · cases h
      · rcases hfollow hd with ⟨a, ha, hl⟩ | ⟨hf, hk⟩
        · rcases List.mem_cons.mp ha with rfl | ha
          · rw [hdrop] at hl
            cases hl
          · exact .inl ⟨a, ha, hl⟩
        · exact .inr (feedOne_follows hr hd hdrop hf hk)

omit [CFloat F] [CFloat D] [CDouble F D] in
/-- A snapshot of the tracking ids tells every contact that the device holds. -/
theorem mtSlots_held {d : Device D} (hr : InRange d) {info : SlotInfo} (hmin : info.minimum = 0)
    (hmax : info.maximum = d.lastSlot) (n : Nat) :
    decodeId ((d.mtSlots (fun i => trackingValue (d.contact i)) info.count.toNat).getD n (-1)) =
      heldId d n := by
  unfold Device.mtSlots heldId
  rw [← decodeId_trackingValue, List.getD_eq_getElem?_getD, List.getElem?_map]
  have hcount : info.count = if (d.lastSlot : Int) + 1 > touchMaxSlots then (touchMaxSlots : Int)
      else d.lastSlot + 1 := by
    unfold SlotInfo.count
    rw [hmin, hmax, Int.sub_zero]
  by_cases hn : n < min info.count.toNat (d.lastSlot + 1)
  · simp [List.getElem?_range hn]
  · have hnone : d.contact n = none := by
      by_contra hne
      obtain ⟨c, hc⟩ := Option.ne_none_iff_exists'.mp hne
      obtain ⟨hlast, hmaxslot⟩ := hr.contact n c hc
      rw [hcount] at hn
      split at hn <;> omega
    have hout : (List.range (min info.count.toNat (d.lastSlot + 1))).length ≤ n := by
      rw [List.length_range]
      omega
    rw [List.getElem?_eq_none hout, hnone]
    rfl

/-- Any answer to the pending ioctl keeps the reader coherent. -/
theorem answered_coherent {s : System F D} (h : Coherent s) {stage : Stage} {resume : Resume D}
    (hpc : s.reader.pc = .resync stage resume) (hok : StepReplayable s .answer) :
    Coherent { s with reader := s.reader.answered s.device stage resume } := by
  obtain ⟨hneeded, hhist, hstage⟩ := h.asking stage resume hpc
  have hdisc := h.exclusive hneeded
  have hnext {stage' : Stage} (hs : StageCurrent s.device (unfed s resume) stage') :
      Coherent { s with reader := { s.reader with pc := .resync stage' resume } } := by
    refine ⟨h.inRange, h.history, h.silent, h.exclusive, h.following, ?_⟩
    rintro _ _ ⟨⟩
    exact ⟨hneeded, hhist, hs⟩
  cases stage with
  | slot =>
    unfold Reader.answered
    have hpos : ¬ s.device.slotInfo.count ≤ 0 := by
      unfold SlotInfo.count Device.slotInfo
      simp only [Int.sub_zero]
      have hmax : touchMaxSlots = 10 := rfl
      split <;> omega
    rw [if_neg hpos]
    refine hnext ⟨rfl, rfl, ?_⟩
    rcases hhist with hl | hhist
    · exact .inl hl
    rcases hok resume (by rw [hpc]; rfl) with hl | hfresh
    · exact .inl hl
    obtain ⟨n, hn⟩ := hhist.follows
    refine .inr (hn.reselect fun e he ht => ?_)
    rw [hfresh e he ht]
  | ids info =>
    obtain ⟨hmin, hmax, hf⟩ := hstage
    have hlen : (s.device.mtSlots (fun i => trackingValue (s.device.contact i)) info.count.toNat).length ≤
        info.count.toNat := by
      simp [Device.mtSlots]
    refine hnext ⟨hmin, hmax, hlen, ?_, ?_⟩
    · intro v hv
      obtain ⟨n, _, rfl⟩ := List.mem_map.mp hv
      cases s.device.contact n with
      | none => exact le_refl _
      | some c =>
        change -1 ≤ (c : Int)
        omega
    · rcases hf with hl | hf
      · exact .inl hl
      rcases hhist with hl | hhist
      · exact .inl hl
      exact .inr ⟨hf, hhist.recalls.mono (mtSlots_held h.inRange hmin hmax)⟩
  | xs info ids => exact hnext hstage
  | ys info ids xs =>
    obtain ⟨hmin, hmax, hlen, hids, hf⟩ := hstage
    have hsilent := h.silent (.inr hneeded)
    have hview (ys : List Int) := resyncDriver_view hsilent hmin hlen hids xs ys s.reader.resyncTime
    have hkeeps (ys : List Int) := resyncDriver_contact hmin ids xs ys s.reader.resyncTime s.reader.input
    unfold Reader.answered
    simp only
    generalize s.device.mtSlots (s.device.position .y) info.count.toNat = ys
    have hf' : Lossy (unfed s resume) ∨
        Follows (resyncDriver info ids xs ys s.reader.resyncTime s.reader.input).currentSlot
            (unfed s resume) s.device.selected ∧
          Recalls (viewId (resyncDriver info ids xs ys s.reader.resyncTime s.reader.input)) s.device
            (unfed s resume) := by
      rcases hf with hl | ⟨hf, hk⟩
      · exact .inl hl
      · rw [(hkeeps ys).1]
        exact .inr ⟨hf, hk.mono (hview ys)⟩
    have hdisc' : (resyncDriver info ids xs ys s.reader.resyncTime s.reader.input).discarding = false :=
      (hkeeps ys).2.1.trans hdisc
    have hdone : inHand resume = [] → Coherent { s with reader :=
        { s.reader with
          input := resyncDriver info ids xs ys s.reader.resyncTime s.reader.input
          resyncNeeded := false, resyncErrno := 0, pc := .reading } } := by
      intro hhand
      unfold unfed at hf'
      rw [hhand] at hf'
      refine ⟨h.inRange, h.history, ?_, nofun, fun _ _ => hf', nofun⟩
      rintro (hd | hn)
      · rw [hdisc'] at hd
        cases hd
      · cases hn
    cases resume with
    | entry => exact hdone rfl
    | after => exact hdone rfl
    | before event =>
      refine feedRecord_coherent event h.inRange h.history rfl ?_ fun _ => hf'
      intro hd
      rw [hdisc'] at hd
      cases hd

theorem next_coherent {s s' : System F D} {step : Step D} (h : Coherent s) (hok : StepReplayable s step)
    (hnext : s.next step = some s') : Coherent s' := by
  cases step with
  | device event =>
    obtain ⟨d', hact, rfl⟩ := Option.map_eq_some_iff.mp hnext
    refine act_coherent h hact fun c t he => ?_
    subst he
    exact hok rfl
  | call out max clock =>
    simp only [System.next] at hnext
    cases hpc : s.reader.pc with
    | idle =>
      simp only [hpc] at hnext
      obtain rfl := Option.some.inj hnext
      unfold Reader.enter
      split
      · exact h.settle rfl rfl rfl rfl nofun
      · refine h.settle rfl rfl rfl rfl fun stage resume hp => ?_
        cases hn : s.reader.resyncNeeded with
        | true =>
          simp only [hn, if_true] at hp
          cases hp
          exact ⟨rfl, rfl, rfl⟩
        | false =>
          simp [hn] at hp
    | reading => simp [hpc] at hnext
    | resync stage resume => simp [hpc] at hnext
  | read =>
    simp only [System.next] at hnext
    split at hnext
    · rename_i e rest hpc hq
      obtain rfl := Option.some.inj hnext
      have hist := h.history
      rw [hq] at hist
      unfold Reader.processInputEvent
      split
      · rename_i hn
        refine ⟨⟨h.inRange.selected, h.inRange.contact⟩, ⟨hist.tail.follows, hist.tail.recalls⟩,
          h.silent, h.exclusive, fun _ hnot => ?_, ?_⟩
        · exact absurd (hn.symm.trans hnot) nofun
        · rintro _ _ ⟨⟩
          exact ⟨hn, .inr ⟨hist.follows, hist.recalls⟩, trivial⟩
      · rename_i hn
        have hneeded : s.reader.resyncNeeded = false := by simpa using hn
        refine feedRecord_coherent e ⟨h.inRange.selected, h.inRange.contact⟩
          ⟨hist.tail.follows, hist.tail.recalls⟩ hneeded (fun hd => h.silent (.inl hd)) fun hd => ?_
        have hf := h.following hd hneeded
        rw [hq] at hf
        exact hf
    · cases hnext
  | readFails errno =>
    simp only [System.next] at hnext
    split at hnext
    · rename_i hpc
      split at hnext
      · cases hnext
      obtain rfl := Option.some.inj hnext
      have hreading (stage : Stage) (resume : Resume D) : s.reader.pc ≠ .resync stage resume := by
        rw [hpc]
        nofun
      unfold Reader.readFailed
      split
      · exact finish_coherent h
      split
      · exact h
      · exact h.settle rfl rfl rfl rfl nofun
    · cases hnext
  | answer =>
    simp only [System.next] at hnext
    split at hnext
    · rename_i stage resume hpc
      obtain rfl := Option.some.inj hnext
      exact answered_coherent h hpc hok
    · cases hnext
  | refuse errno =>
    simp only [System.next] at hnext
    split at hnext
    · rename_i stage resume hpc
      obtain rfl := Option.some.inj hnext
      unfold Reader.resyncFailed
      cases resume <;> exact h.settle rfl rfl rfl rfl nofun
    · cases hnext

/-- Whatever the device does between the reader's system calls, once its queue is read and no
snapshot is owed the decoder agrees with it, in every run whose steps are replayable. -/
theorem settled_agrees (lastSlot : Nat) (position : TouchAxis → Nat → Int) (flip : TouchFlip F)
    (steps : List (Step D)) (s : System F D)
    (h : Run (Guarded (Enabled System.next) StepReplayable) (System.start lastSlot position flip) steps s)
    (hs : Settled s) : Agrees s := by
  refine Coherent.agrees (h.invariant _ (start_coherent lastSlot position flip) ?_) hs
  rintro t step u ht ⟨hok, hnext⟩
  exact next_coherent ht hok hnext

end Reader

/-- A loss, and a new contact that is queued between the sampled selection and the sampled ids. -/
def freshLandingSteps : List (Step ℚ) :=
  [.call true 64 none, .device (.track (some 1) 1), .device (.report 1), .read,
    .device (.move .x 6 2), .device (.report 2), .device (.overflow 2 2), .read, .read, .answer,
    .device (.select 1 3), .device (.track (some 2) 3), .device (.report 3),
    .answer, .answer, .answer, .read, .read, .read]

theorem fresh_landing_agrees : ∃ s : System ℚ ℚ, freshLandingSteps.foldlM System.next
    (System.start 1 (fun _ _ => 0) (touchFlipConfigure 1024 600 1023 599 none).1) = some s ∧
      Agrees s := by
  have hend : (freshLandingSteps.foldlM
      (fun s i => if StepReplayable s i then System.next s i else none) (System.start 1 (fun _ _ => 0)
      (touchFlipConfigure 1024 600 1023 599 none).1 : System ℚ ℚ)).any (fun s =>
        s.device.queue.isEmpty && !s.reader.input.discarding && !s.reader.resyncNeeded) = true := by
    decide +kernel
  obtain ⟨s, hsteps, hs⟩ := (Option.any_eq_true _ _).mp hend
  simp only [Bool.and_eq_true, Bool.not_eq_true', List.isEmpty_iff] at hs
  have hrun := run_guarded_foldlM System.next StepReplayable hsteps
  refine ⟨s, ?_, settled_agrees _ _ _ _ s hrun ⟨hs.1.1, hs.1.2, hs.2⟩⟩
  exact run_enabled_eq hrun.forget_guard

/-- Contacts on slots 0 and 1, slot 0 selected; a loss; slot 0 lifts and slot 1 is selected
again before the snapshot is taken. -/
def staleLiftSteps : List (Step ℚ) :=
  [.call true 64 none,
    .device (.track (some 1) 1), .device (.select 1 1), .device (.track (some 2) 1),
    .device (.select 0 1), .device (.move .x 5 1), .device (.report 1),
    .read, .read, .read, .read, .read, .read,
    .device (.move .x 6 2), .device (.report 2), .device (.overflow 1 2),
    .device (.track none 3), .device (.report 3),
    .device (.select 1 4), .device (.move .x 7 4), .device (.report 4),
    .read, .read, .answer, .answer, .answer, .answer,
    .read, .read, .read, .read, .read]

/-- The queued lift of slot 0 is replayed on slot 1, whose contact the device still holds. -/
theorem stale_lift_disagrees : ∃ s : System ℚ ℚ, Run (Enabled System.next)
    (System.start 1 (fun _ _ => 0) (touchFlipConfigure 1024 600 1023 599 none).1) staleLiftSteps s ∧
      Settled s ∧ ¬ Agrees s := by
  have hend : (staleLiftSteps.foldlM System.next (System.start 1 (fun _ _ => 0)
      (touchFlipConfigure 1024 600 1023 599 none).1 : System ℚ ℚ)).any (fun s =>
        s.device.queue.isEmpty && !s.reader.input.discarding && !s.reader.resyncNeeded &&
          !(s.reader.input.slot 1).active && s.device.contact 1 == some 2) = true := by
    decide +kernel
  obtain ⟨s, hrun, hs⟩ := (Option.any_eq_true _ _).mp hend
  simp only [Bool.and_eq_true, Bool.not_eq_true', List.isEmpty_iff, beq_iff_eq] at hs
  obtain ⟨⟨⟨⟨hq, hd⟩, hn⟩, hlifted⟩, hheld⟩ := hs
  refine ⟨s, run_foldlM _ hrun, ⟨hq, hd, hn⟩, fun h => ?_⟩
  obtain ⟨i, hi, hact, _⟩ := (h.contacts 1 2).mpr ⟨2, hheld, rfl⟩
  obtain rfl : i = 1 := Fin.ext hi
  rw [hlifted] at hact
  cases hact

end Taq102.Touch.Resync
