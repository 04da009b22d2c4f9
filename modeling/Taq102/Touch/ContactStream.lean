import Taq102.Lib.Bracket
import Taq102.Lib.Transition
import Taq102.Touch.Decoder

/-! Every contact the decoder reports begins with one DOWN and ends with one UP or CANCEL,
in whatever order packets, losses, expiries, flips and cancellations arrive. -/
namespace Taq102.Touch.ContactStream
open Taq102.Lib Bracket Transition
variable {F D : Type}

def bracketMark : TouchKind → Mark
  | .down => .opening
  | .move => .inner
  | .up | .cancel => .closing

/-- What one slot contributes to a stream of events. -/
abbrev contactMarks (i : Fin touchMaxSlots) (events : List (TouchEvent F D)) : List Mark :=
  marksOf TouchEvent.slot (fun e => bracketMark e.kind) (slotNumber i) events

theorem contactMarks_append (i : Fin touchMaxSlots) (es fs : List (TouchEvent F D)) :
    contactMarks i (es ++ fs) = contactMarks i es ++ contactMarks i fs :=
  marksOf_append _ _ _ es fs

theorem contactMarks_singleton (i : Fin touchMaxSlots) (e : TouchEvent F D) :
    contactMarks i [e] = if e.slot = slotNumber i then [bracketMark e.kind] else [] :=
  marksOf_singleton _ _ _ e

theorem announce_eq_follow (b : Bool) (kind : TouchKind) :
    announce b kind = follow b (bracketMark kind) := by
  cases kind <;> rfl

/-- The calls an application makes on a decoder; `out` says whether a buffer is given. -/
inductive Call (D : Type) where
  | feed (raw : List (TouchRaw D)) (out : Bool) (max : Int)
  | expire (now : D) (out : Bool) (max : Int)
  | setFlipped (flipped : Bool)
  | cancelAll (out : Bool) (max : Int)

/-- A decoder in use, with everything it has delivered so far. -/
structure Session (F D : Type) where
  input : TouchInput F D
  delivered : List (TouchEvent F D)

/-- Delivered events, then those still queued. -/
def Session.handedOut (s : Session F D) : List (TouchEvent F D) := s.delivered ++ s.input.ready

def Session.collect (s : Session F D) (result : Option (List (TouchEvent F D)) × TouchInput F D) :
    Session F D :=
  { input := result.2, delivered := s.delivered ++ result.1.getD [] }

/-- Each slot hands out well-nested contacts, and a slot whose contact is still open after
the last frame is still marked announced. -/
def ContactsNested (s : Session F D) : Prop :=
  ∀ i, Nested (contactMarks i s.handedOut) ∧
    (s.input.frame = [] → ∀ last, (s.handedOut.filter (·.slot = slotNumber i)).getLast? = some last →
      last.kind = .down ∨ last.kind = .move → (s.input.slot i).announced = true)

/-- Cancellations of lost contacts wait in the frame until the next SYN_REPORT. -/
def CancelPending (ti : TouchInput F D) : Prop := ti.discarding = true ∧ ti.frame ≠ []

/-- The pending frame takes each slot from its announced to its active state. -/
def FrameBalanced (ti : TouchInput F D) : Prop :=
  ∀ i, scan (ti.slot i).announced (contactMarks i ti.frame) = some (ti.slot i).active

/-- What an update of the pending frame leaves as the application knows it. -/
structure Unpublished (ti ti' : TouchInput F D) : Prop where
  ready : ti'.ready = ti.ready
  discarding : ti'.discarding = ti.discarding
  announced : ∀ i, (ti'.slot i).announced = (ti.slot i).announced

theorem Unpublished.refl (ti : TouchInput F D) : Unpublished ti ti := ⟨rfl, rfl, fun _ => rfl⟩

theorem Unpublished.trans {ti ti' ti'' : TouchInput F D} (h : Unpublished ti ti')
    (h' : Unpublished ti' ti'') : Unpublished ti ti'' :=
  ⟨h'.ready.trans h.ready, h'.discarding.trans h.discarding,
    fun i => (h'.announced i).trans (h.announced i)⟩

/-- An update of the pending frame that the application does not see yet. -/
structure FrameStep (ti ti' : TouchInput F D) : Prop where
  unpublished : Unpublished ti ti'
  balanced : FrameBalanced ti → FrameBalanced ti'

theorem FrameStep.refl (ti : TouchInput F D) : FrameStep ti ti := ⟨.refl ti, id⟩

theorem FrameStep.trans {ti ti' ti'' : TouchInput F D} (h : FrameStep ti ti')
    (h' : FrameStep ti' ti'') : FrameStep ti ti'' :=
  ⟨h.unpublished.trans h'.unpublished, fun hb => h'.balanced (h.balanced hb)⟩

/-- One slot's events are appended to the frame and its active flag follows them. -/
theorem FrameStep.ofEvents {ti ti' : TouchInput F D} (i : Fin touchMaxSlots)
    (events : List (TouchEvent F D)) (hslot : ∀ e ∈ events, e.slot = slotNumber i)
    (hscan : scan (ti.slot i).active (events.map fun e => bracketMark e.kind) =
      some (ti'.slot i).active)
    (hframe : ti'.frame = ti.frame ++ events) (hready : ti'.ready = ti.ready)
    (hdiscarding : ti'.discarding = ti.discarding)
    (hann : (ti'.slot i).announced = (ti.slot i).announced)
    (hother : ∀ j, j ≠ i → ti'.slot j = ti.slot j) : FrameStep ti ti' := by
  have hannounced (j : Fin touchMaxSlots) : (ti'.slot j).announced = (ti.slot j).announced := by
    by_cases hj : j = i
    · rw [hj, hann]
    · rw [hother j hj]
  refine ⟨⟨hready, hdiscarding, hannounced⟩, fun h j => ?_⟩
  rw [hframe, hannounced, contactMarks_append]
  by_cases hj : j = i
  · subst hj
    have hall : events.filter (·.slot = slotNumber j) = events :=
      List.filter_eq_self.mpr fun e he => by simpa using hslot e he
    have hown : contactMarks j events = events.map fun e => bracketMark e.kind := by
      simp [marksOf, hall]
    rw [hown]
    exact scan_concat (h j) hscan
  · have hnone : events.filter (·.slot = slotNumber j) = [] :=
      List.filter_eq_nil_iff.mpr fun e he => by simp [hslot e he, Ne.symm hj]
    have hown : contactMarks j events = [] := by simp [marksOf, hnone]
    rw [hown, List.append_nil, hother j hj]
    exact h j

theorem FrameStep.setSlot (ti : TouchInput F D) (i : Fin touchMaxSlots) (s : TouchSlot F D)
    (hann : s.announced = (ti.slot i).announced) (hact : s.active = (ti.slot i).active) :
    FrameStep ti (ti.setSlot i s) := by
  apply FrameStep.ofEvents i [] nofun
  · simp [hact]
  · simp
  · rfl
  · rfl
  · simpa using hann
  · intro j hj
    simp [setSlot_slot, hj]

/-- The decoder against the events handed out. While a packet is discarded the announced
flags are gone, and the pending cancellations alone close what the application saw open. -/
structure Balanced (ti : TouchInput F D) (handed : List (TouchEvent F D)) : Prop where
  scanned : ∀ i, ∃ o, scan false (contactMarks i handed) = some o ∧
    scan o (contactMarks i ti.frame) = some (ti.slot i).active ∧
    (ti.discarding = false → (ti.slot i).announced = o)
  cleared : ti.discarding = true → ∀ i, (ti.slot i).announced = false ∧ (ti.slot i).active = false
  cancels : ti.discarding = true → ∀ e ∈ ti.frame, e.kind = .cancel

theorem Balanced.frameBalanced {ti : TouchInput F D} {handed : List (TouchEvent F D)}
    (h : Balanced ti handed) (hd : ti.discarding = false) : FrameBalanced ti := by
  intro i
  obtain ⟨o, _, hf, ha⟩ := h.scanned i
  rw [ha hd]
  exact hf

theorem Balanced.scan_handed {ti : TouchInput F D} {handed : List (TouchEvent F D)}
    (h : Balanced ti handed) (hd : ti.discarding = false) (i : Fin touchMaxSlots) :
    scan false (contactMarks i handed) = some (ti.slot i).announced := by
  obtain ⟨o, hs, _, ha⟩ := h.scanned i
  rw [ha hd]
  exact hs

theorem Balanced.of_frameBalanced {ti : TouchInput F D} {handed : List (TouchEvent F D)}
    (hd : ti.discarding = false)
    (hs : ∀ i, scan false (contactMarks i handed) = some (ti.slot i).announced)
    (hf : FrameBalanced ti) : Balanced ti handed where
  scanned i := ⟨_, hs i, hf i, fun _ => rfl⟩
  cleared h := by simp [hd] at h
  cancels h := by simp [hd] at h

theorem Balanced.frameStep {ti ti' : TouchInput F D} {handed : List (TouchEvent F D)}
    (h : Balanced ti handed) (hd : ti.discarding = false) (hs : FrameStep ti ti') :
    Balanced ti' handed := by
  refine .of_frameBalanced (hs.unpublished.discarding.trans hd) (fun i => ?_)
    (hs.balanced (h.frameBalanced hd))
  rw [hs.unpublished.announced]
  exact h.scan_handed hd i

/-- Unless cancellations are pending, the announced flags say exactly what is open. -/
theorem Balanced.announced_of_not_pending {ti : TouchInput F D} {handed : List (TouchEvent F D)}
    (h : Balanced ti handed) (hp : ¬ CancelPending ti) (i : Fin touchMaxSlots) :
    scan false (contactMarks i handed) = some (ti.slot i).announced := by
  cases hd : ti.discarding with
  | false => exact h.scan_handed hd i
  | true =>
    have hframe : ti.frame = [] := by
      by_contra hne
      exact hp ⟨hd, hne⟩
    obtain ⟨o, hs, hf, _⟩ := h.scanned i
    obtain ⟨hann, hact⟩ := h.cleared hd i
    rw [hframe, hact] at hf
    obtain rfl : o = false := Option.some.inj hf
    rw [hann]
    exact hs

private theorem announceFrame_slot (frame : List (TouchEvent F D))
    (slots : Fin touchMaxSlots → TouchSlot F D) (i : Fin touchMaxSlots) :
    (announceFrame frame slots i).announced =
        (contactMarks i frame).foldl follow (slots i).announced ∧
      (announceFrame frame slots i).active = (slots i).active := by
  induction frame generalizing slots with
  | nil => exact ⟨rfl, rfl⟩
  | cons e rest ih =>
    obtain ⟨hann, hact⟩ := ih (modifySlot slots e.slot fun s =>
      { s with announced := announce s.announced e.kind })
    have hmarks := contactMarks_append i [e] rest
    rw [List.singleton_append] at hmarks
    rw [announceFrame, List.foldl_cons, ← announceFrame, hann, hact, hmarks, List.foldl_append,
      contactMarks_singleton]
    by_cases he : slotNumber i = e.slot
    · simp [modifySlot, he, announce_eq_follow]
    · simp [modifySlot, he, Ne.symm he]

/-- Publishing settles the announced flags at the active ones. -/
theorem publishFrame_balanced {ti : TouchInput F D} {delivered : List (TouchEvent F D)}
    (h : Balanced ti (delivered ++ ti.ready)) :
    Balanced (publishFrame { ti with discarding := false })
      (delivered ++ (publishFrame { ti with discarding := false }).ready) := by
  by_cases hempty : ti.frame = []
  · have hp : publishFrame { ti with discarding := false } = { ti with discarding := false } := by
      simp [publishFrame, hempty]
    rw [hp]
    have hscan := h.announced_of_not_pending fun hp => hp.2 hempty
    refine .of_frameBalanced rfl hscan fun i => ?_
    obtain ⟨o, hs, hf, _⟩ := h.scanned i
    obtain rfl : o = (ti.slot i).announced := Option.some.inj (hs.symm.trans (hscan i))
    exact hf
  · have hp : publishFrame { ti with discarding := false } =
        { ti with
          discarding := false
          ready := ti.ready ++ ti.frame
          frame := []
          slot := fun i => { announceFrame ti.frame ti.slot i with frameEvent := none } } := by
      simp [publishFrame, hempty]
    rw [hp]
    have hann (i : Fin touchMaxSlots) :
        (announceFrame ti.frame ti.slot i).announced = (ti.slot i).active := by
      rw [(announceFrame_slot _ _ i).1]
      obtain ⟨o, _, hf, ha⟩ := h.scanned i
      cases hd : ti.discarding with
      | false => rw [ha hd]; exact follow_of_scan hf
      | true =>
        rw [(h.cleared hd i).1, (h.cleared hd i).2]
        apply follow_closings
        intro m hm
        obtain ⟨e, he, rfl⟩ := List.mem_map.mp hm
        rw [h.cancels hd e (List.mem_filter.mp he).1]
        rfl
    refine .of_frameBalanced rfl (fun i => ?_) fun i => ?_
    · obtain ⟨o, hs, hf, _⟩ := h.scanned i
      have hall := scan_concat hs hf
      rw [← contactMarks_append, List.append_assoc] at hall
      simpa [hann] using hall
    · simp [hann, (announceFrame_slot ti.frame ti.slot i).2]

/-- A slot's pending events are gone and every other slot is as balanced as before. -/
theorem discardFrameSlot_frame {ti : TouchInput F D} (i : Fin touchMaxSlots) (h : FrameBalanced ti) :
    contactMarks i (discardFrameSlot ti i).frame = [] ∧
      ∀ j, j ≠ i → scan ((discardFrameSlot ti i).slot j).announced
        (contactMarks j (discardFrameSlot ti i).frame) =
          some ((discardFrameSlot ti i).slot j).active := by
  have hmarks (j : Fin touchMaxSlots) : contactMarks j (discardFrameSlot ti i).frame =
      if j = i then [] else contactMarks j ti.frame := by
    have hfilter := marksOf_filter_ne TouchEvent.slot
      (fun e : TouchEvent F D => bracketMark e.kind) (slotNumber j) (slotNumber i) ti.frame
    simp only [slotNumber_eq_iff] at hfilter
    exact hfilter
  refine ⟨by simp [hmarks], fun j hj => ?_⟩
  rw [hmarks, discardFrameSlot_slot TouchSlot.announced (fun _ _ => rfl),
    discardFrameSlot_slot TouchSlot.active (fun _ _ => rfl)]
  simpa [hj] using h j

theorem slotCancel_marks (t : D) (i j : Fin touchMaxSlots) (s : TouchSlot F D) :
    contactMarks j (slotCancel t i s) = if j = i ∧ s.announced then [.closing] else [] := by
  by_cases h : s.announced = true
  · simp [slotCancel, slotEvent, marksOf_singleton, bracketMark, h, eq_comm]
  · simp [slotCancel, h]

/-- Cancelling every announced slot closes exactly the contacts that are open. -/
theorem cancelEvents_marks (ti : TouchInput F D) (t : D) (i : Fin touchMaxSlots) :
    contactMarks i (cancelEvents ti t) = if (ti.slot i).announced then [.closing] else [] := by
  rw [cancelEvents, contactMarks, marksOf_flatMap _ _ (List.nodup_finRange _) (List.mem_finRange i)]
  · simpa using slotCancel_marks t i i (ti.slot i)
  · intro j hj
    simpa [Ne.symm hj] using slotCancel_marks t j i (ti.slot j)

theorem cancelEvents_kind {ti : TouchInput F D} {t : D} {e : TouchEvent F D}
    (he : e ∈ cancelEvents ti t) : e.kind = .cancel := by
  obtain ⟨i, _, hi⟩ := List.mem_flatMap.mp he
  by_cases h : (ti.slot i).announced = true
  · obtain rfl : e = slotEvent (ti.slot i) .cancel i t := by simpa [slotCancel, h] using hi
    rfl
  · simp [slotCancel, h] at hi

/-- Draining moves events from the queue to the application, in order. -/
theorem collect_balanced (s : Session F D) {ti : TouchInput F D} (out : Bool) (max : Int)
    (h : Balanced ti (s.delivered ++ ti.ready)) :
    Balanced (s.collect (drainReady ti out max)).input
      (s.collect (drainReady ti out max)).handedOut := by
  unfold drainReady Session.collect Session.handedOut
  split
  · simpa using h
  · simp only [Option.getD_some, List.append_assoc, List.take_append_drop]
    exact ⟨h.scanned, h.cleared, h.cancels⟩

theorem Balanced.contactsNested {s : Session F D} (h : Balanced s.input s.handedOut) :
    ContactsNested s := by
  intro i
  obtain ⟨o, hs, _, _⟩ := h.scanned i
  refine ⟨⟨o, hs⟩, fun hframe last hlast hkind => ?_⟩
  have hann := h.announced_of_not_pending (fun hp => hp.2 hframe) i
  rw [(scan_open_iff_last hann)]
  refine ⟨bracketMark last.kind, ?_, ?_⟩
  · rw [contactMarks, getLast?_marksOf, hlast]
    rfl
  · rcases hkind with hk | hk <;> simp [hk, bracketMark]

variable [CFloat F]

theorem handleTrackingId_frameStep (ti : TouchInput F D) (value : Int) (t : D) :
    FrameStep ti (handleTrackingId ti value t) := by
  cases hi : selectedSlot ti.currentSlot with
  | none => simpa [handleTrackingId, hi] using FrameStep.refl ti
  | some i =>
    have hspoken : FrameStep ti (ti.setSlot i { ti.slot i with lastSpoke := t }) :=
      .setSlot ti i _ rfl rfl
    have hactive : ((ti.setSlot i { ti.slot i with lastSpoke := t }).slot i).active =
        (ti.slot i).active := by rw [setSlot_self]
    apply handleTrackingId_cases (P := FrameStep ti) ti hi value t
    case quiet => exact fun _ => hspoken
    case lift =>
      rintro _ hact ti' rfl
      refine hspoken.trans ?_
      rw [← hactive] at hact
      generalize ti.setSlot i { ti.slot i with lastSpoke := t } = spoken at *
      apply FrameStep.ofEvents i [slotEvent (spoken.slot i) .up i t]
      · simp [slotEvent]
      · simp [hact, slotEvent, bracketMark, advance]
      · rfl
      · rfl
      · rfl
      · simp [appendFrameEvent_slot]
      · intro j hj
        simp [setSlot_slot, appendFrameEvent_slot, hj]
    case land =>
      intro _ _
      refine hspoken.trans ?_
      generalize ti.setSlot i { ti.slot i with lastSpoke := t } = spoken at *
      unfold landed landedSlot
      by_cases hact : (spoken.slot i).active = true
      -- a new id on an active slot ends the old contact in the same frame
      · simp only [hact, if_true]
        apply FrameStep.ofEvents i
          [slotEvent (spoken.slot i) .cancel i t, slotEvent (spoken.slot i) .down i t]
        · simp [slotEvent]
        · simp [hact, slotEvent, bracketMark, advance, appendFrameEvent_slot, resetFilter]
        · simp [appendFrameEvent_slot, slotEvent, resetFilter]
        · rfl
        · rfl
        · simp [appendFrameEvent_slot, resetFilter]
        · intro j hj
          simp [setSlot_slot, appendFrameEvent_slot, hj]
      · simp only [hact, if_false, Bool.false_eq_true]
        apply FrameStep.ofEvents i [slotEvent (spoken.slot i) .down i t]
        · simp [slotEvent]
        · simp [hact, slotEvent, bracketMark, advance, appendFrameEvent_slot, resetFilter]
        · simp [slotEvent, resetFilter]
        · rfl
        · rfl
        · simp [appendFrameEvent_slot, resetFilter]
        · intro j hj
          simp [setSlot_slot, appendFrameEvent_slot, hj]

variable [CFloat D]

private theorem scan_cancel (b : Bool) :
    scan b (if b = true then [.closing] else []) = some false := by
  cases b <;> rfl

/-- A lost packet moves every open contact's cancellation to the frame. -/
theorem drop_balanced {ti : TouchInput F D} {handed : List (TouchEvent F D)} {t : D} {n : Int}
    (h : Balanced ti handed) (hp : ¬ CancelPending ti) :
    Balanced { cancelActiveToFrame ti t with discarding := true, currentSlot := n } handed := by
  rw [cancelActiveToFrame_eq]
  refine ⟨fun i => ⟨_, h.announced_of_not_pending hp i, ?_, nofun⟩, fun _ i => ⟨rfl, rfl⟩,
    fun _ e he => cancelEvents_kind he⟩
  change scan _ (contactMarks i (cancelEvents ti t)) = some false
  rw [cancelEvents_marks]
  exact scan_cancel _

/-- Cancelling to the ready queue closes every open contact at once. -/
theorem cancel_balanced {ti : TouchInput F D} {delivered : List (TouchEvent F D)} (t : D) (f : Bool)
    (h : Balanced ti (delivered ++ ti.ready)) (hp : ¬ CancelPending ti) :
    Balanced { cancelActiveToReady ti t with discarding := false, flipped := f }
      (delivered ++ (cancelActiveToReady ti t).ready) := by
  rw [cancelActiveToReady_eq]
  refine .of_frameBalanced rfl (fun i => ?_) fun i => rfl
  rw [← List.append_assoc, contactMarks_append]
  refine scan_concat (h.announced_of_not_pending hp i) ?_
  change scan _ (contactMarks i (cancelEvents ti t)) = some false
  rw [cancelEvents_marks]
  exact scan_cancel _

theorem handlePosition_frameStep [CDouble F D] (ti : TouchInput F D) (code : Nat) (value : Int)
    (t : D) : FrameStep ti (handlePosition ti code value t) := by
  cases hi : selectedSlot ti.currentSlot with
  | none => simpa [handlePosition, hi] using FrameStep.refl ti
  | some i =>
    have hspoken : FrameStep ti (ti.setSlot i { ti.slot i with lastSpoke := t }) :=
      .setSlot ti i _ rfl rfl
    have hactive : ((ti.setSlot i { ti.slot i with lastSpoke := t }).slot i).active =
        (ti.slot i).active := by rw [setSlot_self]
    apply handlePosition_cases (P := FrameStep ti) ti hi code value t
    case quiet => exact fun _ => hspoken
    case place =>
      rintro hact spoken slot rfl rfl
      rw [← hactive] at hact
      generalize ti.setSlot i { ti.slot i with lastSpoke := t } = spoken at *
      obtain ⟨hkept, hann, _⟩ := filterPosition_keeps spoken (spoken.slot i) code value t
      generalize filterPosition spoken (spoken.slot i) code value t = slot at *
      have hslot : FrameStep ti (spoken.setSlot i slot) := hspoken.trans (.setSlot spoken i slot hann hkept)
      refine ⟨fun k event hopen => hslot.trans ?_, fun _ => hslot.trans ?_⟩
      -- coordinates are rewritten in place: the frame keeps its kinds and slots
      · refine ⟨⟨rfl, rfl, fun _ => rfl⟩, fun h j => ?_⟩
        have hmarks := marksOf_set TouchEvent.slot (fun e => bracketMark e.kind)
          (openFrameEvent_eq hopen).2 { event with x := slot.x, y := slot.y, t := t } rfl rfl
          (slotNumber j)
        exact (congrArg (scan _) hmarks).trans (h j)
      · apply FrameStep.ofEvents i [slotEvent slot .move i t]
        · simp [slotEvent]
        · simp [slotEvent, bracketMark, advance, appendFrameEvent_slot, hkept, hact]
        · simp
        · rfl
        · rfl
        · simp [appendFrameEvent_slot]
        · intro j hj
          simp [appendFrameEvent_slot, hj]

/-- One raw record keeps the balance, unless it drops a packet over pending cancellations. -/
theorem feedOne_balanced [CDouble F D] {ti : TouchInput F D} {delivered : List (TouchEvent F D)}
    {raw : TouchRaw D} (h : Balanced ti (delivered ++ ti.ready))
    (hok : raw.isSynDropped = true → ¬ CancelPending ti) :
    Balanced (feedOne ti raw) (delivered ++ (feedOne ti raw).ready) := by
  have hframe {ti' : TouchInput F D} (hd : ti.discarding = false) (hs : FrameStep ti ti') :
      Balanced ti' (delivered ++ ti'.ready) := by
    rw [hs.unpublished.ready]
    exact h.frameStep hd hs
  apply feedOne_cases (P := fun ti' => Balanced ti' (delivered ++ ti'.ready))
  case drop =>
    intro hdrop
    have hready : (cancelActiveToFrame ti raw.t).ready = ti.ready := by rw [cancelActiveToFrame_eq]
    have hb := drop_balanced (t := raw.t) (n := 0) h (hok hdrop)
    rw [← hready] at hb
    exact hb
  case report => exact fun _ _ => publishFrame_balanced h
  case skip => exact fun _ _ _ => h
  case other => exact fun _ _ _ _ => h
  case select => exact fun hd _ _ => hframe hd ⟨⟨rfl, rfl, fun _ => rfl⟩, id⟩
  case track => exact fun hd _ _ => hframe hd (handleTrackingId_frameStep ti _ _)
  case place => exact fun hd _ _ => hframe hd (handlePosition_frameStep ti _ _ _)

/-- A silent slot loses its pending events and closes its contact in the ready queue. -/
theorem expireSlot_balanced {ti : TouchInput F D} {delivered : List (TouchEvent F D)} (now : D)
    (i : Fin touchMaxSlots) (h : Balanced ti (delivered ++ ti.ready)) :
    Balanced (expireSlot now ti i) (delivered ++ (expireSlot now ti i).ready) := by
  unfold expireSlot
  simp only
  split
  · exact h
  rename_i hspeaks
  have hd : ti.discarding = false := by
    by_contra hdt
    obtain ⟨hann, hact⟩ := h.cleared (by simpa using hdt) i
    simp [hann, hact] at hspeaks
  have hscan (j : Fin touchMaxSlots) : scan false (contactMarks j (delivered ++ ti.ready)) =
      some ((discardFrameSlot ti i).slot j).announced := by
    rw [discardFrameSlot_slot TouchSlot.announced (fun _ _ => rfl)]
    exact h.scan_handed hd j
  obtain ⟨hown, hother⟩ := discardFrameSlot_frame i (h.frameBalanced hd)
  have hpush : (if ((discardFrameSlot ti i).slot i).announced then
        { discardFrameSlot ti i with
          ready := (discardFrameSlot ti i).ready ++
            [slotEvent ((discardFrameSlot ti i).slot i) .cancel i now] }
      else discardFrameSlot ti i) =
      { discardFrameSlot ti i with
        ready := ti.ready ++ slotCancel now i ((discardFrameSlot ti i).slot i) } := by
    unfold slotCancel
    split <;> simp [discardFrameSlot]
  rw [hpush]
  have hdisc : (discardFrameSlot ti i).discarding = false := hd
  generalize discardFrameSlot ti i = ti' at hscan hown hother hdisc
  refine .of_frameBalanced hdisc (fun j => ?_) fun j => ?_
  · rw [setSlot_ready, ← List.append_assoc, contactMarks_append, slotCancel_marks, setSlot_slot]
    refine scan_concat (hscan j) ?_
    by_cases hj : j = i
    · subst hj
      simpa using scan_cancel (ti'.slot j).announced
    · simp [hj]
  · rw [setSlot_slot, setSlot_frame]
    by_cases hj : j = i
    · subst hj
      rw [hown]
      simp
    · simpa [hj] using hother j hj

theorem expire_balanced {ti : TouchInput F D} {delivered : List (TouchEvent F D)} (now : D)
    (slots : List (Fin touchMaxSlots)) (h : Balanced ti (delivered ++ ti.ready)) :
    Balanced (slots.foldl (expireSlot now) ti)
      (delivered ++ (slots.foldl (expireSlot now) ti).ready) := by
  induction slots generalizing ti with
  | nil => exact h
  | cons i rest ih => exact ih (expireSlot_balanced now i h)

def Session.start (flip : TouchFlip F) : Session F D := { input := touchInputNew flip, delivered := [] }

theorem start_balanced (flip : TouchFlip F) :
    Balanced (Session.start flip : Session F D).input (Session.start flip : Session F D).handedOut :=
  .of_frameBalanced rfl (fun _ => rfl) fun _ => rfl

section Session
variable [CDouble F D]

def Session.call (s : Session F D) : Call D → Session F D
  | .feed raw out max => s.collect (touchInputFeed s.input raw out max)
  | .expire now out max => s.collect (touchInputExpire s.input now out max)
  | .setFlipped flipped => { s with input := touchInputSetFlipped s.input flipped }
  | .cancelAll out max => s.collect (touchInputCancelAll s.input out max)

/-- The call drops no packet, flips nothing and cancels nothing while cancellations of an
earlier loss are still pending. -/
def KeepsCancels (s : Session F D) : Call D → Prop
  | .feed raw _ _ => ∀ before r after, raw = before ++ r :: after → r.isSynDropped = true →
      ¬ CancelPending (before.foldl feedOne s.input)
  | .expire _ _ _ => True
  | .setFlipped flipped => s.input.flipped ≠ flipped → ¬ CancelPending s.input
  | .cancelAll _ _ => ¬ CancelPending s.input

theorem feed_balanced {ti : TouchInput F D} {delivered : List (TouchEvent F D)}
    (raw : List (TouchRaw D)) (h : Balanced ti (delivered ++ ti.ready))
    (hok : ∀ before r after, raw = before ++ r :: after → r.isSynDropped = true →
      ¬ CancelPending (before.foldl feedOne ti)) :
    Balanced (raw.foldl feedOne ti) (delivered ++ (raw.foldl feedOne ti).ready) := by
  induction raw generalizing ti with
  | nil => exact h
  | cons r rest ih =>
    refine ih (feedOne_balanced h fun hr => hok [] r rest rfl hr) fun before r' after he hr => ?_
    exact hok (r :: before) r' after (by rw [he]; rfl) hr

theorem call_balanced (s : Session F D) (c : Call D) (h : Balanced s.input s.handedOut)
    (hok : KeepsCancels s c) : Balanced (s.call c).input (s.call c).handedOut := by
  cases c with
  | feed raw out max => exact collect_balanced s out max (feed_balanced raw h hok)
  | expire now out max => exact collect_balanced s out max (expire_balanced now _ h)
  | setFlipped flipped =>
    change Balanced (touchInputSetFlipped s.input flipped)
      (s.delivered ++ (touchInputSetFlipped s.input flipped).ready)
    unfold touchInputSetFlipped
    split
    · exact h
    · exact cancel_balanced (latestSpoke s.input) flipped h (hok ‹_›)
  | cancelAll out max =>
    have hb := cancel_balanced (latestSpoke s.input) s.input.flipped h hok
    refine collect_balanced s out max ?_
    rw [cancelActiveToReady_eq] at hb ⊢
    exact hb

/-- In every run in which no packet is dropped, no orientation changed and nothing cancelled
over pending cancellations, all contacts are well nested and every open one can be closed. -/
theorem contacts_nested (flip : TouchFlip F) (calls : List (Call D)) (s : Session F D)
    (h : Run (Guarded (Fires Session.call) KeepsCancels) (Session.start flip) calls s) :
    ContactsNested s := by
  refine Balanced.contactsNested (h.invariant (fun s => Balanced s.input s.handedOut)
    (start_balanced flip) ?_)
  rintro t c _ hb ⟨hok, rfl⟩
  exact call_balanced t c hb hok

end Session

def plainFlip : TouchFlip ℚ := (touchFlipConfigure 1024 600 1023 599 none).1

/-- A contact lands, a packet is lost, and the loss is over before the orientation flips. -/
def resyncedCalls : List (Call ℚ) :=
  [.feed [⟨evAbs, absMtTrackingId, 7, 1⟩] true 16, .feed [⟨evSyn, synReport, 0, 1⟩] true 16,
    .feed [⟨evSyn, synDropped, 0, 2⟩] true 16, .feed [⟨evSyn, synReport, 0, 2⟩] true 16,
    .setFlipped true]

theorem resynced_contacts_nested :
    ContactsNested (resyncedCalls.foldl Session.call (Session.start plainFlip : Session ℚ ℚ)) := by
  have hfeed (s : Session ℚ ℚ) (r : TouchRaw ℚ) (h : r.isSynDropped = true → s.input.discarding = false) :
      KeepsCancels s (.feed [r] true 16) := by
    intro before r' after hraw hdrop hpending
    obtain ⟨rfl, rfl, rfl⟩ : before = [] ∧ r = r' ∧ [] = after := by
      cases before with
      | nil => simpa using hraw
      | cons b rest => simp at hraw
    exact absurd hpending.1 (by simp [h hdrop])
  refine contacts_nested plainFlip _ _ (run_guarded_foldl ?_)
  refine ⟨hfeed _ _ (by decide), hfeed _ _ (by decide), hfeed _ _ fun _ => ?_,
    hfeed _ _ (by decide), fun _ hpending => ?_, trivial⟩
  · decide +kernel
  · exact absurd hpending.1 (by decide +kernel)

/-- A contact lands and is delivered, a packet is lost, the orientation flips before the next
SYN_REPORT, and another contact lands on the slot. -/
def lostCancelCalls : List (Call ℚ) :=
  [.feed [⟨evAbs, absMtTrackingId, 7, 1⟩, ⟨evSyn, synReport, 0, 1⟩] true 16,
    .feed [⟨evSyn, synDropped, 0, 2⟩] true 16,
    .setFlipped true,
    .feed [⟨evAbs, absMtTrackingId, 8, 3⟩, ⟨evSyn, synReport, 0, 3⟩] true 16]

/-- The slot is handed out as DOWN, DOWN. -/
theorem flip_over_lost_packet_unnested :
    ∃ s : Session ℚ ℚ, Run (Fires Session.call) (Session.start plainFlip) lostCancelCalls s ∧
      ¬ ContactsNested s := by
  refine ⟨_, run_foldl Session.call (Session.start plainFlip) lostCancelCalls, fun h => ?_⟩
  obtain ⟨o, ho⟩ := (h 0).1
  have hscan : scan false (contactMarks 0
      (lostCancelCalls.foldl Session.call (Session.start plainFlip)).handedOut) = none := by
    decide +kernel
  rw [hscan] at ho
  cases ho

end Taq102.Touch.ContactStream
