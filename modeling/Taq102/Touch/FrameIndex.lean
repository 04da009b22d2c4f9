import Mathlib.Data.List.Chain
import Taq102.Lib.LastIndex
import Taq102.Touch.ContactStream
import Taq102.Touch.PendingFrame

/-! Where the last event of a slot stands in the pending frame. A position edits that event and no
other, so a frame is published with the MOVEs of a contact merged. -/
namespace Taq102.Touch.FrameIndex
open Taq102.Lib LastIndex Transition ContactStream PendingFrame
variable {F D : Type}

abbrev slotKinds (i : Fin touchMaxSlots) (frame : List (TouchEvent F D)) : List TouchKind :=
  valuesOf TouchEvent.slot TouchEvent.kind (slotNumber i) frame

/-- A MOVE follows neither a MOVE nor a DOWN. -/
def Apart (before after : TouchKind) : Prop := after = .move → before ≠ .move ∧ before ≠ .down

def MovesApart (frame : List (TouchEvent F D)) : Prop := ∀ i, (slotKinds i frame).IsChain Apart

/-- Every slot points at its last event in the frame. -/
structure Tracked (ti : TouchInput F D) : Prop where
  pointer : ∀ i, (ti.slot i).frameEvent = lastIndex TouchEvent.slot (slotNumber i) ti.frame
  moves : MovesApart ti.frame

/-- While a packet is discarded only cancellations wait in the frame, and no slot is in use. -/
structure Dropped (ti : TouchInput F D) : Prop where
  idle : ∀ i, (ti.slot i).active = false ∧ (ti.slot i).announced = false ∧
    (ti.slot i).frameEvent = none
  cancels : ∀ e ∈ ti.frame, e.kind = .cancel

structure Kept (ti : TouchInput F D) : Prop where
  tracked : ti.discarding = false → Tracked ti
  dropped : ti.discarding = true → Dropped ti

theorem Tracked.kept {ti : TouchInput F D} (h : Tracked ti) (hd : ti.discarding = false) : Kept ti :=
  ⟨fun _ => h, fun hdrop => absurd (hd.symm.trans hdrop) (by decide)⟩

theorem movesApart_nil : MovesApart ([] : List (TouchEvent F D)) := fun _ => .nil

theorem movesApart_cancels {frame : List (TouchEvent F D)} (h : ∀ e ∈ frame, e.kind = .cancel) :
    MovesApart frame := by
  intro i
  have hkinds : ∀ kind ∈ slotKinds i frame, kind = .cancel := by
    intro kind hkind
    obtain ⟨e, he, rfl⟩ := List.mem_map.mp hkind
    exact h e (List.mem_filter.mp he).1
  refine List.Pairwise.isChain (List.pairwise_of_forall_mem_list fun before _ after hafter hmove => ?_)
  rw [hkinds after hafter] at hmove
  cases hmove

theorem Kept.moves {ti : TouchInput F D} (h : Kept ti) : MovesApart ti.frame := by
  cases hd : ti.discarding with
  | false => exact (h.tracked hd).moves
  | true => exact movesApart_cancels (h.dropped hd).cancels

/-- What a slot points at, in every state. -/
theorem Kept.pointer {ti : TouchInput F D} (h : Kept ti) {i : Fin touchMaxSlots} {k : Nat}
    (hk : (ti.slot i).frameEvent = some k) :
    lastIndex TouchEvent.slot (slotNumber i) ti.frame = some k := by
  cases hd : ti.discarding with
  | false => exact ((h.tracked hd).pointer i).symm.trans hk
  | true => exact absurd (((h.dropped hd).idle i).2.2.symm.trans hk) (Option.some_ne_none k).symm

section Frame
variable {ti : TouchInput F D}

theorem Tracked.setSlot (h : Tracked ti) {i : Fin touchMaxSlots} {s : TouchSlot F D}
    (hs : s.frameEvent = (ti.slot i).frameEvent) : Tracked (ti.setSlot i s) where
  pointer j := by
    rw [setSlot_slot, setSlot_frame]
    split_ifs with hj
    · rw [hs, ← hj]
      exact h.pointer j
    · exact h.pointer j
  moves := h.moves

/-- A MOVE is appended only where the slot's last event is not to be rewritten. -/
theorem Tracked.append (h : Tracked ti) {kind : TouchKind} {i : Fin touchMaxSlots} (t : D)
    (hmove : kind = .move → openFrameEvent ti (ti.slot i) = none) :
    Tracked (appendFrameEvent ti kind i t) where
  pointer j := by
    have hown : (slotEvent (ti.slot i) kind i t).slot = slotNumber i := rfl
    rw [appendFrameEvent_slot, appendFrameEvent_frame, lastIndex_append, hown]
    by_cases hj : j = i
    · rw [if_pos hj, if_pos (congrArg slotNumber hj.symm)]
    · rw [if_neg hj, if_neg fun heq => hj (slotNumber_injective heq).symm]
      exact h.pointer j
  moves j := by
    rw [slotKinds, appendFrameEvent_frame, valuesOf_append]
    split_ifs with hj
    · refine List.isChain_append.mpr ⟨h.moves j, .singleton _, fun before hbefore after hafter hkind => ?_⟩
      obtain rfl : kind = after := Option.some.inj hafter
      obtain rfl : i = j := slotNumber_injective hj
      have hopen := hmove hkind
      rw [getLast?_valuesOf, ← h.pointer] at hbefore
      obtain ⟨e, he, rfl⟩ := Option.map_eq_some_iff.mp hbefore
      obtain ⟨k, hk, hevent⟩ := Option.bind_eq_some_iff.mp he
      rw [openFrameEvent, hk, Option.bind_some, hevent, Option.bind_some] at hopen
      split_ifs at hopen with hneither
      exact ⟨fun hkind => hneither (.inr hkind), fun hkind => hneither (.inl hkind)⟩
    · rw [List.append_nil]
      exact h.moves j

theorem Tracked.append_other (h : Tracked ti) {kind : TouchKind} (hkind : kind ≠ .move)
    (i : Fin touchMaxSlots) (t : D) : Tracked (appendFrameEvent ti kind i t) :=
  h.append t fun hmove => absurd hmove hkind

theorem Tracked.rewrite (h : Tracked ti) {k : Nat} {event event' : TouchEvent F D}
    (hevent : ti.frame[k]? = some event) (hkind : event'.kind = event.kind)
    (hslot : event'.slot = event.slot) : Tracked { ti with frame := ti.frame.set k event' } where
  pointer i := by
    rw [lastIndex_set hevent event' hslot]
    exact h.pointer i
  moves i := by
    rw [slotKinds, valuesOf_set hevent event' hslot hkind]
    exact h.moves i

/-- The compaction of the frame computes every pointer anew. -/
theorem discardFrameSlot_pointer (ti : TouchInput F D) (i j : Fin touchMaxSlots) :
    ((discardFrameSlot ti i).slot j).frameEvent =
      lastIndex TouchEvent.slot (slotNumber j) (discardFrameSlot ti i).frame := by
  have hfold (entries : List (TouchEvent F D × Nat)) (slots : Fin touchMaxSlots → TouchSlot F D) :
      (entries.foldl (fun slots entry => modifySlot slots entry.1.slot fun s =>
        { s with frameEvent := some entry.2 }) slots j).frameEvent =
      entries.foldl (fun last entry => if entry.1.slot = slotNumber j then some entry.2 else last)
        (slots j).frameEvent := by
    induction entries generalizing slots with
    | nil => rfl
    | cons entry rest ih =>
      rw [List.foldl_cons, List.foldl_cons, ih, modifySlot]
      by_cases hj : slotNumber j = entry.1.slot
      · rw [if_pos hj, if_pos hj.symm]
      · rw [if_neg hj, if_neg fun h => hj h.symm]
  exact hfold _ _

theorem Tracked.discard (h : Tracked ti) (i : Fin touchMaxSlots) : Tracked (discardFrameSlot ti i) where
  pointer := discardFrameSlot_pointer ti i
  moves j := by
    rw [discardFrameSlot, slotKinds, valuesOf_filter_ne]
    split_ifs
    · exact .nil
    · exact h.moves j

/-- No event of the slot is left. -/
theorem discardFrameSlot_own (ti : TouchInput F D) (i : Fin touchMaxSlots) :
    lastIndex TouchEvent.slot (slotNumber i) (discardFrameSlot ti i).frame = none := by
  refine lastIndex_eq_none fun e he => ?_
  simpa using (List.mem_filter.mp he).2

/-- Every event of the frame goes to the application, and no slot points into it any more. -/
theorem publishFrame_tracked (h : Kept ti) : Tracked (publishFrame { ti with discarding := false }) := by
  by_cases hempty : ti.frame = []
  · have hsame : publishFrame { ti with discarding := false } = { ti with discarding := false } := by
      simp [publishFrame, hempty]
    have hnone (i : Fin touchMaxSlots) : (ti.slot i).frameEvent = none := by
      cases hk : (ti.slot i).frameEvent with
      | none => rfl
      | some k =>
        have hlast := h.pointer hk
        rw [hempty] at hlast
        cases hlast
    rw [hsame]
    refine ⟨fun i => ?_, ?_⟩
    · change (ti.slot i).frameEvent = lastIndex TouchEvent.slot (slotNumber i) ti.frame
      rw [hempty, hnone, lastIndex_nil]
    · change MovesApart ti.frame
      rw [hempty]
      exact movesApart_nil
  · simp only [publishFrame, List.isEmpty_iff, if_neg hempty]
    exact ⟨fun _ => rfl, movesApart_nil⟩

theorem publishFrame_ready (ti : TouchInput F D) : (publishFrame ti).ready = ti.ready ++ ti.frame := by
  by_cases hempty : ti.frame = []
  · simp [publishFrame, hempty]
  · simp only [publishFrame, List.isEmpty_iff, if_neg hempty]

end Frame

section Decoder
variable [CFloat F] {ti : TouchInput F D}

theorem landed_tracked (h : Tracked ti) (i : Fin touchMaxSlots) (value : Int) (t : D) :
    Tracked (landed ti i value t) := by
  have hcancel : Tracked (if (ti.slot i).active then appendFrameEvent ti .cancel i t else ti) := by
    split
    · exact h.append_other (by decide) i t
    · exact h
  have hslot {ti' : TouchInput F D} (h' : Tracked ti') :
      Tracked (ti'.setSlot i (landedSlot (ti'.slot i) value t)) := h'.setSlot rfl
  exact (hslot hcancel).append_other (by decide) i t

theorem handleTrackingId_tracked (h : Tracked ti) (value : Int) (t : D) :
    Tracked (handleTrackingId ti value t) := by
  cases hi : selectedSlot ti.currentSlot with
  | none =>
    simp only [handleTrackingId, hi]
    exact h
  | some i =>
    have hspoken : Tracked (ti.setSlot i { ti.slot i with lastSpoke := t }) := h.setSlot rfl
    apply handleTrackingId_cases (P := Tracked) ti hi value t
    case quiet => exact fun _ => hspoken
    case lift =>
      rintro _ _ ti' rfl
      exact (hspoken.append_other (by decide) i t).setSlot rfl
    case land => exact fun _ _ => landed_tracked hspoken i value t

variable [CFloat D]

theorem cancelled_tracked (ti : TouchInput F D) (t : D) (flipped : Bool) :
    Tracked { cancelActiveToReady ti t with discarding := false, flipped } := by
  rw [cancelActiveToReady_eq]
  exact ⟨fun _ => rfl, movesApart_nil⟩

/-- A lost packet leaves nothing but the cancellations of the contacts the application knows. -/
theorem drop_dropped (ti : TouchInput F D) (t : D) (selected : Int) :
    Dropped { cancelActiveToFrame ti t with discarding := true, currentSlot := selected } := by
  rw [cancelActiveToFrame_eq]
  exact ⟨fun _ => ⟨rfl, rfl, rfl⟩, fun e he => cancelEvents_kind he⟩

theorem expireSlot_kept (h : Kept ti) (now : D) (i : Fin touchMaxSlots) : Kept (expireSlot now ti i) := by
  unfold expireSlot
  simp only
  split
  · exact h
  rename_i hspeaks
  have hd : ti.discarding = false := by
    by_contra hdrop
    obtain ⟨hactive, hannounced, _⟩ := (h.dropped (by simpa using hdrop)).idle i
    simp [hactive, hannounced] at hspeaks
  have hdiscard := (h.tracked hd).discard i
  have hown := discardFrameSlot_own ti i
  have hmode : (discardFrameSlot ti i).discarding = false := hd
  generalize discardFrameSlot ti i = ti' at *
  have hclear (queue : List (TouchEvent F D)) :
      Kept ({ ti' with ready := queue }.setSlot i (clearSlot (ti'.slot i))) := by
    have hready : Tracked { ti' with ready := queue } := ⟨hdiscard.pointer, hdiscard.moves⟩
    exact (hready.setSlot ((hdiscard.pointer i).trans hown).symm).kept hmode
  split
  · exact hclear _
  · exact hclear _

variable [CDouble F D]

theorem handlePosition_tracked (h : Tracked ti) (code : Nat) (value : Int) (t : D) :
    Tracked (handlePosition ti code value t) := by
  cases hi : selectedSlot ti.currentSlot with
  | none =>
    simp only [handlePosition, hi]
    exact h
  | some i =>
    have hspoken : Tracked (ti.setSlot i { ti.slot i with lastSpoke := t }) := h.setSlot rfl
    apply handlePosition_cases (P := Tracked) ti hi code value t
    case quiet => exact fun _ => hspoken
    case place =>
      rintro _ spoken slot rfl rfl
      generalize ti.setSlot i { ti.slot i with lastSpoke := t } = spoken at *
      have hpointer := filterPosition_frameEvent spoken (spoken.slot i) code value t
      generalize filterPosition spoken (spoken.slot i) code value t = slot at *
      have hslot : Tracked (spoken.setSlot i slot) := hspoken.setSlot hpointer
      refine ⟨fun k event hopen => hslot.rewrite (openFrameEvent_eq hopen).2 rfl rfl, fun hopen => ?_⟩
      refine hslot.append t fun _ => ?_
      rw [setSlot_self]
      exact hopen

theorem feedOne_kept (h : Kept ti) (raw : TouchRaw D) : Kept (feedOne ti raw) := by
  have hkeeps (hd : ti.discarding = false) {ti' : TouchInput F D} (hmode : ti'.discarding = ti.discarding)
      (h' : Tracked ti → Tracked ti') : Kept ti' := (h' (h.tracked hd)).kept (hmode.trans hd)
  apply feedOne_cases (P := Kept) ti raw
  case drop =>
    exact fun _ => ⟨fun hd => Bool.noConfusion hd, fun _ => drop_dropped ti raw.t 0⟩
  case report =>
    refine fun _ _ => (publishFrame_tracked h).kept ?_
    unfold publishFrame
    split <;> rfl
  case skip => exact fun _ _ _ => h
  case other => exact fun _ _ _ _ => h
  case select => exact fun hd _ _ => hkeeps hd rfl fun h' => ⟨h'.pointer, h'.moves⟩
  case track =>
    exact fun hd _ _ => hkeeps hd (handleTrackingId_frameStep ti _ _).unpublished.discarding
      fun h' => handleTrackingId_tracked h' _ _
  case place =>
    exact fun hd _ _ => hkeeps hd (handlePosition_frameStep ti _ _ _).unpublished.discarding
      fun h' => handlePosition_tracked h' _ _ _

/-- A position leaves the events of the other slots as they are. -/
theorem handlePosition_others (h : Kept ti) (code : Nat) (value : Int) (t : D) {k : Nat}
    {e : TouchEvent F D} (he : ti.frame[k]? = some e) (hslot : e.slot ≠ ti.currentSlot) :
    (handlePosition ti code value t).frame[k]? = some e := by
  cases hi : selectedSlot ti.currentSlot with
  | none =>
    simp only [handlePosition, hi]
    exact he
  | some i =>
    apply handlePosition_cases (P := fun ti' => ti'.frame[k]? = some e) ti hi code value t
    case quiet => exact fun _ => he
    case place =>
      rintro _ spoken slot rfl rfl
      refine ⟨fun n event hopen => ?_, fun _ => ?_⟩
      · obtain ⟨hn, hevent⟩ := openFrameEvent_eq hopen
        rw [filterPosition_frameEvent, setSlot_self] at hn
        obtain ⟨event', hevent', howner, _⟩ := lastIndex_eq_some (h.pointer hn)
        have hne : n ≠ k := by
          rintro rfl
          obtain rfl : e = event' := Option.some.inj (he.symm.trans hevent')
          exact hslot (howner.trans (slotNumber_of_selectedSlot hi))
        exact (List.getElem?_set_ne hne).trans he
      · exact (List.getElem?_append_left (List.getElem?_eq_some_iff.mp he).1).trans he

/-- Only the end of a frame hands it out. -/
theorem feedOne_ready (ti : TouchInput F D) (raw : TouchRaw D) : (feedOne ti raw).ready =
    ti.ready ++ if raw.isSynReport = true then ti.frame else [] := by
  have hkept {ti' : TouchInput F D} (hraw : raw.isSynReport = false) (hready : ti'.ready = ti.ready) :
      ti'.ready = ti.ready ++ if raw.isSynReport = true then ti.frame else [] := by
    rw [hraw, if_neg (by decide), List.append_nil, hready]
  have hreport (hcode : raw.type = evSyn → raw.code ≠ synReport) : raw.isSynReport = false := by
    rw [← Bool.not_eq_true, TouchRaw.isSynReport, Bool.and_eq_true, beq_iff_eq, beq_iff_eq]
    exact fun hsyn => hcode hsyn.1 hsyn.2
  have habs (htype : raw.type = evAbs) : raw.isSynReport = false :=
    hreport fun hsyn => absurd (hsyn.symm.trans htype) (by decide)
  apply feedOne_cases (P := fun ti' => ti'.ready =
    ti.ready ++ if raw.isSynReport = true then ti.frame else []) ti raw
  case drop =>
    intro hdrop
    refine hkept (hreport fun hsyn hcode => ?_) (by rw [cancelActiveToFrame_eq])
    rw [TouchRaw.isSynDropped, hcode, Bool.and_eq_true] at hdrop
    exact absurd hdrop.2 (by decide)
  case report =>
    intro _ hraw
    rw [publishFrame_ready, if_pos hraw]
  case skip => exact fun _ hraw _ => hkept hraw rfl
  case other => exact fun _ hraw _ _ => hkept hraw rfl
  case select => exact fun _ htype _ => hkept (habs htype) rfl
  case track =>
    exact fun _ htype _ => hkept (habs htype) (handleTrackingId_frameStep ti _ _).unpublished.ready
  case place =>
    exact fun _ htype _ => hkept (habs htype) (handlePosition_frameStep ti _ _ _).unpublished.ready

theorem feed_kept (h : Kept ti) (records : List (TouchRaw D)) : Kept (records.foldl feedOne ti) := by
  induction records generalizing ti with
  | nil => exact h
  | cons raw rest ih => exact ih (feedOne_kept h raw)

omit [CDouble F D] in
theorem expire_kept (h : Kept ti) (now : D) (slots : List (Fin touchMaxSlots)) :
    Kept (slots.foldl (expireSlot now) ti) := by
  induction slots generalizing ti with
  | nil => exact h
  | cons i rest ih => exact ih (expireSlot_kept h now i)

theorem call_kept (s : Session F D) (c : Call D) (h : Kept s.input) : Kept (s.call c).input := by
  have hdrain {ti : TouchInput F D} (h : Kept ti) (out : Bool) (max : Int) :
      Kept (drainReady ti out max).2 := by
    unfold drainReady
    split
    · exact h
    · exact ⟨fun hd => ⟨(h.tracked hd).pointer, (h.tracked hd).moves⟩,
        fun hd => ⟨(h.dropped hd).idle, (h.dropped hd).cancels⟩⟩
  cases c with
  | feed raw out max => exact hdrain (feed_kept h raw) out max
  | expire now out max => exact hdrain (expire_kept h now _) out max
  | setFlipped flipped =>
    change Kept (touchInputSetFlipped s.input flipped)
    unfold touchInputSetFlipped
    split
    · exact h
    · exact (cancelled_tracked s.input _ flipped).kept rfl
  | cancelAll out max => exact hdrain ((cancelled_tracked s.input _ _).kept rfl) out max

/-- The states a call passes through: after some of the records of a feed, or some of the slots of
an expiry. -/
inductive Within (s : Session F D) : TouchInput F D → Prop
  | feed (records : List (TouchRaw D)) : Within s (records.foldl feedOne s.input)
  | expire (now : D) (slots : Nat) :
      Within s (((List.finRange touchMaxSlots).take slots).foldl (expireSlot now) s.input)

/-- What a slot points at is its own last event in the frame. -/
def PointsAtLast (ti : TouchInput F D) : Prop :=
  ∀ i k, (ti.slot i).frameEvent = some k → ∃ e : TouchEvent F D, ti.frame[k]? = some e ∧
    e.slot = slotNumber i ∧ ∀ m (e' : TouchEvent F D), k < m → ti.frame[m]? = some e' →
      e'.slot ≠ slotNumber i

/-- A position edits or appends events of the selected slot only. -/
def EditsOwn (ti : TouchInput F D) : Prop :=
  ∀ code value (t : D) (k : Nat) (e : TouchEvent F D), ti.frame[k]? = some e → e.slot ≠ ti.currentSlot →
    (handlePosition ti code value t).frame[k]? = some e

/-- What a record publishes is the frame, with its MOVEs apart. -/
def PublishesApart (ti : TouchInput F D) : Prop :=
  ∀ raw : TouchRaw D, ∃ published : List (TouchEvent F D),
    (feedOne ti raw).ready = ti.ready ++ published ∧
      (published = if raw.isSynReport = true then ti.frame else []) ∧ MovesApart published

/-- The frame of a decoder in use, in every state its next call passes through. -/
def FrameIndexed (s : Session F D) : Prop :=
  ∀ ti, Within s ti → PointsAtLast ti ∧ EditsOwn ti ∧ PublishesApart ti

theorem Kept.publishesApart (h : Kept ti) : PublishesApart ti := by
  refine fun raw => ⟨_, feedOne_ready ti raw, rfl, ?_⟩
  split_ifs
  · exact h.moves
  · exact movesApart_nil

/-- After any calls, and inside the next one, every slot points at its last event in the frame or at
none, a position edits no other, and what is published has no MOVE after a MOVE or DOWN of its slot. -/
theorem frame_indexed (flip : TouchFlip F) (calls : List (Call D)) (s : Session F D)
    (h : Run (Fires Session.call) (Session.start flip) calls s) : FrameIndexed s := by
  have hkept : Kept s.input := by
    refine h.invariant (fun s => Kept s.input) ?_ ?_
    · exact Tracked.kept ⟨fun _ => rfl, movesApart_nil⟩ rfl
    · rintro t c _ ht rfl
      exact call_kept t c ht
  intro ti hti
  have hwithin : Kept ti := by
    cases hti with
    | feed records => exact feed_kept hkept records
    | expire now slots => exact expire_kept hkept now _
  exact ⟨fun i k hk => lastIndex_eq_some (hwithin.pointer hk),
    fun code value t k e he hslot => handlePosition_others hwithin code value t he hslot,
    hwithin.publishesApart⟩

end Decoder

/-- Two contacts in one frame. The first is expired and taken out of it, and the second moves on. -/
def busyCalls : List (Call ℚ) :=
  [.feed [⟨evAbs, absMtTrackingId, 7, 0⟩, ⟨evAbs, absMtPositionX, 100, 0⟩, ⟨evAbs, absMtSlot, 1, 0⟩,
      ⟨evAbs, absMtTrackingId, 8, 2⟩, ⟨evAbs, absMtPositionX, 200, 2⟩] true 8,
    .expire 2 true 8,
    .feed [⟨evAbs, absMtPositionY, 300, 3⟩, ⟨evSyn, synReport, 0, 3⟩, ⟨evAbs, absMtPositionY, 310, 4⟩] true 8]

theorem busy_frame_indexed :
    FrameIndexed (busyCalls.foldl Session.call (Session.start plainFlip) : Session ℚ ℚ) :=
  frame_indexed plainFlip busyCalls _ (run_foldl _ _ _)

end Taq102.Touch.FrameIndex
