import Taq102.Touch.FrameIndex
import Taq102.Touch.Smoothing

/-! The coordinates of a contact against the raw samples of it so far, in every state of the decoder:
a finger that stays in a region is reported in it. -/
namespace Taq102.Touch.Containment
open Taq102.Lib CFloat Transition Evdev PendingFrame ContactStream Smoothing

section Steps
variable {ti ti' ti'' : TouchInput ℝ ℝ}

/-- A step that moves no coordinate. Its new events carry those of their slot. -/
structure Steady (ti ti' : TouchInput ℝ ℝ) : Prop where
  coordinates : ∀ i axis, slotCoordinate (ti'.slot i) axis = slotCoordinate (ti.slot i) axis
  events : ∀ e ∈ ti'.ready ++ ti'.frame, e ∈ ti.ready ++ ti.frame ∨
    ∃ i, e.slot = slotNumber i ∧ ∀ axis, eventCoordinate e axis = slotCoordinate (ti.slot i) axis

theorem Steady.trans (h : Steady ti ti') (h' : Steady ti' ti'') : Steady ti ti'' where
  coordinates i axis := (h'.coordinates i axis).trans (h.coordinates i axis)
  events e he := by
    rcases h'.events e he with hold | ⟨i, hslot, hcarries⟩
    · exact h.events e hold
    · exact .inr ⟨i, hslot, fun axis => (hcarries axis).trans (h.coordinates i axis)⟩

/-- No event is new. -/
theorem Steady.of_subset
    (hslot : ∀ i axis, slotCoordinate (ti'.slot i) axis = slotCoordinate (ti.slot i) axis)
    (hevents : ti'.ready ++ ti'.frame ⊆ ti.ready ++ ti.frame) : Steady ti ti' :=
  ⟨hslot, fun _ he => .inl (hevents he)⟩

theorem Steady.refl (ti : TouchInput ℝ ℝ) : Steady ti ti :=
  .of_subset (fun _ _ => rfl) (List.Subset.refl _)

theorem Steady.setSlot {i : Fin touchMaxSlots} {s : TouchSlot ℝ ℝ}
    (hs : ∀ axis, slotCoordinate s axis = slotCoordinate (ti.slot i) axis) : Steady ti (ti.setSlot i s) := by
  refine .of_subset (fun j axis => ?_) (List.Subset.refl _)
  rw [setSlot_slot]
  split_ifs with hj
  · rw [hj, hs]
  · rfl

theorem Steady.spoke (ti : TouchInput ℝ ℝ) (i : Fin touchMaxSlots) (t : ℝ) :
    Steady ti (ti.setSlot i { ti.slot i with lastSpoke := t }) :=
  .setSlot fun axis => by cases axis <;> rfl

theorem Steady.select (ti : TouchInput ℝ ℝ) (n : Int) : Steady ti { ti with currentSlot := n } :=
  .of_subset (fun _ _ => rfl) (List.Subset.refl _)

theorem drained_steady (ti : TouchInput ℝ ℝ) (out : Bool) (max : Int) :
    Steady ti (drainReady ti out max).2 := by
  unfold drainReady
  split
  · exact .refl ti
  · refine .of_subset (fun _ _ => rfl) fun e he => ?_
    rcases List.mem_append.mp he with hready | hframe
    · exact List.mem_append_left _ (List.mem_of_mem_drop hready)
    · exact List.mem_append_right _ hframe

theorem slotEvent_coordinate (slot : TouchSlot ℝ ℝ) (kind : TouchKind) (i : Fin touchMaxSlots) (t : ℝ)
    (axis : TouchAxis) : eventCoordinate (slotEvent slot kind i t) axis = slotCoordinate slot axis := by
  cases axis <;> rfl

theorem Steady.append (ti : TouchInput ℝ ℝ) (kind : TouchKind) (i : Fin touchMaxSlots) (t : ℝ) :
    Steady ti (appendFrameEvent ti kind i t) where
  coordinates j axis := by
    rw [appendFrameEvent_slot]
    split_ifs with hj
    · rw [hj]
      cases axis <;> rfl
    · rfl
  events e he := by
    rw [appendFrameEvent_frame, ← List.append_assoc] at he
    rcases List.mem_append.mp he with hold | hnew
    · exact .inl hold
    · rw [List.mem_singleton.mp hnew]
      exact .inr ⟨i, rfl, slotEvent_coordinate _ _ _ _⟩

theorem clearSlot_coordinate (slot : TouchSlot ℝ ℝ) (axis : TouchAxis) :
    slotCoordinate (clearSlot slot) axis = slotCoordinate slot axis := by
  cases axis <;> rfl

/-- A cancellation carries the coordinates of its slot. -/
theorem cancelEvents_carry {t : ℝ} {e : TouchEvent ℝ ℝ} (he : e ∈ cancelEvents ti t) :
    ∃ i, e.slot = slotNumber i ∧ ∀ axis, eventCoordinate e axis = slotCoordinate (ti.slot i) axis := by
  obtain ⟨i, _, hi⟩ := List.mem_flatMap.mp he
  unfold slotCancel at hi
  split_ifs at hi
  · rw [List.mem_singleton.mp hi]
    exact ⟨i, rfl, slotEvent_coordinate _ _ _ _⟩
  · exact absurd hi List.not_mem_nil

theorem cancelled_steady (ti : TouchInput ℝ ℝ) (t : ℝ) (flipped : Bool) :
    Steady ti { cancelActiveToReady ti t with discarding := false, flipped } := by
  rw [cancelActiveToReady_eq]
  refine ⟨fun i axis => clearSlot_coordinate _ _, fun e he => ?_⟩
  rw [List.append_nil] at he
  rcases List.mem_append.mp he with hold | hnew
  · exact .inl (List.mem_append_left _ hold)
  · exact .inr (cancelEvents_carry hnew)

theorem dropped_steady (ti : TouchInput ℝ ℝ) (t : ℝ) :
    Steady ti { cancelActiveToFrame ti t with discarding := true, currentSlot := 0 } := by
  rw [cancelActiveToFrame_eq]
  refine ⟨fun i axis => clearSlot_coordinate _ _, fun e he => ?_⟩
  rcases List.mem_append.mp he with hold | hnew
  · exact .inl (List.mem_append_left _ hold)
  · exact .inr (cancelEvents_carry hnew)

theorem publishFrame_field {α : Type} (field : TouchSlot ℝ ℝ → α)
    (hann : ∀ s b, field { s with announced := b } = field s)
    (hindex : ∀ s k, field { s with frameEvent := k } = field s) (ti : TouchInput ℝ ℝ)
    (i : Fin touchMaxSlots) : field ((publishFrame ti).slot i) = field (ti.slot i) := by
  unfold publishFrame
  split_ifs
  · rfl
  · exact (hindex _ _).trans (foldl_modifySlot field (fun event : TouchEvent ℝ ℝ => event.slot)
      (fun event s => { s with announced := announce s.announced event.kind }) (fun _ _ => hann _ _) _ _ i)

theorem published_steady (ti : TouchInput ℝ ℝ) :
    Steady ti (publishFrame { ti with discarding := false }) := by
  refine .of_subset (fun i axis => ?_) fun e he => ?_
  · exact publishFrame_field (slotCoordinate · axis) (fun s b => by cases axis <;> rfl)
      (fun s k => by cases axis <;> rfl) _ i
  · rcases List.mem_append.mp he with hready | hframe
    · rw [FrameIndex.publishFrame_ready] at hready
      exact hready
    · unfold publishFrame at hframe
      split_ifs at hframe
      · exact List.mem_append_right _ hframe
      · exact absurd hframe List.not_mem_nil

theorem expireSlot_steady (ti : TouchInput ℝ ℝ) (now : ℝ) (i : Fin touchMaxSlots) :
    Steady ti (expireSlot now ti i) := by
  unfold expireSlot
  simp only
  split
  · exact .refl ti
  have hdiscard : Steady ti (discardFrameSlot ti i) := by
    refine .of_subset (fun j axis => ?_) fun e he => ?_
    · exact discardFrameSlot_slot (slotCoordinate · axis) (fun s k => by cases axis <;> rfl) ti i j
    · rcases List.mem_append.mp he with hready | hframe
      · exact List.mem_append_left _ hready
      · exact List.mem_append_right _ (List.mem_filter.mp hframe).1
  generalize discardFrameSlot ti i = ti' at *
  have hpush : Steady ti' (if (ti'.slot i).announced then
      { ti' with ready := ti'.ready ++ [slotEvent (ti'.slot i) .cancel i now] } else ti') := by
    split
    · refine ⟨fun _ _ => rfl, fun e he => ?_⟩
      rcases List.mem_append.mp he with hready | hframe
      · rcases List.mem_append.mp hready with hold | hnew
        · exact .inl (List.mem_append_left _ hold)
        · rw [List.mem_singleton.mp hnew]
          exact .inr ⟨i, rfl, slotEvent_coordinate _ _ _ _⟩
      · exact .inl (List.mem_append_right _ hframe)
    · exact .refl ti'
  exact (hdiscard.trans hpush).trans (.setSlot fun axis => clearSlot_coordinate _ axis)

theorem handleTrackingId_steady (ti : TouchInput ℝ ℝ) (value : Int) (t : ℝ) :
    Steady ti (handleTrackingId ti value t) := by
  cases hi : selectedSlot ti.currentSlot with
  | none =>
    simp only [handleTrackingId, hi]
    exact .refl ti
  | some i =>
    have hspoken := Steady.spoke ti i t
    apply handleTrackingId_cases (P := Steady ti) ti hi value t
    case quiet => exact fun _ => hspoken
    case lift =>
      rintro _ _ ti' rfl
      exact (hspoken.trans (.append _ .up i t)).trans (.setSlot fun axis => by cases axis <;> rfl)
    case land =>
      intro _ _
      generalize ti.setSlot i { ti.slot i with lastSpoke := t } = spoken at *
      have hcancel : Steady spoken
          (if (spoken.slot i).active then appendFrameEvent spoken .cancel i t else spoken) := by
        split
        · exact .append spoken .cancel i t
        · exact .refl spoken
      have hland (ti' : TouchInput ℝ ℝ) :
          Steady ti' (ti'.setSlot i (landedSlot (ti'.slot i) value t)) :=
        .setSlot fun axis => by cases axis <;> rfl
      exact ((hspoken.trans hcancel).trans (hland _)).trans (.append _ .down i t)

/-- The sample a raw value gives. -/
noncomputable def sampleOf (ti : TouchInput ℝ ℝ) (axis : TouchAxis) (value : Int) : ℝ :=
  ofInt (touchFlipValue ti.flip axis value ti.flipped)

/-- What a position does to the selected slot when it holds a contact. -/
structure Placed (i : Fin touchMaxSlots) (axis : TouchAxis) (value : Int) (ti ti' : TouchInput ℝ ℝ) :
    Prop where
  active : (ti'.slot i).active = true
  filtered : ∃ time,
    slotCoordinate (ti'.slot i) axis =
      (oneeuroApply (slotFilter (ti.slot i) axis) (sampleOf ti axis value) time).1 ∧
    slotFilter (ti'.slot i) axis =
      (oneeuroApply (slotFilter (ti.slot i) axis) (sampleOf ti axis value) time).2
  other : ∀ other, other ≠ axis →
    slotCoordinate (ti'.slot i) other = slotCoordinate (ti.slot i) other ∧
    slotFilter (ti'.slot i) other = slotFilter (ti.slot i) other
  slots : ∀ j, j ≠ i → ti'.slot j = ti.slot j
  ready : ti'.ready = ti.ready
  events : ∀ e ∈ ti'.frame, e ∈ ti.frame ∨ e.slot = slotNumber i ∧ e.kind ≠ .cancel ∧
    ∀ a, eventCoordinate e a = slotCoordinate (ti'.slot i) a

theorem openFrameEvent_kind {slot : TouchSlot ℝ ℝ} {k : Nat} {event : TouchEvent ℝ ℝ}
    (h : openFrameEvent ti slot = some (k, event)) : event.kind ≠ .cancel := by
  obtain ⟨n, _, hevent⟩ := Option.bind_eq_some_iff.mp h
  obtain ⟨e, _, hif⟩ := Option.bind_eq_some_iff.mp hevent
  split_ifs at hif with hkind
  cases hif
  rcases hkind with hdown | hmove
  · rw [hdown]
    decide
  · rw [hmove]
    decide

theorem handlePosition_placed (hindexed : Indexed ti) {i : Fin touchMaxSlots}
    (hi : selectedSlot ti.currentSlot = some i) (hactive : (ti.slot i).active = true)
    (axis : TouchAxis) (value : Int) (t : ℝ) :
    Placed i axis value ti (handlePosition ti (axisCode axis) value t) := by
  have hworks := handlePosition_works hi (axisCode axis) value t
  revert hworks
  apply handlePosition_cases (P := fun ti' => Works i ti ti' → Placed i axis value ti ti') ti hi
    (axisCode axis) value t
  case quiet => exact fun hoff => absurd (hactive.symm.trans hoff) (by decide)
  case place =>
    rintro _ spoken slot rfl rfl
    have hspoken (a : TouchAxis) :
        slotCoordinate ((ti.setSlot i { ti.slot i with lastSpoke := t }).slot i) a =
          slotCoordinate (ti.slot i) a ∧
        slotFilter ((ti.setSlot i { ti.slot i with lastSpoke := t }).slot i) a =
          slotFilter (ti.slot i) a := by
      rw [setSlot_self]
      cases a <;> exact ⟨rfl, rfl⟩
    have hon : ((ti.setSlot i { ti.slot i with lastSpoke := t }).slot i).active = true := by
      rw [setSlot_self]
      exact hactive
    have hsample : sampleOf (ti.setSlot i { ti.slot i with lastSpoke := t }) axis value =
        sampleOf ti axis value := rfl
    have hframe : (ti.setSlot i { ti.slot i with lastSpoke := t }).frame = ti.frame := rfl
    have hpointed : Indexed (ti.setSlot i { ti.slot i with lastSpoke := t }) :=
      (Works.setSlot ti i { ti.slot i with lastSpoke := t } rfl).indexed hindexed
    generalize ti.setSlot i { ti.slot i with lastSpoke := t } = spoken at *
    obtain ⟨time, hown, hfilter, hother⟩ := filterPosition_axis spoken (spoken.slot i) axis value t
    have hkept := (filterPosition_keeps spoken (spoken.slot i) (axisCode axis) value t).1.trans hon
    have hpointer := filterPosition_frameEvent spoken (spoken.slot i) (axisCode axis) value t
    generalize filterPosition spoken (spoken.slot i) (axisCode axis) value t = slot at *
    rw [(hspoken axis).2] at hown hfilter
    have hplaced {ti' : TouchInput ℝ ℝ} (hslot : ∃ k, ti'.slot i = { slot with frameEvent := k })
        (hevents : ∀ e ∈ ti'.frame, e ∈ ti.frame ∨ e.slot = slotNumber i ∧ e.kind ≠ .cancel ∧
          ∀ a, eventCoordinate e a = slotCoordinate slot a) (hworks : Works i ti ti') :
        Placed i axis value ti ti' := by
      obtain ⟨k, hslot⟩ := hslot
      have hcoordinate (a : TouchAxis) : slotCoordinate (ti'.slot i) a = slotCoordinate slot a := by
        rw [hslot]
        cases a <;> rfl
      have hfilters (a : TouchAxis) : slotFilter (ti'.slot i) a = slotFilter slot a := by
        rw [hslot]
        cases a <;> rfl
      refine ⟨by rw [hslot]; exact hkept, ⟨time, ?_, ?_⟩, fun other hne => ⟨?_, ?_⟩, hworks.others,
        hworks.queue, fun e he => (hevents e he).imp_right fun hnew => ⟨hnew.1, hnew.2.1, fun a => ?_⟩⟩
      · rw [hcoordinate, ← hsample]
        exact hown
      · rw [hfilters, ← hsample]
        exact hfilter
      · rw [hcoordinate, (hother other hne).1, (hspoken other).1]
      · rw [hfilters, (hother other hne).2, (hspoken other).2]
      · rw [hnew.2.2, hcoordinate]
    refine ⟨fun k event hopen => hplaced ⟨slot.frameEvent, setSlot_self _ _ _⟩ fun e he => ?_,
      fun _ => hplaced ⟨some spoken.frame.length, ?_⟩ fun e he => ?_⟩
    · rcases List.mem_or_eq_of_mem_set he with hold | rfl
      · exact .inl (hframe ▸ hold)
      · obtain ⟨hk, hevent⟩ := openFrameEvent_eq hopen
        obtain ⟨event', hevent', howner⟩ := hpointed i k (hpointer.symm.trans hk)
        obtain rfl : event = event' := Option.some.inj (hevent.symm.trans hevent')
        have hkind := openFrameEvent_kind hopen
        exact .inr ⟨howner, hkind, fun a => by cases a <;> rfl⟩
    · rw [appendFrameEvent_slot, if_pos rfl, setSlot_self]
      rfl
    · rw [appendFrameEvent_frame] at he
      rcases List.mem_append.mp he with hold | hnew
      · exact .inl (hframe ▸ hold)
      · rw [List.mem_singleton.mp hnew, setSlot_self]
        exact .inr ⟨rfl, by simp [slotEvent], slotEvent_coordinate _ _ _ _⟩

/-- Everything a position can do. -/
theorem position_cases {P : TouchInput ℝ ℝ → Prop} (hindexed : Indexed ti) (axis : TouchAxis)
    (value : Int) (t : ℝ) (unselected : selectedSlot ti.currentSlot = none → P ti)
    (idle : ∀ i, selectedSlot ti.currentSlot = some i → (ti.slot i).active = false →
      P (ti.setSlot i { ti.slot i with lastSpoke := t }))
    (placed : ∀ i ti', selectedSlot ti.currentSlot = some i → (ti.slot i).active = true → Indexed ti' →
      Placed i axis value ti ti' → P ti') : P (handlePosition ti (axisCode axis) value t) := by
  cases hi : selectedSlot ti.currentSlot with
  | none =>
    have hsame : handlePosition ti (axisCode axis) value t = ti := by
      simp only [handlePosition, hi]
    rw [hsame]
    exact unselected hi
  | some i =>
    cases hactive : (ti.slot i).active with
    | false =>
      apply handlePosition_cases ti hi (axisCode axis) value t
      case quiet => exact idle i hi
      case place => exact fun hon => absurd (hactive.symm.trans hon) (by decide)
    | true =>
      exact placed i _ hi hactive ((handlePosition_works hi (axisCode axis) value t).indexed hindexed)
        (handlePosition_placed hindexed hi hactive axis value t)

end Steps

/-- What happens to a decoder, a record or a slot at a time. -/
inductive Action where
  | record (raw : TouchRaw ℝ)
  | expire (now : ℝ) (i : Fin touchMaxSlots)
  | setFlipped (flipped : Bool)
  | cancelAll
  | drain (out : Bool) (max : Int)
  | select (n : Int)
  | resync (info : SlotInfo) (ids xs ys : List Int) (t : ℝ) (n : Nat)

/-- A decoder, with the raw samples of each slot's last contact so far. -/
structure Watched where
  input : TouchInput ℝ ℝ
  samples : Fin touchMaxSlots → TouchAxis → List ℝ

instance decidableLands {F D : Type} (ti : TouchInput F D) (raw : TouchRaw D) (i : Fin touchMaxSlots) :
    Decidable (PendingFrame.Lands ti raw i) :=
  inferInstanceAs (Decidable (_ ∧ _ ∧ _ ∧ ¬ (_ ∧ _)))

/-- A contact begins without samples, and a position of the selected contact is one more. -/
noncomputable def observed (ti : TouchInput ℝ ℝ) (raw : TouchRaw ℝ)
    (samples : Fin touchMaxSlots → TouchAxis → List ℝ) (i : Fin touchMaxSlots) (axis : TouchAxis) : List ℝ :=
  if ti.discarding = true then samples i axis
  else if PendingFrame.Lands ti raw i then []
  else if axisOf raw = some axis ∧ ti.currentSlot = slotNumber i ∧ (ti.slot i).active = true then
    samples i axis ++ [sampleOf ti axis raw.value]
  else samples i axis

/-- A contact of the snapshot begins with the sample the snapshot has for it. -/
noncomputable def snapshot (ti : TouchInput ℝ ℝ) (info : SlotInfo) (ids xs ys : List Int) (n : Nat)
    (samples : Fin touchMaxSlots → TouchAxis → List ℝ) (i : Fin touchMaxSlots) (axis : TouchAxis) : List ℝ :=
  if 0 ≤ ids.getD n (-1) ∧ selectedSlot (info.minimum + n) = some i then
    [sampleOf ti axis ((if axis = .x then xs else ys).getD n 0)]
  else samples i axis

noncomputable def Watched.act (w : Watched) : Action → Watched
  | .record raw => { input := feedOne w.input raw, samples := observed w.input raw w.samples }
  | .expire now i => { w with input := expireSlot now w.input i }
  | .setFlipped flipped => { w with input := touchInputSetFlipped w.input flipped }
  | .cancelAll =>
    { w with input := { cancelActiveToReady w.input (latestSpoke w.input) with discarding := false } }
  | .drain out max => { w with input := (drainReady w.input out max).2 }
  | .select n => { w with input := { w.input with currentSlot := n } }
  | .resync info ids xs ys t n =>
    { input := resyncSlot info ids xs ys t w.input n
      samples := snapshot w.input info ids xs ys n w.samples }

noncomputable def Watched.start (flip : TouchFlip ℝ) : Watched :=
  { input := touchInputNew flip, samples := fun _ _ => [] }

def Watched.events (w : Watched) : List (TouchEvent ℝ ℝ) := w.input.ready ++ w.input.frame

/-- The filters of a contact: they hold its last coordinates once it has samples. -/
structure Tuned (slot : TouchSlot ℝ ℝ) (samples : TouchAxis → List ℝ) : Prop where
  sound : ∀ axis, Sound (slotFilter slot axis)
  started : ∀ axis, (slotFilter slot axis).started = true ↔ samples axis ≠ []
  latest : ∀ axis, (slotFilter slot axis).started = true →
    (slotFilter slot axis).xPrev = slotCoordinate slot axis

theorem Tuned.congr {slot slot' : TouchSlot ℝ ℝ} {samples : TouchAxis → List ℝ} (h : Tuned slot samples)
    (hsame : ∀ axis, slotCoordinate slot' axis = slotCoordinate slot axis ∧
      slotFilter slot' axis = slotFilter slot axis) : Tuned slot' samples where
  sound axis := by
    rw [(hsame axis).2]
    exact h.sound axis
  started axis := by
    rw [(hsame axis).2]
    exact h.started axis
  latest axis := by
    rw [(hsame axis).1, (hsame axis).2]
    exact h.latest axis

/-- A new contact. -/
theorem tuned_reset {slot : TouchSlot ℝ ℝ} (h : ∀ axis, slotFilter slot axis =
    oneeuroInit filterMinCutoff filterBeta) : Tuned slot fun _ => [] where
  sound axis := by
    rw [h]
    refine sound_init ?_ ?_
    · change (0 : ℝ) < ((1 : ℚ) : ℝ)
      norm_num
    · change (0 : ℝ) ≤ ((0.02 : ℚ) : ℝ)
      norm_num
  started axis := by
    rw [h]
    exact ⟨fun hstarted => Bool.noConfusion hstarted, fun hne => absurd rfl hne⟩
  latest axis hstarted := by
    rw [h] at hstarted
    exact Bool.noConfusion hstarted

/-- The slots follow their samples. -/
structure Watched.Kept (w : Watched) : Prop where
  indexed : Indexed w.input
  hull : ∀ i axis, w.samples i axis ≠ [] →
    Hull (w.samples i axis) (slotCoordinate (w.input.slot i) axis)
  tuned : ∀ i, (w.input.slot i).active = true → Tuned (w.input.slot i) (w.samples i)

section Run
variable {w : Watched}

/-- The contacts that are left are filtered as before. -/
def Calm (ti ti' : TouchInput ℝ ℝ) : Prop :=
  ∀ i, (ti'.slot i).active = true → (ti.slot i).active = true ∧
    ∀ axis, slotFilter (ti'.slot i) axis = slotFilter (ti.slot i) axis

theorem Calm.trans {ti ti' ti'' : TouchInput ℝ ℝ} (h : Calm ti ti') (h' : Calm ti' ti'') :
    Calm ti ti'' := by
  intro i hactive
  obtain ⟨hmid, hfilter'⟩ := h' i hactive
  obtain ⟨hfirst, hfilter⟩ := h i hmid
  exact ⟨hfirst, fun axis => (hfilter' axis).trans (hfilter axis)⟩

/-- A step without a new contact or a sample. -/
theorem Watched.Kept.keep (h : w.Kept) {ti' : TouchInput ℝ ℝ} (hsteady : Steady w.input ti')
    (hcalm : Calm w.input ti') (hindexed : Indexed ti') : Watched.Kept { w with input := ti' } where
  indexed := hindexed
  hull i axis hne := by
    rw [hsteady.coordinates]
    exact h.hull i axis hne
  tuned i hactive := by
    obtain ⟨hbefore, hfilter⟩ := hcalm i hactive
    exact (h.tuned i hbefore).congr fun axis => ⟨hsteady.coordinates i axis, hfilter axis⟩

theorem indexed_unpointed {ti : TouchInput ℝ ℝ} (h : ∀ i, (ti.slot i).frameEvent = none) : Indexed ti :=
  fun i k hk => absurd ((h i).symm.trans hk) (Option.some_ne_none k).symm

theorem calm_silent {ti ti' : TouchInput ℝ ℝ} (h : ∀ i, (ti'.slot i).active = false) : Calm ti ti' :=
  fun i hactive => absurd ((h i).symm.trans hactive) (by decide)

theorem cancelled_kept (h : w.Kept) (t : ℝ) (flipped : Bool) : Watched.Kept
    { w with input := { cancelActiveToReady w.input t with discarding := false, flipped } } := by
  refine h.keep (cancelled_steady w.input t flipped) (calm_silent fun i => ?_)
    (indexed_unpointed fun i => ?_)
  · rw [cancelActiveToReady_eq]
    rfl
  · rw [cancelActiveToReady_eq]
    rfl

theorem clearSlot_calm (ti : TouchInput ℝ ℝ) (i : Fin touchMaxSlots) :
    Calm ti (ti.setSlot i (clearSlot (ti.slot i))) := by
  intro j hactive
  rw [setSlot_slot] at hactive ⊢
  split_ifs at hactive ⊢ with hj
  · exact Bool.noConfusion hactive
  · exact ⟨hactive, fun _ => rfl⟩

theorem clearSlot_indexed {ti : TouchInput ℝ ℝ} (h : Indexed ti) (i : Fin touchMaxSlots) :
    Indexed (ti.setSlot i (clearSlot (ti.slot i))) := by
  intro j k hk
  rw [setSlot_slot] at hk
  split_ifs at hk with hj
  · cases hk
  · exact h j k hk

theorem expireSlot_kept (h : w.Kept) (now : ℝ) (i : Fin touchMaxSlots) : (w.act (.expire now i)).Kept := by
  have hcalm : Calm w.input (discardFrameSlot w.input i) := by
    intro j hactive
    rw [discardFrameSlot_slot TouchSlot.active (fun _ _ => rfl)] at hactive
    exact ⟨hactive, fun axis => discardFrameSlot_slot (slotFilter · axis)
      (fun s k => by cases axis <;> rfl) w.input i j⟩
  have hindexed : Indexed (discardFrameSlot w.input i) := by
    intro j k hk
    rw [FrameIndex.discardFrameSlot_pointer] at hk
    obtain ⟨e, he, hslot, _⟩ := LastIndex.lastIndex_eq_some hk
    exact ⟨e, he, hslot⟩
  have hsteady := expireSlot_steady w.input now i
  suffices hboth : Calm w.input (expireSlot now w.input i) ∧ Indexed (expireSlot now w.input i) from
    h.keep hsteady hboth.1 hboth.2
  unfold expireSlot
  simp only
  split
  · exact ⟨fun _ hactive => ⟨hactive, fun _ => rfl⟩, h.indexed⟩
  generalize discardFrameSlot w.input i = ti' at *
  have hclear (queue : List (TouchEvent ℝ ℝ)) :
      Calm w.input ({ ti' with ready := queue }.setSlot i (clearSlot (ti'.slot i))) ∧
        Indexed ({ ti' with ready := queue }.setSlot i (clearSlot (ti'.slot i))) := by
    have hqueued : Indexed { ti' with ready := queue } := hindexed
    exact ⟨hcalm.trans (clearSlot_calm { ti' with ready := queue } i), clearSlot_indexed hqueued i⟩
  split
  · exact hclear _
  · exact hclear _

theorem published_kept (h : w.Kept) :
    Watched.Kept { w with input := publishFrame { w.input with discarding := false } } := by
  refine h.keep (published_steady w.input) (fun i hactive => ?_) ?_
  · have hfield {α : Type} (field : TouchSlot ℝ ℝ → α)
        (hann : ∀ s b, field { s with announced := b } = field s)
        (hindex : ∀ s k, field { s with frameEvent := k } = field s) :
        field ((publishFrame { w.input with discarding := false }).slot i) = field (w.input.slot i) :=
      publishFrame_field field hann hindex _ i
    refine ⟨(hfield TouchSlot.active (fun _ _ => rfl) fun _ _ => rfl).symm.trans hactive, fun axis => ?_⟩
    exact hfield (slotFilter · axis) (fun s b => by cases axis <;> rfl) fun s k => by cases axis <;> rfl
  · unfold publishFrame
    split_ifs
    · exact h.indexed
    · exact indexed_unpointed fun _ => rfl

/-- Nothing is observed while a packet is discarded, or from other records. -/
theorem observed_quiet {ti : TouchInput ℝ ℝ} {raw : TouchRaw ℝ}
    (h : ti.discarding = true ∨ tracks raw = false ∧ axisOf raw = none)
    (samples : Fin touchMaxSlots → TouchAxis → List ℝ) : observed ti raw samples = samples := by
  funext i axis
  unfold observed
  rcases h with hd | ⟨htracks, haxis⟩
  · rw [if_pos hd]
  · have hlands : ¬ PendingFrame.Lands ti raw i := fun hlands => absurd (htracks.symm.trans hlands.1) (by decide)
    have hsample : ¬ (axisOf raw = some axis ∧ ti.currentSlot = slotNumber i ∧
        (ti.slot i).active = true) := fun hsome =>
      absurd (haxis.symm.trans hsome.1) (Option.some_ne_none axis).symm
    rw [if_neg hlands, if_neg hsample, ite_self]

theorem syn_quiet {raw : TouchRaw ℝ} (h : raw.isSynDropped = true ∨ raw.isSynReport = true) :
    tracks raw = false ∧ axisOf raw = none := by
  have htype : raw.type = evSyn := by
    rcases h with h | h <;>
      simp only [TouchRaw.isSynDropped, TouchRaw.isSynReport, Bool.and_eq_true, beq_iff_eq] at h <;> exact h.1
  have hne : raw.type ≠ evAbs := by
    rw [htype]
    decide
  constructor
  · rw [tracks, beq_false_of_ne hne, Bool.false_and]
  · exact if_pos hne

/-- The filters of the selected slot after a tracking id: new ones for a new contact. -/
theorem handleTrackingId_filters {ti : TouchInput ℝ ℝ} {i : Fin touchMaxSlots}
    (hi : selectedSlot ti.currentSlot = some i) (value : Int) (t : ℝ) :
    if value ≠ -1 ∧ ¬ ((ti.slot i).active = true ∧ (ti.slot i).trackingId = value) then
      ∀ axis, slotFilter ((handleTrackingId ti value t).slot i) axis =
        oneeuroInit filterMinCutoff filterBeta
    else ((handleTrackingId ti value t).slot i).active = true → (ti.slot i).active = true ∧
      ∀ axis, slotFilter ((handleTrackingId ti value t).slot i) axis = slotFilter (ti.slot i) axis := by
  apply handleTrackingId_cases (P := fun ti' =>
    if value ≠ -1 ∧ ¬ ((ti.slot i).active = true ∧ (ti.slot i).trackingId = value) then
      ∀ axis, slotFilter (ti'.slot i) axis = oneeuroInit filterMinCutoff filterBeta
    else (ti'.slot i).active = true → (ti.slot i).active = true ∧
      ∀ axis, slotFilter (ti'.slot i) axis = slotFilter (ti.slot i) axis) ti hi value t
  case quiet =>
    intro hquiet
    have hold : ¬ (value ≠ -1 ∧ ¬ ((ti.slot i).active = true ∧ (ti.slot i).trackingId = value)) := by
      rintro ⟨hvalue, hnew⟩
      exact hquiet.elim (fun h => hvalue h.1) fun h => hnew h.2
    rw [if_neg hold, setSlot_self]
    exact fun hactive => ⟨hactive, fun axis => by cases axis <;> rfl⟩
  case lift =>
    rintro hvalue _ ti' rfl
    rw [if_neg fun h => h.1 hvalue, setSlot_self]
    exact fun hactive => Bool.noConfusion hactive
  case land =>
    intro hvalue hnew
    rw [if_pos ⟨hvalue, hnew⟩]
    intro axis
    rw [landed, appendFrameEvent_slot, if_pos rfl, setSlot_self]
    cases axis <;> rfl

theorem lands_iff {ti : TouchInput ℝ ℝ} {raw : TouchRaw ℝ} {i j : Fin touchMaxSlots}
    (htracks : tracks raw = true) (hi : selectedSlot ti.currentSlot = some i) : PendingFrame.Lands ti raw j ↔
      j = i ∧ raw.value ≠ -1 ∧ ¬ ((ti.slot i).active = true ∧ (ti.slot i).trackingId = raw.value) := by
  have hselected : ti.currentSlot = slotNumber i := (slotNumber_of_selectedSlot hi).symm
  constructor
  · rintro ⟨_, hj, hnew⟩
    obtain rfl : j = i := slotNumber_injective (hj.symm.trans hselected)
    exact ⟨rfl, hnew⟩
  · rintro ⟨rfl, hnew⟩
    exact ⟨htracks, hselected, hnew⟩

theorem observed_tracks {ti : TouchInput ℝ ℝ} {raw : TouchRaw ℝ} (hd : ti.discarding = false)
    (htracks : tracks raw = true) (samples : Fin touchMaxSlots → TouchAxis → List ℝ)
    (i : Fin touchMaxSlots) (axis : TouchAxis) : observed ti raw samples i axis =
      if PendingFrame.Lands ti raw i then [] else samples i axis := by
  have haxis : axisOf raw ≠ some axis := fun hsome =>
    absurd ((axisOf_tracks htracks).symm.trans hsome) (Option.some_ne_none axis).symm
  unfold observed
  rw [if_neg (by rw [hd]; decide)]
  split_ifs with hlands hsome
  · rfl
  · exact absurd hsome.1 haxis
  · rfl

/-- A tracking id begins a contact without samples or leaves what was followed. -/
theorem tracked_kept (h : w.Kept) {raw : TouchRaw ℝ} (hd : w.input.discarding = false)
    (htracks : tracks raw = true) : Watched.Kept
    { input := handleTrackingId w.input raw.value raw.t
      samples := observed w.input raw w.samples } := by
  have hsteady := handleTrackingId_steady w.input raw.value raw.t
  have hsamples := observed_tracks hd htracks w.samples
  cases hi : selectedSlot w.input.currentSlot with
  | none =>
    have hsame : handleTrackingId w.input raw.value raw.t = w.input := by
      simp only [handleTrackingId, hi]
    have hquiet : observed w.input raw w.samples = w.samples := by
      funext i axis
      rw [hsamples, if_neg fun hlands => ?_]
      rw [hlands.2.1, selectedSlot_slotNumber] at hi
      cases hi
    rw [hsame, hquiet]
    exact h
  | some i =>
    have hworks := handleTrackingId_works hi raw.value raw.t
    refine ⟨hworks.indexed h.indexed, fun j axis hne => ?_, fun j hactive => ?_⟩
    · change observed w.input raw w.samples j axis ≠ [] at hne
      change Hull (observed w.input raw w.samples j axis) _
      rw [hsamples] at hne ⊢
      split_ifs at hne ⊢ with hlands
      · exact absurd rfl hne
      · rw [hsteady.coordinates]
        exact h.hull j axis hne
    · change Tuned _ (observed w.input raw w.samples j)
      have hfilters := handleTrackingId_filters hi raw.value raw.t
      by_cases hlands : PendingFrame.Lands w.input raw j
      · obtain ⟨rfl, hnew⟩ := (lands_iff htracks hi).mp hlands
        have hempty : observed w.input raw w.samples j = fun _ => [] := by
          funext axis
          rw [hsamples, if_pos hlands]
        rw [if_pos hnew] at hfilters
        rw [hempty]
        exact tuned_reset hfilters
      · have hkept : observed w.input raw w.samples j = w.samples j := by
          funext axis
          rw [hsamples, if_neg hlands]
        rw [hkept]
        by_cases hj : j = i
        · subst hj
          rw [if_neg fun hnew => hlands ((lands_iff htracks hi).mpr ⟨rfl, hnew⟩)] at hfilters
          obtain ⟨hbefore, hfilter⟩ := hfilters hactive
          exact (h.tuned j hbefore).congr fun axis => ⟨hsteady.coordinates j axis, hfilter axis⟩
        · have hslot := hworks.others j hj
          change ((handleTrackingId w.input raw.value raw.t).slot j).active = true at hactive
          rw [hslot] at hactive
          change Tuned ((handleTrackingId w.input raw.value raw.t).slot j) _
          rw [hslot]
          exact h.tuned j hactive

/-- A position is a sample of the selected contact. -/
theorem observed_axis {ti : TouchInput ℝ ℝ} {raw : TouchRaw ℝ} {axis : TouchAxis}
    (hd : ti.discarding = false) (haxis : axisOf raw = some axis)
    (samples : Fin touchMaxSlots → TouchAxis → List ℝ) (i : Fin touchMaxSlots) (a : TouchAxis) :
    observed ti raw samples i a =
      if a = axis ∧ ti.currentSlot = slotNumber i ∧ (ti.slot i).active = true then
        samples i a ++ [sampleOf ti axis raw.value]
      else samples i a := by
  have hlands : ¬ PendingFrame.Lands ti raw i := fun hlands =>
    absurd ((axisOf_eq_some haxis).2.1.symm.trans hlands.1) (by decide)
  unfold observed
  rw [if_neg (by rw [hd]; decide), if_neg hlands, haxis]
  by_cases ha : a = axis
  · rw [ha]
    simp only [true_and]
  · rw [if_neg fun hsome => ha (Option.some.inj hsome.1).symm, if_neg fun hsome => ha hsome.1]

section Sample
variable {ti ti' : TouchInput ℝ ℝ} {i : Fin touchMaxSlots} {axis : TouchAxis} {value : Int}
  {samples samples' : TouchAxis → List ℝ}

/-- A sample moves its axis towards it, and no other. -/
theorem Placed.hull (h : Placed i axis value ti ti') (htuned : Tuned (ti.slot i) samples)
    (hhull : ∀ a, samples a ≠ [] → Hull (samples a) (slotCoordinate (ti.slot i) a))
    (hown : samples' axis = samples axis ++ [sampleOf ti axis value])
    (hother : ∀ a, a ≠ axis → samples' a = samples a) (a : TouchAxis) (hne : samples' a ≠ []) :
    Hull (samples' a) (slotCoordinate (ti'.slot i) a) := by
  obtain ⟨time, hcoordinate, _⟩ := h.filtered
  by_cases ha : a = axis
  · subst ha
    rw [hown, hcoordinate]
    cases hfirst : (slotFilter (ti.slot i) a).started with
    | false =>
      rw [oneeuroApply_fresh hfirst]
      exact hull_of_mem (List.mem_append_right _ (List.mem_singleton_self _))
    | true =>
      have hlast := hhull a ((htuned.started a).mp hfirst)
      rw [← htuned.latest a hfirst] at hlast
      exact hlast.push ((htuned.sound a).between hfirst _ time)
  · rw [hother a ha] at hne ⊢
    rw [(h.other a ha).1]
    exact hhull a hne

theorem Placed.tuned (h : Placed i axis value ti ti') (htuned : Tuned (ti.slot i) samples)
    (hown : samples' axis = samples axis ++ [sampleOf ti axis value])
    (hother : ∀ a, a ≠ axis → samples' a = samples a) : Tuned (ti'.slot i) samples' := by
  obtain ⟨time, hcoordinate, hfilter⟩ := h.filtered
  obtain ⟨hstarted, hlatest, _⟩ :=
    oneeuroApply_keeps (slotFilter (ti.slot i) axis) (sampleOf ti axis value) time
  refine ⟨fun a => ?_, fun a => ?_, fun a hrun => ?_⟩
  · by_cases ha : a = axis
    · rw [ha, hfilter]
      exact (htuned.sound axis).apply _ time
    · rw [(h.other a ha).2]
      exact htuned.sound a
  · by_cases ha : a = axis
    · rw [ha, hfilter, hown]
      exact ⟨fun _ => List.append_ne_nil_of_right_ne_nil _ (List.cons_ne_nil _ _), fun _ => hstarted⟩
    · rw [(h.other a ha).2, hother a ha]
      exact htuned.started a
  · by_cases ha : a = axis
    · rw [ha, hfilter, hcoordinate, hlatest]
    · rw [(h.other a ha).2] at hrun ⊢
      rw [(h.other a ha).1]
      exact htuned.latest a hrun

end Sample

theorem Placed.kept (h : w.Kept) {i : Fin touchMaxSlots} {axis : TouchAxis} {value : Int}
    {ti' : TouchInput ℝ ℝ} (hactive : (w.input.slot i).active = true) (hindexed : Indexed ti')
    (hplaced : Placed i axis value w.input ti')
    {samples : Fin touchMaxSlots → TouchAxis → List ℝ}
    (hsamples : ∀ j a, samples j a = if j = i ∧ a = axis then
      w.samples j a ++ [sampleOf w.input axis value] else w.samples j a) :
    Watched.Kept { input := ti', samples } := by
  have htuned := h.tuned i hactive
  have hown : samples i axis = w.samples i axis ++ [sampleOf w.input axis value] := by
    rw [hsamples, if_pos ⟨rfl, rfl⟩]
  have hother (a : TouchAxis) (ha : a ≠ axis) : samples i a = w.samples i a := by
    rw [hsamples, if_neg fun hsame => ha hsame.2]
  have hslots (j : Fin touchMaxSlots) (hj : j ≠ i) : samples j = w.samples j := by
    funext a
    rw [hsamples, if_neg fun hsame => hj hsame.1]
  refine ⟨hindexed, fun j a hne => ?_, fun j hon => ?_⟩
  · by_cases hj : j = i
    · subst hj
      exact hplaced.hull htuned (h.hull j) hown hother a hne
    · change samples j a ≠ [] at hne
      change Hull (samples j a) (slotCoordinate (ti'.slot j) a)
      rw [hslots j hj] at hne ⊢
      rw [hplaced.slots j hj]
      exact h.hull j a hne
  · by_cases hj : j = i
    · subst hj
      exact hplaced.tuned htuned hown hother
    · change (ti'.slot j).active = true at hon
      change Tuned (ti'.slot j) (samples j)
      rw [hplaced.slots j hj] at hon ⊢
      rw [hslots j hj]
      exact h.tuned j hon

theorem placed_kept (h : w.Kept) {raw : TouchRaw ℝ} {axis : TouchAxis} (hd : w.input.discarding = false)
    (haxis : axisOf raw = some axis) : Watched.Kept
    { input := handlePosition w.input (axisCode axis) raw.value raw.t
      samples := observed w.input raw w.samples } := by
  have hobserved := observed_axis hd haxis w.samples
  apply position_cases
    (P := fun ti => Watched.Kept { input := ti, samples := observed w.input raw w.samples })
    h.indexed axis raw.value raw.t
  case unselected =>
    intro hnone
    have hquiet : observed w.input raw w.samples = w.samples := by
      funext i a
      rw [hobserved, if_neg fun hsome => ?_]
      rw [hsome.2.1, selectedSlot_slotNumber] at hnone
      cases hnone
    rw [hquiet]
    exact h
  case idle =>
    intro i hi hidle
    have hquiet : observed w.input raw w.samples = w.samples := by
      funext j a
      rw [hobserved, if_neg fun hsome => ?_]
      obtain rfl : i = j := slotNumber_injective ((slotNumber_of_selectedSlot hi).trans hsome.2.1)
      exact absurd (hidle.symm.trans hsome.2.2) (by decide)
    rw [hquiet]
    refine h.keep (.spoke w.input i raw.t) (fun j hon => ?_)
      ((Works.setSlot w.input i { w.input.slot i with lastSpoke := raw.t } rfl).indexed h.indexed)
    rw [setSlot_slot] at hon ⊢
    split_ifs at hon ⊢ with hj
    · exact absurd (hidle.symm.trans hon) (by decide)
    · exact ⟨hon, fun _ => rfl⟩
  case placed =>
    intro i ti' hi hactive hindexed hplaced
    refine Placed.kept h hactive hindexed hplaced fun j a => ?_
    rw [hobserved, ← slotNumber_of_selectedSlot hi]
    by_cases hj : j = i
    · subst hj
      simp only [hactive, and_true, true_and]
    · rw [if_neg fun hsome => hj (slotNumber_injective hsome.2.1).symm, if_neg fun hsame => hj hsame.1]

/-- A slot of a snapshot: nothing, or a contact with its first samples and its DOWN. -/
inductive Resynced (ti : TouchInput ℝ ℝ) (samples : Fin touchMaxSlots → TouchAxis → List ℝ) :
    TouchInput ℝ ℝ → (Fin touchMaxSlots → TouchAxis → List ℝ) → Prop
  | same : Resynced ti samples ti samples
  | contact {i : Fin touchMaxSlots} {slot : TouchSlot ℝ ℝ} (first : TouchAxis → ℝ) (t : ℝ)
      (hindex : slot.frameEvent = none) (hcoordinate : ∀ axis, slotCoordinate slot axis = first axis)
      (hfilter : ∀ axis, slotFilter slot axis =
        (oneeuroApply (oneeuroInit filterMinCutoff filterBeta) (first axis) (lit 0)).2) :
      Resynced ti samples
        { ti.setSlot i slot with ready := ti.ready ++ [slotEvent slot .down i t] }
        fun j axis => if j = i then [first axis] else samples j axis

theorem resyncSlot_resynced (ti : TouchInput ℝ ℝ) (samples : Fin touchMaxSlots → TouchAxis → List ℝ)
    (info : SlotInfo) (ids xs ys : List Int) (t : ℝ) (n : Nat) :
    Resynced ti samples (resyncSlot info ids xs ys t ti n) (snapshot ti info ids xs ys n samples) := by
  have hquiet (hnone : ¬ (0 ≤ ids.getD n (-1) ∧ ∃ i, selectedSlot (info.minimum + n) = some i)) :
      snapshot ti info ids xs ys n samples = samples := by
    funext i axis
    exact if_neg fun hsome => hnone ⟨hsome.1, i, hsome.2⟩
  unfold resyncSlot
  by_cases hid : ids.getD n (-1) < 0
  · rw [if_pos hid, hquiet fun h => absurd h.1 (not_le.mpr hid)]
    exact .same
  · rw [if_neg hid]
    cases hi : selectedSlot (info.minimum + n) with
    | none =>
      rw [hquiet fun h => absurd (hi.symm.trans h.2.choose_spec) (Option.some_ne_none _).symm]
      exact .same
    | some i =>
      have hsnapshot : snapshot ti info ids xs ys n samples = fun j axis =>
          if j = i then [sampleOf ti axis ((if axis = .x then xs else ys).getD n 0)]
          else samples j axis := by
        funext j axis
        unfold snapshot
        by_cases hj : j = i
        · rw [if_pos ⟨not_lt.mp hid, hj ▸ hi⟩, if_pos hj]
        · rw [if_neg fun hsome => hj (Option.some.inj (hi.symm.trans hsome.2)).symm, if_neg hj]
      rw [hsnapshot]
      refine .contact _ t rfl (fun axis => ?_) fun axis => ?_
      · cases axis
        · exact oneeuroApply_fresh rfl _ _
        · exact oneeuroApply_fresh rfl _ _
      · cases axis <;> rfl

theorem Resynced.kept (h : w.Kept) {ti' : TouchInput ℝ ℝ}
    {samples : Fin touchMaxSlots → TouchAxis → List ℝ} (hre : Resynced w.input w.samples ti' samples) :
    Watched.Kept { input := ti', samples } := by
  cases hre with
  | same => exact h
  | @contact i slot first t hindex hcoordinate hfilter =>
    have htuned : Tuned slot fun axis => [first axis] := by
      have hfresh : Tuned (resetFilter slot) fun _ => [] := tuned_reset fun axis => by cases axis <;> rfl
      have hreset : Sound (oneeuroInit (filterMinCutoff : ℝ) filterBeta) := hfresh.sound .x
      refine ⟨fun axis => ?_, fun axis => ?_, fun axis _ => ?_⟩
      · rw [hfilter]
        exact hreset.apply _ _
      · rw [hfilter]
        exact ⟨fun _ => List.cons_ne_nil _ _, fun _ => (oneeuroApply_keeps _ _ _).1⟩
      · rw [hfilter, hcoordinate, (oneeuroApply_keeps _ _ _).2.1]
        exact oneeuroApply_fresh rfl _ _
    refine ⟨fun j k hk => ?_, fun j axis hne => ?_, fun j hon => ?_⟩
    · change ((w.input.setSlot i slot).slot j).frameEvent = some k at hk
      rw [setSlot_slot] at hk
      split_ifs at hk with hj
      · exact absurd (hindex.symm.trans hk) (Option.some_ne_none k).symm
      · exact h.indexed j k hk
    · change (if j = i then [first axis] else w.samples j axis) ≠ [] at hne
      change Hull (if j = i then [first axis] else w.samples j axis)
        (slotCoordinate ((w.input.setSlot i slot).slot j) axis)
      rw [setSlot_slot]
      split_ifs at hne ⊢ with hj
      · rw [hcoordinate]
        exact hull_of_mem (List.mem_singleton_self _)
      · exact h.hull j axis hne
    · change ((w.input.setSlot i slot).slot j).active = true at hon
      change Tuned ((w.input.setSlot i slot).slot j) fun axis =>
        if j = i then [first axis] else w.samples j axis
      rw [setSlot_slot] at hon ⊢
      split_ifs at hon ⊢ with hj
      · exact htuned
      · exact h.tuned j hon

/-- Everything one record can do, to the decoder and to the samples. -/
theorem record_cases {P : TouchInput ℝ ℝ → (Fin touchMaxSlots → TouchAxis → List ℝ) → Prop}
    (ti : TouchInput ℝ ℝ) (raw : TouchRaw ℝ) (samples : Fin touchMaxSlots → TouchAxis → List ℝ)
    (drop : P { cancelActiveToFrame ti raw.t with discarding := true, currentSlot := 0 } samples)
    (report : P (publishFrame { ti with discarding := false }) samples) (same : P ti samples)
    (select : P { ti with currentSlot := raw.value } samples)
    (track : ti.discarding = false → tracks raw = true →
      P (handleTrackingId ti raw.value raw.t) (observed ti raw samples))
    (place : ∀ axis, ti.discarding = false → axisOf raw = some axis →
      P (handlePosition ti (axisCode axis) raw.value raw.t) (observed ti raw samples)) :
    P (feedOne ti raw) (observed ti raw samples) := by
  apply feedOne_cases (P := fun ti' => P ti' (observed ti raw samples)) ti raw
  case drop =>
    intro hdrop
    rw [observed_quiet (.inr (syn_quiet (.inl hdrop)))]
    exact drop
  case report =>
    intro _ hreport
    rw [observed_quiet (.inr (syn_quiet (.inr hreport)))]
    exact report
  case skip =>
    intro _ _ hd
    rw [observed_quiet (.inl hd)]
    exact same
  case other =>
    intro _ _ _ hother
    have hquiet : tracks raw = false ∧ axisOf raw = none := by
      constructor
      · by_contra htracks
        obtain ⟨htype, hcode⟩ : raw.type = evAbs ∧ raw.code = absMtTrackingId := by
          simpa [tracks] using htracks
        exact (hother htype).2.1 hcode
      · unfold axisOf
        split_ifs with htype hx hy
        · rfl
        · exact absurd (.inl hx) (hother (not_not.mp htype)).2.2
        · exact absurd (.inr hy) (hother (not_not.mp htype)).2.2
        · rfl
    rw [observed_quiet (.inr hquiet)]
    exact same
  case select =>
    intro _ htype hcode
    have hselects : selects raw = true := by simp [selects, htype, hcode]
    have htracks : tracks raw = false := by simp [tracks, hcode, absMtSlot, absMtTrackingId]
    rw [observed_quiet (.inr ⟨htracks, axisOf_selects hselects⟩)]
    exact select
  case track =>
    intro hd htype hcode
    exact track hd (by simp [tracks, htype, hcode])
  case place =>
    rintro hd htype (hcode | hcode)
    · have haxis : axisOf raw = some .x := by simp [axisOf, htype, hcode]
      rw [hcode]
      exact place .x hd haxis
    · have haxis : axisOf raw = some .y := by
        simp [axisOf, htype, hcode, absMtPositionX, absMtPositionY]
      rw [hcode]
      exact place .y hd haxis

theorem record_kept (h : w.Kept) (raw : TouchRaw ℝ) : (w.act (.record raw)).Kept := by
  change Watched.Kept { input := feedOne w.input raw, samples := observed w.input raw w.samples }
  apply record_cases (P := fun ti samples => Watched.Kept { input := ti, samples }) w.input raw w.samples
  case drop =>
    refine h.keep (dropped_steady w.input raw.t) (calm_silent fun i => ?_) (indexed_unpointed fun i => ?_)
    · rw [cancelActiveToFrame_eq]
      rfl
    · rw [cancelActiveToFrame_eq]
      rfl
  case report => exact published_kept h
  case same => exact h
  case select =>
    exact h.keep (.select w.input raw.value) (fun _ hon => ⟨hon, fun _ => rfl⟩) h.indexed
  case track => exact fun hd htracks => tracked_kept h hd htracks
  case place => exact fun axis hd haxis => placed_kept h hd haxis

theorem act_kept (h : w.Kept) (action : Action) : (w.act action).Kept := by
  cases action with
  | record raw => exact record_kept h raw
  | expire now i => exact expireSlot_kept h now i
  | setFlipped flipped =>
    change Watched.Kept { w with input := touchInputSetFlipped w.input flipped }
    unfold touchInputSetFlipped
    split
    · exact h
    · exact cancelled_kept h _ flipped
  | cancelAll => exact cancelled_kept h _ _
  | drain out max =>
    change Watched.Kept { w with input := (drainReady w.input out max).2 }
    unfold drainReady
    split
    · exact h
    · exact ⟨h.indexed, h.hull, h.tuned⟩
  | select n => exact ⟨h.indexed, h.hull, h.tuned⟩
  | resync info ids xs ys t n =>
    exact Resynced.kept h (resyncSlot_resynced w.input w.samples info ids xs ys t n)

/-- New events carry the coordinates of their slot: a cancellation those from before the step, every
other event those from after it. -/
def Reported (ti ti' : TouchInput ℝ ℝ) : Prop :=
  ∀ e ∈ ti'.ready ++ ti'.frame, e ∈ ti.ready ++ ti.frame ∨ ∃ i, e.slot = slotNumber i ∧
    ∀ axis, eventCoordinate e axis = slotCoordinate ((if e.kind = .cancel then ti else ti').slot i) axis

theorem Steady.reported {ti ti' : TouchInput ℝ ℝ} (h : Steady ti ti') : Reported ti ti' := by
  intro e he
  refine (h.events e he).imp_right fun ⟨i, hslot, hcarries⟩ => ⟨i, hslot, fun axis => ?_⟩
  split_ifs
  · exact hcarries axis
  · rw [hcarries, h.coordinates]

theorem Placed.reported {ti ti' : TouchInput ℝ ℝ} {i : Fin touchMaxSlots} {axis : TouchAxis} {value : Int}
    (h : Placed i axis value ti ti') : Reported ti ti' := by
  intro e he
  rcases List.mem_append.mp he with hready | hframe
  · rw [h.ready] at hready
    exact .inl (List.mem_append_left _ hready)
  · rcases h.events e hframe with hold | ⟨hslot, hkind, hcarries⟩
    · exact .inl (List.mem_append_right _ hold)
    · refine .inr ⟨i, hslot, fun axis => ?_⟩
      rw [if_neg hkind]
      exact hcarries axis

theorem record_reported {ti : TouchInput ℝ ℝ} (hindexed : Indexed ti) (raw : TouchRaw ℝ) :
    Reported ti (feedOne ti raw) := by
  apply record_cases (P := fun ti' _ => Reported ti ti') ti raw fun _ _ => []
  case drop => exact (dropped_steady ti raw.t).reported
  case report => exact (published_steady ti).reported
  case same => exact (Steady.refl ti).reported
  case select => exact (Steady.select ti raw.value).reported
  case track => exact fun _ _ => (handleTrackingId_steady ti raw.value raw.t).reported
  case place =>
    intro axis _ _
    apply position_cases (P := Reported ti) hindexed axis raw.value raw.t
    case unselected => exact fun _ => (Steady.refl ti).reported
    case idle => exact fun i _ _ => (Steady.spoke ti i raw.t).reported
    case placed => exact fun _ _ _ _ _ hplaced => hplaced.reported

theorem Resynced.reported {ti ti' : TouchInput ℝ ℝ}
    {samples samples' : Fin touchMaxSlots → TouchAxis → List ℝ} (h : Resynced ti samples ti' samples') :
    Reported ti ti' := by
  cases h with
  | same => exact (Steady.refl ti).reported
  | @contact i slot first t hindex hcoordinate hfilter =>
    intro e he
    rcases List.mem_append.mp he with hready | hframe
    · rcases List.mem_append.mp hready with hold | hnew
      · exact .inl (List.mem_append_left _ hold)
      · refine .inr ⟨i, by rw [List.mem_singleton.mp hnew]; rfl, fun axis => ?_⟩
        have hdown : ¬ e.kind = .cancel := by
          rw [List.mem_singleton.mp hnew]
          exact TouchKind.noConfusion
        have hself : (ti.setSlot i slot).slot i = slot := setSlot_self _ _ _
        rw [if_neg hdown, List.mem_singleton.mp hnew, slotEvent_coordinate]
        exact congrArg (slotCoordinate · axis) hself.symm
    · exact .inl (List.mem_append_right _ hframe)

theorem act_reported (h : w.Kept) (action : Action) : Reported w.input (w.act action).input := by
  cases action with
  | record raw => exact record_reported h.indexed raw
  | expire now i => exact (expireSlot_steady w.input now i).reported
  | setFlipped flipped =>
    change Reported w.input (touchInputSetFlipped w.input flipped)
    unfold touchInputSetFlipped
    split
    · exact (Steady.refl w.input).reported
    · exact (cancelled_steady w.input _ flipped).reported
  | cancelAll => exact (cancelled_steady w.input _ _).reported
  | drain out max => exact (drained_steady w.input out max).reported
  | select n => exact (Steady.select w.input n).reported
  | resync info ids xs ys t n =>
    exact (resyncSlot_resynced w.input w.samples info ids xs ys t n).reported

/-- The coordinates are among the samples of the contact, the filters divide by zero nowhere, and what
the next step reports of a contact is in every region that its samples so far are in. -/
def Contained (w : Watched) : Prop :=
  (∀ i axis, w.samples i axis ≠ [] → Hull (w.samples i axis) (slotCoordinate (w.input.slot i) axis)) ∧
  (∀ i axis x t, (w.input.slot i).active = true → Divides (slotFilter (w.input.slot i) axis) x t) ∧
  ∀ action, ∀ e ∈ (w.act action).events, e ∈ w.events ∨ ∃ i, e.slot = slotNumber i ∧
    ∀ axis lo hi, (if e.kind = .cancel then w else w.act action).samples i axis ≠ [] →
      (∀ s ∈ (if e.kind = .cancel then w else w.act action).samples i axis, s ∈ Set.Icc lo hi) →
      eventCoordinate e axis ∈ Set.Icc lo hi

theorem Watched.Kept.contained (h : w.Kept) : Contained w := by
  refine ⟨h.hull, fun i axis x t hactive => ((h.tuned i hactive).sound axis).divides x t,
    fun action e he => ?_⟩
  refine (act_reported h action e he).imp_right fun ⟨i, hslot, hcarries⟩ => ⟨i, hslot, ?_⟩
  intro axis lo hi hne hregion
  rw [hcarries]
  split_ifs at hne hregion ⊢
  · exact (h.hull i axis hne).region hregion
  · exact ((act_kept h action).hull i axis hne).region hregion

theorem start_kept (flip : TouchFlip ℝ) : (Watched.start flip).Kept where
  indexed := indexed_unpointed fun _ => rfl
  hull _ _ hne := absurd rfl hne
  tuned _ hactive := Bool.noConfusion hactive

end Run

section Calls

/-- A call, a record or a slot at a time. -/
def callActions : Call ℝ → List Action
  | .feed raw out max => raw.map .record ++ [.drain out max]
  | .expire now out max => (List.finRange touchMaxSlots).map (.expire now) ++ [.drain out max]
  | .setFlipped flipped => [.setFlipped flipped]
  | .cancelAll out max => [.cancelAll, .drain out max]

theorem foldl_act {α : Type} (action : α → Action) (step : TouchInput ℝ ℝ → α → TouchInput ℝ ℝ)
    (hstep : ∀ (w : Watched) a, (w.act (action a)).input = step w.input a) (entries : List α) (w : Watched) :
    ((entries.map action).foldl Watched.act w).input = entries.foldl step w.input := by
  induction entries generalizing w with
  | nil => rfl
  | cons a rest ih => rw [List.map_cons, List.foldl_cons, ih, hstep, List.foldl_cons]

theorem callActions_input (w : Watched) (s : Session ℝ ℝ) (h : w.input = s.input) (c : Call ℝ) :
    ((callActions c).foldl Watched.act w).input = (s.call c).input := by
  cases c with
  | feed raw out max =>
    have hrecords := foldl_act Action.record feedOne (fun _ _ => rfl) raw w
    rw [callActions, List.foldl_append, List.foldl_cons, List.foldl_nil]
    change (drainReady ((raw.map Action.record).foldl Watched.act w).input out max).2 = _
    rw [hrecords, h]
    rfl
  | expire now out max =>
    have hslots := foldl_act (Action.expire now) (expireSlot now) (fun _ _ => rfl)
      (List.finRange touchMaxSlots) w
    rw [callActions, List.foldl_append, List.foldl_cons, List.foldl_nil]
    change (drainReady (((List.finRange touchMaxSlots).map (Action.expire now)).foldl
      Watched.act w).input out max).2 = _
    rw [hslots, h]
    rfl
  | setFlipped flipped =>
    change touchInputSetFlipped w.input flipped = _
    rw [h]
    rfl
  | cancelAll out max =>
    change (drainReady { cancelActiveToReady w.input (latestSpoke w.input) with discarding := false }
      out max).2 = _
    rw [h]
    rfl

/-- Every state that calls reach is one of these. -/
theorem session_watched (flip : TouchFlip ℝ) {calls : List (Call ℝ)} {s : Session ℝ ℝ}
    (h : Run (Fires Session.call) (Session.start flip) calls s) :
    ∃ actions w, Run (Fires Watched.act) (Watched.start flip) actions w ∧ w.input = s.input := by
  induction h with
  | nil => exact ⟨[], _, .nil, rfl⟩
  | snoc _ hfires ih =>
    obtain ⟨actions, w, hrun, hinput⟩ := ih
    rename_i t u c _
    obtain rfl : u = t.call c := hfires
    exact ⟨_, _, hrun.trans (run_foldl Watched.act w (callActions c)), callActions_input w t hinput c⟩

/-- A resynchronisation is the selection of its slot and then a slot of the snapshot at a time. -/
theorem resyncDriver_watched (w : Watched) (info : SlotInfo) (ids xs ys : List Int) (t : ℝ) :
    ((Action.select info.value :: (List.range info.count.toNat).map (.resync info ids xs ys t)).foldl
      Watched.act w).input = resyncDriver info ids xs ys t w.input :=
  foldl_act (Action.resync info ids xs ys t) (resyncSlot info ids xs ys t) (fun _ _ => rfl) _ _

end Calls

/-- Over the reals the filter divides by zero nowhere and stays between its last output and the new
sample. So in every state of a decoder the coordinates of a contact are among its samples so far. -/
theorem contact_contained :
    (∀ mincutoff beta : ℝ, 0 < mincutoff → 0 ≤ beta →
      (∀ samples x t, Divides (smoothed mincutoff beta samples) x t) ∧
      (∀ x t, (oneeuroApply (smoothed mincutoff beta []) x t).1 = x) ∧
      ∀ before x₀ t₀ x t, (oneeuroApply (smoothed mincutoff beta (before ++ [(x₀, t₀)])) x t).1 ∈
        Set.uIcc (oneeuroApply (smoothed mincutoff beta before) x₀ t₀).1 x) ∧
    ∀ (flip : TouchFlip ℝ) (actions : List Action) (w : Watched),
      Run (Fires Watched.act) (Watched.start flip) actions w → Contained w := by
  constructor
  · intro mincutoff beta hmincutoff hbeta
    refine ⟨fun samples x t => (smoothed_sound hmincutoff hbeta samples).divides x t,
      fun x t => oneeuroApply_fresh rfl x t, ?_⟩
    exact smoothed_between hmincutoff hbeta
  · intro flip actions w hrun
    have hkept : w.Kept := by
      refine hrun.invariant Watched.Kept (start_kept flip) ?_
      rintro t action _ ht rfl
      exact act_kept ht action
    exact hkept.contained

/-- A finger that lands and moves on, with a sample at the time of the one before and one earlier. -/
def fingerActions : List Action :=
  [.record ⟨evAbs, absMtTrackingId, 7, 1⟩, .record ⟨evAbs, absMtPositionX, 100, 1⟩,
    .record ⟨evAbs, absMtPositionX, 300, 1⟩, .record ⟨evSyn, synReport, 0, 1⟩,
    .record ⟨evAbs, absMtPositionX, 200, 0⟩]

noncomputable def levelFlip : TouchFlip ℝ := (touchFlipConfigure 1024 600 1023 599 none).1

theorem finger_contained :
    (oneeuroApply (smoothed 1 (1 / 50) ([] ++ [(0, 5)])) 10 5).1 ∈
      Set.uIcc (oneeuroApply (smoothed 1 (1 / 50) []) 0 5).1 10 ∧
    Contained (fingerActions.foldl Watched.act (Watched.start levelFlip)) :=
  ⟨(contact_contained.1 1 (1 / 50) one_pos (by norm_num)).2.2 [] 0 5 10 5,
    contact_contained.2 levelFlip fingerActions _ (run_foldl _ _ _)⟩

end Taq102.Touch.Containment
