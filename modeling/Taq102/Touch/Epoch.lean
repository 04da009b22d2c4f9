import Taq102.Touch.Reading

/-! What the descriptor hands out from a moment on at which its decoder is clear: every contact begins
and ends once, and every event carries the time of a record, over any answers of the kernel, losses
and snapshots included. -/
namespace Taq102.Touch.Epoch
open Taq102.Lib CFloat Bracket Transition Evdev Reading ContactStream
variable {F D : Type}

/-- No contact is known and none is on its way. -/
structure Clear (ti : TouchInput F D) : Prop where
  following : ti.discarding = false
  frame : ti.frame = []
  slots : ∀ i, (ti.slot i).announced = false ∧ (ti.slot i).active = false

/-- While a packet is discarded no slot is live and only cancellations wait. -/
structure Quiet (ti : TouchInput F D) : Prop where
  cleared : ti.discarding = true → ∀ i, (ti.slot i).announced = false ∧ (ti.slot i).active = false
  cancels : ti.discarding = true → ∀ e ∈ ti.frame, e.kind = .cancel

/-- The times of the events that wait have a property. -/
structure Stamped (P : D → Prop) (ti : TouchInput F D) : Prop where
  ready : ∀ e ∈ ti.ready, P e.t
  frame : ∀ e ∈ ti.frame, P e.t

variable {P : D → Prop}

theorem Clear.quiet {ti : TouchInput F D} (h : Clear ti) : Quiet ti := by
  refine ⟨fun hd => ?_, fun hd => ?_⟩
  · exact nomatch h.following.symm.trans hd
  · exact nomatch h.following.symm.trans hd

theorem quiet_of_following {ti : TouchInput F D} (h : ti.discarding = false) : Quiet ti := by
  refine ⟨fun hd => ?_, fun hd => ?_⟩
  · exact nomatch h.symm.trans hd
  · exact nomatch h.symm.trans hd

/-- A clear decoder has nothing open, whatever was handed out before. -/
theorem Clear.balanced {ti : TouchInput F D} (h : Clear ti) : Balanced ti [] := by
  refine .of_frameBalanced h.following (fun i => ?_) fun i => ?_
  · rw [(h.slots i).1]
    rfl
  · rw [h.frame, (h.slots i).1, (h.slots i).2]
    rfl

section Times

theorem publishFrame_stamped {ti : TouchInput F D} (h : Stamped P ti) : Stamped P (publishFrame ti) := by
  unfold publishFrame
  split
  · exact h
  · refine ⟨fun e he => ?_, nofun⟩
    rcases List.mem_append.mp he with he | he
    · exact h.ready e he
    · exact h.frame e he

theorem appendFrameEvent_stamped {ti : TouchInput F D} (h : Stamped P ti) (kind : TouchKind)
    (i : Fin touchMaxSlots) {t : D} (ht : P t) : Stamped P (appendFrameEvent ti kind i t) := by
  refine ⟨h.ready, fun e he => ?_⟩
  rw [appendFrameEvent_frame] at he
  rcases List.mem_append.mp he with he | he
  · exact h.frame e he
  · obtain rfl := List.mem_singleton.mp he
    exact ht

theorem cancelEvents_time {ti : TouchInput F D} {t : D} {e : TouchEvent F D} (he : e ∈ cancelEvents ti t) :
    e.t = t := by
  obtain ⟨i, _, hi⟩ := List.mem_flatMap.mp he
  unfold slotCancel at hi
  split at hi
  · obtain rfl := List.mem_singleton.mp hi
    rfl
  · cases hi

variable [CFloat F]

theorem handleTrackingId_stamped {ti : TouchInput F D} (h : Stamped P ti) (value : Int) {t : D}
    (ht : P t) : Stamped P (handleTrackingId ti value t) := by
  cases hi : selectedSlot ti.currentSlot with
  | none =>
    unfold handleTrackingId
    rw [hi]
    exact h
  | some i =>
    have hspoken : Stamped P (ti.setSlot i { ti.slot i with lastSpoke := t }) := ⟨h.ready, h.frame⟩
    apply handleTrackingId_cases (P := Stamped P) ti hi value t
    case quiet => exact fun _ => hspoken
    case lift =>
      rintro _ _ ti' rfl
      have hlifted := appendFrameEvent_stamped hspoken .up i ht
      exact ⟨hlifted.ready, hlifted.frame⟩
    case land =>
      intro _ _
      unfold landed
      dsimp only
      generalize ti.setSlot i { ti.slot i with lastSpoke := t } = spoken at hspoken
      have hended : Stamped P (if (spoken.slot i).active then appendFrameEvent spoken .cancel i t
          else spoken) := by
        split
        · exact appendFrameEvent_stamped hspoken .cancel i ht
        · exact hspoken
      generalize (if (spoken.slot i).active then appendFrameEvent spoken .cancel i t else spoken) = ended at hended
      have hlanded : Stamped P (ended.setSlot i (landedSlot (ended.slot i) value t)) :=
        ⟨hended.ready, hended.frame⟩
      exact appendFrameEvent_stamped hlanded .down i ht

variable [CFloat D]

theorem handlePosition_stamped [CDouble F D] {ti : TouchInput F D} (h : Stamped P ti) (code : Nat)
    (value : Int) {t : D} (ht : P t) : Stamped P (handlePosition ti code value t) := by
  cases hi : selectedSlot ti.currentSlot with
  | none =>
    unfold handlePosition
    rw [hi]
    exact h
  | some i =>
    apply handlePosition_cases (P := Stamped P) ti hi code value t
    case quiet => exact fun _ => ⟨h.ready, h.frame⟩
    case place =>
      intro _ spoken slot hspoken _
      have hkept : Stamped P spoken := by
        rw [hspoken]
        exact ⟨h.ready, h.frame⟩
      have hplaced : Stamped P (spoken.setSlot i slot) := ⟨hkept.ready, hkept.frame⟩
      refine ⟨fun k event _ => ⟨hkept.ready, fun e he => ?_⟩, fun _ => ?_⟩
      · rcases List.mem_or_eq_of_mem_set he with he | rfl
        · exact hkept.frame e he
        · exact ht
      · exact appendFrameEvent_stamped hplaced .move i ht

theorem feedOne_stamped [CDouble F D] {ti : TouchInput F D} {raw : TouchRaw D} (h : Stamped P ti)
    (ht : P raw.t) : Stamped P (feedOne ti raw) := by
  apply feedOne_cases (P := Stamped P)
  case drop =>
    intro _
    rw [cancelActiveToFrame_eq]
    refine ⟨h.ready, fun e he => ?_⟩
    rw [cancelEvents_time he]
    exact ht
  case report => exact fun _ _ => publishFrame_stamped ⟨h.ready, h.frame⟩
  case skip => exact fun _ _ _ => h
  case other => exact fun _ _ _ _ => h
  case select => exact fun _ _ _ => ⟨h.ready, h.frame⟩
  case track => exact fun _ _ _ => handleTrackingId_stamped h _ ht
  case place => exact fun _ _ _ => handlePosition_stamped h _ _ ht

theorem expireSlot_stamped {ti : TouchInput F D} (h : Stamped P ti) {now : D} (hnow : P now)
    (i : Fin touchMaxSlots) : Stamped P (expireSlot now ti i) := by
  unfold expireSlot
  dsimp only
  split
  · exact h
  have hkept : Stamped P (discardFrameSlot ti i) :=
    ⟨h.ready, fun e he => h.frame e (List.mem_of_mem_filter he)⟩
  generalize discardFrameSlot ti i = kept at hkept
  split
  · refine ⟨fun e he => ?_, hkept.frame⟩
    rcases List.mem_append.mp he with he | he
    · exact hkept.ready e he
    · obtain rfl := List.mem_singleton.mp he
      exact hnow
  · exact ⟨hkept.ready, hkept.frame⟩

theorem resyncDriver_stamped {ti : TouchInput F D} (h : Stamped P ti) (info : SlotInfo)
    (ids xs ys : List Int) {t : D} (ht : P t) : Stamped P (resyncDriver info ids xs ys t ti) := by
  unfold resyncDriver
  have hstart : Stamped P { ti with currentSlot := info.value } := ⟨h.ready, h.frame⟩
  generalize { ti with currentSlot := info.value } = start at hstart
  induction List.range info.count.toNat generalizing start with
  | nil => exact hstart
  | cons i rest ih =>
    rw [List.foldl_cons]
    refine ih _ ?_
    unfold resyncSlot
    split
    · exact hstart
    split
    · exact hstart
    · refine ⟨fun e he => ?_, hstart.frame⟩
      rcases List.mem_append.mp he with he | he
      · exact hstart.ready e he
      · obtain rfl := List.mem_singleton.mp he
        exact ht

end Times

section Records
variable [CFloat F] [CFloat D]

omit [CFloat F] [CFloat D] in
theorem announceFrame_cancels {frame : List (TouchEvent F D)} {slots : Fin touchMaxSlots → TouchSlot F D}
    (hcancels : ∀ e ∈ frame, e.kind = .cancel)
    (hslots : ∀ i, (slots i).announced = false ∧ (slots i).active = false) (i : Fin touchMaxSlots) :
    (announceFrame frame slots i).announced = false ∧ (announceFrame frame slots i).active = false := by
  induction frame generalizing slots with
  | nil => exact hslots i
  | cons e rest ih =>
    refine ih (fun a ha => hcancels a (List.mem_cons_of_mem e ha)) fun j => ?_
    dsimp only
    rw [hcancels e List.mem_cons_self, modifySlot]
    split
    · exact ⟨rfl, (hslots j).2⟩
    · exact hslots j

omit [CFloat F] [CFloat D] in
/-- The end of a discarded packet leaves nothing. -/
theorem publishFrame_clear {ti : TouchInput F D} (h : Quiet ti) (hd : ti.discarding = true) :
    Clear (publishFrame { ti with discarding := false }) := by
  unfold publishFrame
  split
  · rename_i hempty
    exact ⟨rfl, List.isEmpty_iff.mp hempty, h.cleared hd⟩
  · refine ⟨rfl, rfl, fun i => ?_⟩
    exact announceFrame_cancels (h.cancels hd) (h.cleared hd) i

omit [CFloat F] [CFloat D] in
theorem publishFrame_following {ti : TouchInput F D} (h : ti.discarding = false) :
    (publishFrame ti).discarding = false := by
  unfold publishFrame
  split <;> exact h

theorem feedOne_quiet [CDouble F D] {ti : TouchInput F D} {raw : TouchRaw D} (h : Quiet ti) :
    Quiet (feedOne ti raw) := by
  apply feedOne_cases (P := Quiet)
  case drop =>
    intro _
    rw [cancelActiveToFrame_eq]
    exact ⟨fun _ i => ⟨rfl, rfl⟩, fun _ e he => cancelEvents_kind he⟩
  case report => exact fun _ _ => quiet_of_following (publishFrame_following rfl)
  case skip => exact fun _ _ _ => h
  case other => exact fun _ _ _ _ => h
  case select => exact fun hd _ _ => quiet_of_following hd
  case track =>
    intro hd _ _
    exact quiet_of_following ((handleTrackingId_frameStep ti _ _).unpublished.discarding.trans hd)
  case place =>
    intro hd _ _
    exact quiet_of_following ((handlePosition_frameStep ti _ _ _).unpublished.discarding.trans hd)

/-- The record that ends a discarded packet. -/
theorem feedOne_resumes [CDouble F D] {ti : TouchInput F D} {raw : TouchRaw D} (h : Quiet ti)
    (hd : ti.discarding = true) (hresumes : (feedOne ti raw).discarding = false) :
    Clear (feedOne ti raw) := by
  revert hresumes
  apply feedOne_cases (P := fun ti' => ti'.discarding = false → Clear ti')
  case drop => exact fun _ hfollowing => nomatch hfollowing
  case report => exact fun _ _ _ => publishFrame_clear h hd
  case skip => exact fun _ _ _ hfollowing => nomatch hfollowing.symm.trans hd
  case other => exact fun _ _ hfollowing => nomatch hfollowing.symm.trans hd
  case select => exact fun hfollowing => nomatch hfollowing.symm.trans hd
  case track => exact fun hfollowing => nomatch hfollowing.symm.trans hd
  case place => exact fun hfollowing => nomatch hfollowing.symm.trans hd

omit [CFloat F] [CFloat D] in
/-- A contact that was not open is opened at once. -/
theorem open_balanced {ti : TouchInput F D} {handed : List (TouchEvent F D)}
    (h : Balanced ti (handed ++ ti.ready)) (hd : ti.discarding = false) (hframe : ti.frame = [])
    {k : Fin touchMaxSlots} (hopen : (ti.slot k).announced = false) {slot : TouchSlot F D}
    (hannounced : slot.announced = true) (hactive : slot.active = true) (t : D) :
    Balanced { ti.setSlot k slot with ready := ti.ready ++ [slotEvent slot .down k t] }
      (handed ++ (ti.ready ++ [slotEvent slot .down k t])) := by
  refine .of_frameBalanced hd (fun j => ?_) fun j => ?_
  · have hbefore := h.scan_handed hd j
    rw [← List.append_assoc, contactMarks_append]
    refine scan_concat hbefore ?_
    change scan _ _ = some ((ti.setSlot k slot).slot j).announced
    rw [contactMarks_singleton, setSlot_slot]
    by_cases hj : j = k
    · rw [hj, if_pos rfl, hopen, hannounced]
      simp [slotEvent, bracketMark, Bracket.advance]
    · have hother : ¬ slotNumber k = slotNumber j := by
        rw [slotNumber_eq_iff]
        exact Ne.symm hj
      rw [if_neg hj]
      simp [slotEvent, Ne.symm hj]
  · have hbefore := h.frameBalanced hd j
    rw [hframe] at hbefore
    change scan ((ti.setSlot k slot).slot j).announced (contactMarks j ti.frame) =
      some ((ti.setSlot k slot).slot j).active
    rw [hframe, setSlot_slot]
    split
    · rw [hannounced, hactive]
      rfl
    · exact hbefore

/-- One slot of the snapshot opens a contact that was not open. -/
theorem resyncSlot_balanced {ti : TouchInput F D} {handed : List (TouchEvent F D)}
    (h : Balanced ti (handed ++ ti.ready)) (hd : ti.discarding = false) (hframe : ti.frame = [])
    (info : SlotInfo) (ids xs ys : List Int) (t : D) (i : Nat)
    (hfree : ∀ k, selectedSlot (info.minimum + i) = some k → (ti.slot k).announced = false) :
    Balanced (resyncSlot info ids xs ys t ti i) (handed ++ (resyncSlot info ids xs ys t ti i).ready) ∧
      (resyncSlot info ids xs ys t ti i).discarding = false ∧
      (resyncSlot info ids xs ys t ti i).frame = [] ∧
      ∀ j, selectedSlot (info.minimum + i) ≠ some j →
        (resyncSlot info ids xs ys t ti i).slot j = ti.slot j := by
  unfold resyncSlot
  split
  · exact ⟨h, hd, hframe, fun _ _ => rfl⟩
  split
  · exact ⟨h, hd, hframe, fun _ _ => rfl⟩
  rename_i k hk
  refine ⟨open_balanced h hd hframe (hfree k hk) rfl rfl t, hd, hframe, fun j hj => ?_⟩
  have hother : j ≠ k := by
    rintro rfl
    exact hj hk
  exact (setSlot_slot _ _ _ _).trans (if_neg hother)

theorem resyncDriver_discarding (info : SlotInfo) (ids xs ys : List Int) (t : D) (ti : TouchInput F D) :
    (resyncDriver info ids xs ys t ti).discarding = ti.discarding := by
  have hslot (ti : TouchInput F D) (i : Nat) :
      (resyncSlot info ids xs ys t ti i).discarding = ti.discarding := by
    unfold resyncSlot
    split
    · rfl
    split <;> rfl
  unfold resyncDriver
  generalize hstart : { ti with currentSlot := info.value } = start
  have hsame : start.discarding = ti.discarding := by rw [← hstart]
  clear hstart
  induction List.range info.count.toNat generalizing start with
  | nil => exact hsame
  | cons i rest ih => exact ih _ ((hslot start i).trans hsame)

/-- The snapshot opens the contacts of a clear decoder. -/
theorem resyncDriver_balanced {ti : TouchInput F D} {handed : List (TouchEvent F D)} (hclear : Clear ti)
    (h : Balanced ti (handed ++ ti.ready)) (info : SlotInfo) (ids xs ys : List Int) (t : D) :
    Balanced (resyncDriver info ids xs ys t ti) (handed ++ (resyncDriver info ids xs ys t ti).ready) := by
  unfold resyncDriver
  obtain ⟨start, hstart⟩ : ∃ start, start = { ti with currentSlot := info.value } := ⟨_, rfl⟩
  have hbalanced : Balanced start (handed ++ start.ready) := by
    rw [hstart]
    exact ⟨h.scanned, h.cleared, h.cancels⟩
  have hd : start.discarding = false := by
    rw [hstart]
    exact hclear.following
  have hframe : start.frame = [] := by
    rw [hstart]
    exact hclear.frame
  have hfree : ∀ i ∈ List.range info.count.toNat, ∀ k, selectedSlot (info.minimum + (i : Int)) = some k →
      (start.slot k).announced = false := by
    intro i _ k _
    rw [hstart]
    exact (hclear.slots k).1
  rw [← hstart]
  have hnodup := List.nodup_range (n := info.count.toNat)
  clear hstart
  generalize List.range info.count.toNat = indices at hfree hnodup ⊢
  -- a slot is free until its own index comes
  induction indices generalizing start with
  | nil => exact hbalanced
  | cons i rest ih =>
    obtain ⟨hi, hrest⟩ := List.nodup_cons.mp hnodup
    obtain ⟨hbalanced', hd', hframe', hkept⟩ :=
      resyncSlot_balanced hbalanced hd hframe info ids xs ys t i (hfree i List.mem_cons_self)
    rw [List.foldl_cons]
    refine ih _ hbalanced' hd' hframe' (fun j hj k hk => ?_) hrest
    have hother : selectedSlot (info.minimum + (i : Int)) ≠ some k := by
      intro hsame
      have hnumber := (slotNumber_of_selectedSlot hsame).symm.trans (slotNumber_of_selectedSlot hk)
      have heq : i = j := by omega
      exact hi (heq ▸ hj)
    rw [hkept k hother]
    exact hfree j (List.mem_cons_of_mem i hj) k hk

end Records

section Readers
variable [CFloat F] [CFloat D] [CDouble F D]

/-- What holds of a reader at every moment: a snapshot is owed only to a clear decoder. -/
structure Sound (P : D → Prop) (r : Reader F D) : Prop where
  quiet : Quiet r.input
  stamped : Stamped P r.input
  clear : r.resyncNeeded = true → Clear r.input ∧ P r.resyncTime
  owed : ∀ stage resume, r.pc = .resync stage resume →
    r.resyncNeeded = true ∧ ∀ event, resume = .before event → P event.raw.t

/-- What was handed out, with what waits, is balanced. -/
def Keeps (r r' : Reader F D) : Prop :=
  ∀ handed, Balanced r.input (handed ++ r.input.ready) → Balanced r'.input (handed ++ r'.input.ready)

omit [CFloat F] [CFloat D] [CDouble F D] in
theorem Keeps.of_input {r r' : Reader F D} (h : r'.input = r.input) : Keeps r r' := by
  intro handed hb
  rw [h]
  exact hb

theorem feedRecord_input (r : Reader F D) (raw : TouchRaw D) :
    (r.feedRecord raw).input = feedOne r.input raw := by
  unfold Reader.feedRecord
  dsimp only
  split <;> rfl

theorem feedRecord_sound {r : Reader F D} {raw : TouchRaw D} (hbefore : Quiet r.input)
    (htimes : Stamped P r.input) (hsynced : r.resyncNeeded = false) (ht : P raw.t) :
    Sound P (r.feedRecord raw) := by
  have hquiet : Quiet (feedOne r.input raw) := feedOne_quiet hbefore
  have hstamped : Stamped P (feedOne r.input raw) := feedOne_stamped htimes ht
  unfold Reader.feedRecord
  dsimp only
  split
  · rename_i hresumes
    simp only [Bool.and_eq_true, Bool.not_eq_true'] at hresumes
    refine ⟨hquiet, hstamped, fun _ => ⟨feedOne_resumes hbefore hresumes.1.1 hresumes.1.2, ht⟩, ?_⟩
    intro stage resume hpc
    cases hpc
    exact ⟨rfl, nofun⟩
  · refine ⟨hquiet, hstamped, ?_, ?_⟩
    · intro hneeded
      exact absurd (hsynced.symm.trans hneeded) Bool.false_ne_true
    intro stage resume hpc
    dsimp only at hpc
    rw [hsynced] at hpc
    cases hpc

theorem feedRecord_keeps {r : Reader F D} {raw : TouchRaw D}
    (hok : raw.isSynDropped = true → ¬ CancelPending r.input) : Keeps r (r.feedRecord raw) := by
  intro handed hb
  rw [feedRecord_input]
  exact feedOne_balanced hb hok

theorem processInputEvent_sound {r : Reader F D} {event : Queued D} (h : Sound P r)
    (ht : P event.raw.t) : Sound P (r.processInputEvent event) := by
  unfold Reader.processInputEvent
  split
  · rename_i hneeded
    refine ⟨h.quiet, h.stamped, h.clear, fun stage resume hpc => ?_⟩
    cases hpc
    refine ⟨hneeded, fun e he => ?_⟩
    cases he
    exact ht
  · rename_i hsynced
    exact feedRecord_sound h.quiet h.stamped (eq_false_of_ne_true hsynced) ht

theorem processInputEvent_keeps {r : Reader F D} {event : Queued D}
    (hok : event.raw.isSynDropped = true → ¬ CancelPending r.input) :
    Keeps r (r.processInputEvent event) := by
  unfold Reader.processInputEvent
  split
  · exact .of_input rfl
  · exact feedRecord_keeps hok

omit [CFloat F] [CFloat D] [CDouble F D] in
theorem resyncFailed_sound {r : Reader F D} (h : Sound P r) (resume : Resume D) (errno : Int) :
    Sound P (r.resyncFailed resume errno) := by
  cases resume <;> exact ⟨h.quiet, h.stamped, h.clear, nofun⟩

omit [CFloat F] [CFloat D] [CDouble F D] in
theorem resyncFailed_input (r : Reader F D) (resume : Resume D) (errno : Int) :
    (r.resyncFailed resume errno).input = r.input := by
  cases resume <;> rfl

/-- A decoder that follows its device takes the record that waited for the snapshot. -/
theorem resyncSucceeded_sound {r : Reader F D} (hd : r.input.discarding = false)
    (hstamped : Stamped P r.input) {resume : Resume D}
    (ht : ∀ event, resume = .before event → P event.raw.t) : Sound P (r.resyncSucceeded resume) := by
  have hsynced : Sound P { r with resyncNeeded := false, resyncErrno := 0, pc := .reading } :=
    ⟨quiet_of_following hd, hstamped, nofun, nofun⟩
  cases resume with
  | before event =>
    have hfed : Sound P ({ r with resyncNeeded := false, resyncErrno := 0 }.feedRecord event.raw) :=
      feedRecord_sound (quiet_of_following hd) hstamped rfl (ht event rfl)
    exact hfed
  | entry => exact hsynced
  | after => exact hsynced

theorem resyncSucceeded_keeps {r : Reader F D} (hd : r.input.discarding = false) (resume : Resume D) :
    Keeps r (r.resyncSucceeded resume) := by
  cases resume with
  | before event =>
    have hfed : Keeps { r with resyncNeeded := false, resyncErrno := 0 }
        ({ r with resyncNeeded := false, resyncErrno := 0 }.feedRecord event.raw) :=
      feedRecord_keeps fun _ hpending => nomatch hd.symm.trans hpending.1
    exact hfed
  | entry => exact .of_input rfl
  | after => exact .of_input rfl

theorem answered_sound {r : Reader F D} (h : Sound P r) {stage : Stage} {resume : Resume D}
    (hpc : r.pc = .resync stage resume) (device : Device D) : Sound P (r.answered device stage resume) := by
  obtain ⟨hneeded, ht⟩ := h.owed stage resume hpc
  have hgoes (stage : Stage) : Sound P { r with pc := .resync stage resume } := by
    refine ⟨h.quiet, h.stamped, h.clear, fun stage' resume' hpc' => ?_⟩
    cases hpc'
    exact ⟨hneeded, ht⟩
  cases stage with
  | slot =>
    unfold Reader.answered
    dsimp only
    split
    · exact resyncFailed_sound h resume eproto
    · exact hgoes _
  | ids info => exact hgoes _
  | xs info ids => exact hgoes _
  | ys info ids xs =>
    obtain ⟨hclear, htime⟩ := h.clear hneeded
    have hsnap (ys : List Int) : Sound P ({ r with
        input := resyncDriver info ids xs ys r.resyncTime r.input }.resyncSucceeded resume) := by
      refine resyncSucceeded_sound ?_ (resyncDriver_stamped h.stamped info ids xs ys htime) ht
      exact (resyncDriver_discarding info ids xs ys r.resyncTime r.input).trans hclear.following
    exact hsnap _

theorem answered_keeps {r : Reader F D} (h : Sound P r) {stage : Stage} {resume : Resume D}
    (hpc : r.pc = .resync stage resume) (device : Device D) : Keeps r (r.answered device stage resume) := by
  obtain ⟨hneeded, _⟩ := h.owed stage resume hpc
  cases stage with
  | slot =>
    unfold Reader.answered
    dsimp only
    split
    · exact .of_input (resyncFailed_input r resume eproto)
    · exact .of_input rfl
  | ids info => exact .of_input rfl
  | xs info ids => exact .of_input rfl
  | ys info ids xs =>
    obtain ⟨hclear, _⟩ := h.clear hneeded
    have hsnap (ys : List Int) : Keeps r ({ r with
        input := resyncDriver info ids xs ys r.resyncTime r.input }.resyncSucceeded resume) := by
      intro handed hb
      have hbalanced := resyncDriver_balanced hclear hb info ids xs ys r.resyncTime
      have hd := (resyncDriver_discarding info ids xs ys r.resyncTime r.input).trans hclear.following
      have hsucceeded : Keeps { r with input := resyncDriver info ids xs ys r.resyncTime r.input } _ :=
        resyncSucceeded_keeps hd resume
      exact hsucceeded handed hbalanced
    exact hsnap _

end Readers

section Descriptors
variable {word : Nat} {s t : Descriptor F D}

/-- Everything handed out since `past` is balanced with what waits, and carries the times of records. -/
def Since (P : D → Prop) (past : List (TouchEvent F D)) (s : Descriptor F D) : Prop :=
  ∃ events, s.delivered = past ++ events ∧ Balanced s.reader.input (events ++ s.reader.input.ready) ∧
    ∀ e ∈ events, P e.t

/-- Some of what waits is handed out. -/
structure Draws (s t : Descriptor F D) : Prop where
  drawn : ∃ n, t.reader.input = { s.reader.input with ready := s.reader.input.ready.drop n } ∧
    t.delivered = s.delivered ++ s.reader.input.ready.take n
  needed : t.reader.resyncNeeded = s.reader.resyncNeeded
  time : t.reader.resyncTime = s.reader.resyncTime
  pc : t.reader.pc = .idle ∨ t.reader.pc = s.reader.pc

theorem Draws.sound (h : Draws s t) (hs : Sound P s.reader) : Sound P t.reader := by
  obtain ⟨n, hinput, _⟩ := h.drawn
  refine ⟨?_, ?_, fun hneeded => ?_, fun stage resume hpc => ?_⟩
  · rw [hinput]
    exact ⟨hs.quiet.cleared, hs.quiet.cancels⟩
  · rw [hinput]
    exact ⟨fun e he => hs.stamped.ready e (List.mem_of_mem_drop he), hs.stamped.frame⟩
  · rw [h.needed] at hneeded
    obtain ⟨hclear, htime⟩ := hs.clear hneeded
    rw [hinput, h.time]
    exact ⟨⟨hclear.following, hclear.frame, hclear.slots⟩, htime⟩
  · rcases h.pc with hidle | hsame
    · exact nomatch hidle.symm.trans hpc
    · rw [h.needed]
      exact hs.owed stage resume (hsame ▸ hpc)

theorem Draws.since {past : List (TouchEvent F D)} (h : Draws s t) (hs : Sound P s.reader)
    (hsince : Since P past s) : Since P past t := by
  obtain ⟨n, hinput, hdelivered⟩ := h.drawn
  obtain ⟨events, hpast, hbalanced, htimes⟩ := hsince
  refine ⟨events ++ s.reader.input.ready.take n, by rw [hdelivered, hpast, List.append_assoc], ?_,
    fun e he => ?_⟩
  · rw [hinput]
    dsimp only
    rw [List.append_assoc, List.take_append_drop]
    exact ⟨hbalanced.scanned, hbalanced.cleared, hbalanced.cancels⟩
  · rcases List.mem_append.mp he with he | he
    · exact htimes e he
    · exact hs.stamped.ready e (List.mem_of_mem_take he)

theorem drainReady_eq (ti : TouchInput F D) (out : Bool) (max : Int) : ∃ n,
    (drainReady ti out max).2 = { ti with ready := ti.ready.drop n } ∧
      (drainReady ti out max).1.getD [] = ti.ready.take n := by
  unfold drainReady
  split
  · exact ⟨0, rfl, rfl⟩
  · exact ⟨max.toNat, rfl, rfl⟩

theorem finish_draws (s : Descriptor F D) : Draws s (s.settle s.reader.finish) := by
  obtain ⟨n, hinput, hevents⟩ := drainReady_eq s.reader.input s.reader.out s.reader.max
  unfold Reader.finish
  generalize drainReady s.reader.input s.reader.out s.reader.max = drained at hinput hevents ⊢
  obtain ⟨given, ti⟩ := drained
  dsimp only at hinput hevents ⊢
  cases given with
  | none =>
    refine ⟨⟨n, hinput, ?_⟩, rfl, rfl, .inl rfl⟩
    rw [← hevents]
    rfl
  | some events =>
    dsimp only
    split
    · refine ⟨⟨n, hinput, ?_⟩, rfl, rfl, .inl rfl⟩
      rw [← hevents]
      rfl
    · rename_i hnone
      have hempty : events = [] := by
        simp only [Bool.or_eq_true, decide_eq_true_eq, Bool.not_eq_true', not_or, not_not] at hnone
        exact List.eq_nil_of_length_eq_zero hnone.1
      refine ⟨⟨n, hinput, ?_⟩, rfl, rfl, .inl rfl⟩
      rw [← hevents, hempty]
      rfl

theorem readFailed_draws (s : Descriptor F D) (errno : Int) (hpc : s.reader.pc = .reading) :
    Draws s (s.settle (s.reader.readFailed errno)) := by
  unfold Reader.readFailed
  split
  · exact finish_draws s
  split
  · refine ⟨⟨0, rfl, ?_⟩, rfl, rfl, .inr rfl⟩
    unfold Descriptor.settle handed
    dsimp only
    rw [hpc]
    rfl
  · exact ⟨⟨0, rfl, rfl⟩, rfl, rfl, .inl rfl⟩

theorem drain_draws {out : Bool} {max : Int} : Draws s { s with
    reader := { s.reader with input := (drainReady s.reader.input out max).2 }
    delivered := s.delivered ++ (drainReady s.reader.input out max).1.getD [] } := by
  obtain ⟨n, hinput, hevents⟩ := drainReady_eq s.reader.input out max
  refine ⟨⟨n, hinput, ?_⟩, rfl, rfl, .inr rfl⟩
  rw [hevents]

section Enter
variable {r : Reader F D}

theorem enter_sound (h : Sound P r) (out : Bool) (max : Int) (clock : Option Int) :
    Sound P (r.enter out max clock) := by
  unfold Reader.enter
  split
  · exact ⟨h.quiet, h.stamped, h.clear, nofun⟩
  · refine ⟨h.quiet, h.stamped, h.clear, fun stage resume hpc => ?_⟩
    dsimp only at hpc
    split at hpc
    · rename_i hneeded
      cases hpc
      exact ⟨hneeded, nofun⟩
    · cases hpc

theorem enter_input (out : Bool) (max : Int) (clock : Option Int) :
    (r.enter out max clock).input = r.input := by
  unfold Reader.enter
  split <;> rfl

end Enter

variable [CFloat F] [CFloat D] [CDouble F D]

/-- The record that an answer of the kernel completes. -/
def completed (word : Nat) (s : Descriptor F D) : Action D → Option (TouchRaw D)
  | .read count =>
    let bytes := s.partialBytes ++ s.unread.take count
    if bytes.length = inputEventSize word then some (inputEvent word bytes).raw else none
  | _ => none

/-- Reader by reader: what one action does, apart from handing events out. -/
theorem next_cases {a : Action D} (hs : Sound P s.reader)
    (ht : ∀ raw, completed word s a = some raw → P raw.t) (hnext : s.next word a = some t) :
    Draws s t ∨ (Sound P t.reader ∧ t.delivered = s.delivered ∧
      ((∀ raw, completed word s a = some raw → raw.isSynDropped = true → ¬ CancelPending s.reader.input) →
        Keeps s.reader t.reader)) := by
  cases a with
  | call out max clock =>
    simp only [Descriptor.next] at hnext
    split at hnext
    · cases hnext
      exact .inr ⟨enter_sound hs out max clock, rfl, fun _ => .of_input (enter_input out max clock)⟩
    · cases hnext
  | read count =>
    simp only [Descriptor.next] at hnext
    split at hnext
    · rename_i hpc
      split at hnext
      · cases hnext
        right
        unfold Descriptor.receive
        dsimp only
        unfold completed at ht ⊢
        dsimp only at ht ⊢
        split
        · rename_i hfull
          rw [if_pos hfull] at ht
          refine ⟨processInputEvent_sound hs (ht _ rfl), rfl, fun hok => ?_⟩
          exact processInputEvent_keeps (hok _ rfl)
        · exact ⟨hs, rfl, fun _ => .of_input rfl⟩
      · cases hnext
    · cases hnext
  | ends =>
    simp only [Descriptor.next] at hnext
    split at hnext
    · cases hnext
      exact .inl (finish_draws s)
    · cases hnext
  | readFails errno =>
    simp only [Descriptor.next] at hnext
    split at hnext
    · rename_i hpc
      cases hnext
      exact .inl (readFailed_draws s errno hpc)
    · cases hnext
  | answer device =>
    simp only [Descriptor.next] at hnext
    split at hnext
    · rename_i stage resume hpc
      cases hnext
      exact .inr ⟨answered_sound hs hpc device, rfl, fun _ => answered_keeps hs hpc device⟩
    · cases hnext
  | refuse errno =>
    simp only [Descriptor.next] at hnext
    split at hnext
    · rename_i stage resume hpc
      cases hnext
      exact .inr ⟨resyncFailed_sound hs resume errno, rfl,
        fun _ => .of_input (resyncFailed_input s.reader resume errno)⟩
    · cases hnext
  | drain out max =>
    simp only [Descriptor.next] at hnext
    split at hnext
    · cases hnext
      left
      unfold touchInputFeed
      rw [List.foldl_nil]
      exact drain_draws
    · cases hnext

theorem next_sound {a : Action D} (hs : Sound P s.reader)
    (ht : ∀ raw, completed word s a = some raw → P raw.t) (hnext : s.next word a = some t) :
    Sound P t.reader := by
  rcases next_cases hs ht hnext with hdraws | ⟨hsound, _⟩
  · exact hdraws.sound hs
  · exact hsound

/-- No loss may be reported while the cancellations of an earlier one wait. -/
theorem next_since {past : List (TouchEvent F D)} {a : Action D} (hs : Sound P s.reader)
    (ht : ∀ raw, completed word s a = some raw → P raw.t)
    (hok : ∀ raw, completed word s a = some raw → raw.isSynDropped = true →
      ¬ CancelPending s.reader.input)
    (hnext : s.next word a = some t) (hsince : Since P past s) : Since P past t := by
  rcases next_cases hs ht hnext with hdraws | ⟨_, hdelivered, hkeeps⟩
  · exact hdraws.since hs hsince
  · obtain ⟨events, hpast, hbalanced, htimes⟩ := hsince
    exact ⟨events, hdelivered.trans hpast, hkeeps hok events hbalanced, htimes⟩

end Descriptors

section Expiry
variable [CFloat F] [CFloat D]

theorem expireSlot_idle {ti : TouchInput F D} {i : Fin touchMaxSlots} (now : D)
    (h : (ti.slot i).announced = false ∧ (ti.slot i).active = false) : expireSlot now ti i = ti := by
  have hidle : (!(ti.slot i).active && !(ti.slot i).announced) = true := by
    rw [h.1, h.2]
    rfl
  unfold expireSlot
  dsimp only
  rw [if_pos (by rw [hidle]; rfl)]

theorem expire_idle {ti : TouchInput F D} (now : D) (slots : List (Fin touchMaxSlots))
    (h : ∀ i, (ti.slot i).announced = false ∧ (ti.slot i).active = false) :
    slots.foldl (expireSlot now) ti = ti := by
  induction slots with
  | nil => rfl
  | cons i rest ih => rw [List.foldl_cons, expireSlot_idle now (h i), ih]

theorem expire_discarding (ti : TouchInput F D) (now : D) (slots : List (Fin touchMaxSlots)) :
    (slots.foldl (expireSlot now) ti).discarding = ti.discarding := by
  induction slots generalizing ti with
  | nil => rfl
  | cons i rest ih =>
    rw [List.foldl_cons, ih]
    unfold expireSlot
    dsimp only
    split
    · rfl
    · rw [setSlot_discarding]
      split <;> rfl

theorem expire_stamped {ti : TouchInput F D} (h : Stamped P ti) {now : D} (hnow : P now)
    (slots : List (Fin touchMaxSlots)) : Stamped P (slots.foldl (expireSlot now) ti) := by
  induction slots generalizing ti with
  | nil => exact h
  | cons i rest ih => exact ih (expireSlot_stamped h hnow i)

theorem expire_sound {r : Reader F D} (h : Sound P r) {now : D} (hnow : P now) (slots : List (Fin touchMaxSlots)) :
    Sound P { r with input := slots.foldl (expireSlot now) r.input } := by
  refine ⟨?_, expire_stamped h.stamped hnow slots, fun hneeded => ?_, h.owed⟩
  · cases hd : r.input.discarding with
    | false => exact quiet_of_following ((expire_discarding r.input now slots).trans hd)
    | true =>
      dsimp only
      rw [expire_idle now slots (h.quiet.cleared hd)]
      exact h.quiet
  · dsimp only
    rw [expire_idle now slots (h.clear hneeded).1.slots]
    exact h.clear hneeded

theorem expire_since {s : Descriptor F D} {past : List (TouchEvent F D)} (now : D)
    (slots : List (Fin touchMaxSlots)) (h : Since P past s) :
    Since P past { s with reader := { s.reader with input := slots.foldl (expireSlot now) s.reader.input } } := by
  obtain ⟨events, hpast, hbalanced, htimes⟩ := h
  exact ⟨events, hpast, expire_balanced now slots hbalanced, htimes⟩

end Expiry

end Taq102.Touch.Epoch
