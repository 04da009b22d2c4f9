import Taq102.Touch.Reading

/-! The mapping of controller units to pixels: whatever a descriptor reads, it changes with a turn of
the picture alone. -/
namespace Taq102.Touch.Mapping
open Taq102.Lib CFloat Transition Evdev Reading
variable {F D : Type}

/-- What decides where a touch is put. -/
def mapping (ti : TouchInput F D) : TouchFlip F × Bool := (ti.flip, ti.flipped)

theorem publishFrame_mapping (ti : TouchInput F D) : mapping (publishFrame ti) = mapping ti := by
  unfold publishFrame
  split <;> rfl

theorem drainReady_mapping (ti : TouchInput F D) (out : Bool) (max : Int) :
    mapping (drainReady ti out max).2 = mapping ti := by
  unfold drainReady
  split <;> rfl

section Decoder
variable [CFloat F]

theorem handleTrackingId_mapping (ti : TouchInput F D) (value : Int) (t : D) :
    mapping (handleTrackingId ti value t) = mapping ti := by
  cases hi : selectedSlot ti.currentSlot with
  | none =>
    unfold handleTrackingId
    rw [hi]
  | some i =>
    apply handleTrackingId_cases (P := fun ti' => mapping ti' = mapping ti) ti hi value t
    case quiet => exact fun _ => rfl
    case lift =>
      rintro _ _ ti' rfl
      rfl
    case land =>
      intro _ _
      unfold landed
      dsimp only
      split <;> rfl

variable [CFloat D]

theorem handlePosition_mapping [CDouble F D] (ti : TouchInput F D) (code : Nat) (value : Int) (t : D) :
    mapping (handlePosition ti code value t) = mapping ti := by
  cases hi : selectedSlot ti.currentSlot with
  | none =>
    unfold handlePosition
    rw [hi]
  | some i =>
    apply handlePosition_cases (P := fun ti' => mapping ti' = mapping ti) ti hi code value t
    case quiet => exact fun _ => rfl
    case place =>
      rintro _ spoken slot rfl _
      exact ⟨fun _ _ _ => rfl, fun _ => rfl⟩

theorem feedOne_mapping [CDouble F D] (ti : TouchInput F D) (raw : TouchRaw D) :
    mapping (feedOne ti raw) = mapping ti := by
  apply feedOne_cases (P := fun ti' => mapping ti' = mapping ti)
  case drop =>
    intro _
    rw [cancelActiveToFrame_eq]
    rfl
  case report => exact fun _ _ => publishFrame_mapping _
  case skip => exact fun _ _ _ => rfl
  case other => exact fun _ _ _ _ => rfl
  case select => exact fun _ _ _ => rfl
  case track => exact fun _ _ _ => handleTrackingId_mapping _ _ _
  case place => exact fun _ _ _ => handlePosition_mapping _ _ _ _

theorem expire_mapping (ti : TouchInput F D) (now : D) (slots : List (Fin touchMaxSlots)) :
    mapping (slots.foldl (expireSlot now) ti) = mapping ti := by
  induction slots generalizing ti with
  | nil => rfl
  | cons i rest ih =>
    rw [List.foldl_cons, ih]
    unfold expireSlot
    dsimp only
    split
    · rfl
    · split <;> rfl

theorem resyncDriver_mapping (info : SlotInfo) (ids xs ys : List Int) (t : D) (ti : TouchInput F D) :
    mapping (resyncDriver info ids xs ys t ti) = mapping ti := by
  have hslot (ti : TouchInput F D) (i : Nat) : mapping (resyncSlot info ids xs ys t ti i) = mapping ti := by
    unfold resyncSlot
    split
    · rfl
    · split <;> rfl
  have hall (indices : List Nat) (ti : TouchInput F D) :
      mapping (indices.foldl (resyncSlot info ids xs ys t) ti) = mapping ti := by
    induction indices generalizing ti with
    | nil => rfl
    | cons i rest ih => exact (ih _).trans (hslot ti i)
  exact hall _ _

/-- A turn puts the touches where the picture is. -/
theorem setFlipped_mapping (ti : TouchInput F D) (flipped : Bool) :
    mapping (touchInputSetFlipped ti flipped) = (ti.flip, flipped) := by
  unfold touchInputSetFlipped
  split
  · rename_i hsame
    rw [← hsame]
    rfl
  · rw [cancelActiveToReady_eq]
    rfl

theorem cancelAll_mapping (ti : TouchInput F D) (out : Bool) (max : Int) :
    mapping (touchInputCancelAll ti out max).2 = mapping ti := by
  unfold touchInputCancelAll
  rw [drainReady_mapping, cancelActiveToReady_eq]
  rfl

end Decoder

section Descriptors
variable [CFloat F] [CFloat D] [CDouble F D] {word : Nat} {s t : Descriptor F D}

theorem feedRecord_mapping (r : Reader F D) (raw : TouchRaw D) :
    mapping (r.feedRecord raw).input = mapping r.input := by
  have hfed := feedOne_mapping r.input raw
  unfold Reader.feedRecord
  dsimp only
  split <;> exact hfed

theorem resyncSucceeded_mapping (r : Reader F D) (resume : Resume D) :
    mapping (r.resyncSucceeded resume).input = mapping r.input := by
  unfold Reader.resyncSucceeded
  cases resume with
  | entry => rfl
  | before event => exact feedRecord_mapping _ _
  | after => rfl

omit [CFloat F] [CFloat D] [CDouble F D] in
theorem resyncFailed_mapping (r : Reader F D) (resume : Resume D) (errno : Int) :
    mapping (r.resyncFailed resume errno).input = mapping r.input := by
  cases resume <;> rfl

theorem answered_mapping (r : Reader F D) (device : Device D) (stage : Stage) (resume : Resume D) :
    mapping (r.answered device stage resume).input = mapping r.input := by
  cases stage with
  | slot =>
    unfold Reader.answered
    dsimp only
    split
    · exact resyncFailed_mapping _ _ _
    · rfl
  | ids info => rfl
  | xs info ids => rfl
  | ys info ids xs => exact (resyncSucceeded_mapping _ _).trans (resyncDriver_mapping _ _ _ _ _ _)

omit [CFloat F] [CFloat D] [CDouble F D] in
theorem finish_mapping (r : Reader F D) : mapping r.finish.input = mapping r.input := by
  have hdrained := drainReady_mapping r.input r.out r.max
  unfold Reader.finish
  generalize drainReady r.input r.out r.max = drained at hdrained ⊢
  obtain ⟨given, ti⟩ := drained
  cases given with
  | none => exact hdrained
  | some events =>
    dsimp only
    split <;> exact hdrained

/-- One call, or one answer of the kernel. -/
theorem next_mapping {a : Action D} (hnext : s.next word a = some t) :
    mapping t.reader.input = mapping s.reader.input := by
  cases a with
  | call out max clock =>
    simp only [Descriptor.next] at hnext
    split at hnext
    · cases hnext
      unfold Reader.enter
      split <;> rfl
    · cases hnext
  | read count =>
    simp only [Descriptor.next] at hnext
    split at hnext
    · split at hnext
      · cases hnext
        unfold Descriptor.receive
        dsimp only
        split
        · unfold Reader.processInputEvent
          split
          · rfl
          · exact feedRecord_mapping _ _
        · rfl
      · cases hnext
    · cases hnext
  | ends =>
    simp only [Descriptor.next] at hnext
    split at hnext
    · cases hnext
      exact finish_mapping s.reader
    · cases hnext
  | readFails errno =>
    simp only [Descriptor.next] at hnext
    split at hnext
    · cases hnext
      unfold Descriptor.settle Reader.readFailed
      dsimp only
      split
      · exact finish_mapping s.reader
      · split <;> rfl
    · cases hnext
  | answer device =>
    simp only [Descriptor.next] at hnext
    split at hnext
    · cases hnext
      exact answered_mapping _ _ _ _
    · cases hnext
  | refuse errno =>
    simp only [Descriptor.next] at hnext
    split at hnext
    · cases hnext
      exact resyncFailed_mapping _ _ _
    · cases hnext
  | drain out max =>
    simp only [Descriptor.next] at hnext
    split at hnext
    · cases hnext
      unfold touchInputFeed
      rw [List.foldl_nil]
      exact drainReady_mapping _ _ _
    · cases hnext

theorem run_mapping {actions : List (Action D)} (hrun : actions.foldlM (Descriptor.next word) s = some t) :
    mapping t.reader.input = mapping s.reader.input :=
  (run_foldlM _ hrun).invariant (fun u => mapping u.reader.input = mapping s.reader.input) rfl
    fun _ _ _ hu hnext => (next_mapping hnext).trans hu

end Descriptors

end Taq102.Touch.Mapping
