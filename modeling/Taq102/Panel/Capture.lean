import Taq102.Lib.Transition
import Taq102.Panel.Model

/-! A captured contact is let go when it ends, as long as its end arrives while the panel is on
screen; so a panel without contacts captures the next one. -/
namespace Taq102.Panel.Capturing
open Taq102.Lib CFloat Transition
open Touch (TouchEvent TouchKind)
variable {F D : Type}

/-- No contact is captured and none drags the slider. -/
def Released (m : CcModel F) : Prop := m.captureSlot = -1 ∧ m.draggingBrightness = 0

/-- The calls on a model, and the reset of the input it is fed from. -/
inductive InputOp (F D : Type) where
  | panel (op : PanelOp F D)
  | reset

structure Entry (F D : Type) where
  before : CcModel F
  op : InputOp F D
  answer : Except Nat (List CcResult)

/-- The event a call took. -/
def Entry.taken (r : Entry F D) : Option (TouchEvent F D) :=
  match r.op, r.answer with
  | .panel (.handle e _ _ _), .ok _ => some e
  | _, _ => none

def isLift (kind : TouchKind) : Bool := kind == .up || kind == .cancel

/-- A model in use, with the calls made on it and the resets. -/
structure Input (F D : Type) where
  model : CcModel F
  past : List (Entry F D)

def Input.start (m : CcModel F) : Input F D := { model := m, past := [] }

theorem released_release (m : CcModel F) : Released (release m) := ⟨rfl, rfl⟩

theorem disarm_capture (m : CcModel F) : (disarm m).captureSlot = m.captureSlot ∧
    (disarm m).draggingBrightness = m.draggingBrightness := by
  unfold disarm
  split <;> exact ⟨rfl, rfl⟩

theorem brightness_capture (m : CcModel F) (now : Int) :
    (brightness m now).2.captureSlot = m.captureSlot ∧
      (brightness m now).2.draggingBrightness = m.draggingBrightness := by
  unfold brightness
  split <;> exact ⟨rfl, rfl⟩

variable [CFloat F]

/-- What `control_input_reset` does to the panel. -/
def controlInputReset [CFloat D] [CDouble F D] (m : CcModel F) : CcModel F :=
  let cancel : TouchEvent F D :=
    { kind := .cancel, slot := m.captureSlot, x := lit 0, y := lit 0, t := lit 0 }
  let m := if 0 ≤ m.captureSlot then (ccHandleEvent m cancel 0 true 3).2 else m
  { m with armed := 0, dirty := 1 }

/-- Whether a contact is down on a slot after one more entry. -/
def touch (slot : Int) (isDown : Bool) (r : Entry F D) : Bool :=
  match r.op, r.taken with
  | .reset, _ => false
  | _, some e =>
    if e.slot ≠ slot then isDown
    else if e.kind = .down then true
    else if isLift e.kind && isFinite e.x && isFinite e.y then false
    else isDown
  | _, none => isDown

def touching (past : List (Entry F D)) (slot : Int) : Bool := past.foldl (touch slot) false

theorem ccClose_released (m : CcModel F) (now : Int) : Released (ccClose m now) := by
  unfold ccClose
  simp only
  split
  · exact released_release _
  · exact ⟨rfl, rfl⟩

/-- A captured slot has a contact down on it, and only a captured contact drags the slider. -/
structure Tracks (m : CcModel F) (past : List (Entry F D)) : Prop where
  slot : m.captureSlot = -1 ∨ 0 ≤ m.captureSlot
  drag : m.draggingBrightness ≠ 0 → 0 ≤ m.captureSlot
  down : 0 ≤ m.captureSlot → touching past m.captureSlot = true

theorem Released.tracks {m : CcModel F} (h : Released m) (past : List (Entry F D)) : Tracks m past := by
  obtain ⟨hslot, hdrag⟩ := h
  refine ⟨.inl hslot, fun hd => absurd hdrag hd, fun hs => ?_⟩
  omega

theorem Tracks.released {m : CcModel F} {past : List (Entry F D)} (h : Tracks m past)
    (hnone : ∀ slot, touching past slot = false) : Released m := by
  have hfree : ¬ 0 ≤ m.captureSlot := by
    intro hs
    have hdown := h.down hs
    rw [hnone] at hdown
    cases hdown
  refine ⟨h.slot.resolve_right hfree, ?_⟩
  by_contra hd
  exact hfree (h.drag hd)

theorem Tracks.keep {m m' : CcModel F} {past : List (Entry F D)} {r : Entry F D} (h : Tracks m past)
    (hslot : m'.captureSlot = m.captureSlot) (hdrag : m'.draggingBrightness = m.draggingBrightness)
    (hdown : 0 ≤ m.captureSlot → touch m.captureSlot true r = true) : Tracks m' (past ++ [r]) := by
  refine ⟨by rw [hslot]; exact h.slot, by rw [hslot, hdrag]; exact h.drag, fun hs => ?_⟩
  rw [hslot] at hs ⊢
  unfold touching
  rw [List.foldl_append, List.foldl_cons, List.foldl_nil]
  have hbefore : past.foldl (touch m.captureSlot) false = true := h.down hs
  rw [hbefore]
  exact hdown hs

section Handle
variable [CFloat D] [CDouble F D]

def Input.call (s : Input F D) : InputOp F D → Input F D
  | .panel op =>
    { model := (perform s.model op).2
      past := s.past ++ [{ before := s.model, op := .panel op, answer := (perform s.model op).1 }] }
  | .reset =>
    { model := controlInputReset (D := D) s.model
      past := s.past ++ [{ before := s.model, op := .reset, answer := .ok [] }] }

/-- The entry ends the captured contact: its UP or CANCEL at a finite position, or a reset. -/
def EndsCapture (r : Entry F D) : Prop :=
  r.op = .reset ∨ ∃ e, r.taken = some e ∧ Owns r.before e ∧ isLift e.kind = true ∧
    isFinite e.x = true ∧ isFinite e.y = true

/-- A captured contact is let go when it ends, and with no contact down the next one that lands
on a visible panel is captured. -/
structure CaptureFollows (s : Input F D) : Prop where
  ended : ∀ earlier r, s.past = earlier ++ [r] → EndsCapture r → Released s.model
  next : (∀ slot, touching s.past slot = false) → ∀ (e : TouchEvent F D) now out max actions,
    e.kind = .down → Sees s.model e → (ccHandleEvent s.model e now out max).1 = .ok actions →
    (ccHandleEvent s.model e now out max).2.captureSlot = e.slot

/-- Slots are 0 to 9. -/
def SlotInRange : InputOp F D → Prop
  | .panel (.handle e _ _ _) => 0 ≤ e.slot ∧ e.slot < Touch.touchMaxSlots
  | _ => True

/-- The captured contact ends, or is reset, while the panel is on screen. -/
def EndsVisible (s : Input F D) : InputOp F D → Prop
  | .panel (.handle e _ _ _) => Owns s.model e → isLift e.kind = true → isFinite e.x = true →
      isFinite e.y = true → ccVisible s.model = true
  | .reset => 0 ≤ s.model.captureSlot → ccVisible s.model = true
  | _ => True

/-- A lift at a finite position lets the captured contact go exactly when the panel sees it. -/
theorem handle_lift_released {m : CcModel F} {e : TouchEvent F D} (now : Int) (hown : Owns m e)
    (hlift : isLift e.kind = true) (hx : isFinite e.x = true) (hy : isFinite e.y = true) :
    Released (handle m e now).2 ↔ ccVisible m = true := by
  constructor
  · intro hr
    by_contra hv
    have hsame : handle m e now = ([], m) := by
      unfold handle
      rw [if_pos (.inl hv)]
    rw [hsame] at hr
    have hslot : m.captureSlot = -1 := hr.1
    have hcap := hown.1
    omega
  · intro hv
    have hs : Sees m e := ⟨hv, hx, hy⟩
    have hup : e.kind = .up ∨ e.kind = .cancel := by simpa [isLift] using hlift
    apply handle_cases (P := fun next => Released next.2)
    case unseen => exact fun hn => absurd hs hn
    case busy | press => exact fun _ hk => by simp [hk] at hup
    case stray => exact fun _ _ hn => absurd hown hn
    case cancel => exact fun _ _ _ => released_release m
    case drag =>
      intro _ _ hk _
      have hkind : e.kind = .up := by
        rcases hk with hk | hk
        · simp [hk] at hup
        · exact hk
      unfold handleDrag
      simp only [hkind, true_or, if_true]
      exact released_release _
    case swipe => exact fun _ _ _ _ => ccClose_released m now
    case hold => exact fun _ _ hk => by simp [hk] at hup
    case lift =>
      intro _ _ _ _
      unfold handleUp
      simp only
      split
      · exact ccClose_released _ _
      split
      · exact released_release _
      · unfold tapTile
        cases m.captureTile with
        | off => exact ccClose_released _ _
        | rescue | loader =>
          unfold tapReboot
          simp only
          split
          · obtain ⟨hslot, hdrag⟩ := disarm_capture (release m)
            exact ⟨hslot, hdrag⟩
          · exact ⟨rfl, rfl⟩
        | none | handle | wifi | bright | auto | timer i | outside => exact ⟨rfl, rfl⟩

theorem handleDown_captureSlot (m : CcModel F) (e : TouchEvent F D) (now : Int) :
    (handleDown m e now).2.captureSlot = e.slot := by
  unfold handleDown
  simp only
  split
  · rfl
  · rw [(brightness_capture _ now).1]
    split <;> rfl

/-- One event the panel takes keeps the captured slot on a contact. -/
theorem handle_tracks {m : CcModel F} {past : List (Entry F D)} {e : TouchEvent F D} {now : Int}
    {out : Bool} {max : Int} (h : Tracks m past) (hrange : 0 ≤ e.slot)
    (hvisible : Owns m e → isLift e.kind = true → isFinite e.x = true → isFinite e.y = true →
      ccVisible m = true) (actions : List CcResult) :
    Tracks (handle m e now).2 (past ++ [⟨m, .panel (.handle e now out max), .ok actions⟩]) := by
  by_cases hends : Owns m e ∧ isLift e.kind = true ∧ isFinite e.x = true ∧ isFinite e.y = true
  · obtain ⟨hown, hlift, hx, hy⟩ := hends
    exact ((handle_lift_released now hown hlift hx hy).mpr (hvisible hown hlift hx hy)).tracks _
  obtain ⟨r, hr⟩ : ∃ r : Entry F D, r = ⟨m, .panel (.handle e now out max), .ok actions⟩ := ⟨_, rfl⟩
  rw [← hr]
  have htouch : 0 ≤ m.captureSlot → touch m.captureSlot true r = true := by
    intro hs
    rw [hr]
    unfold touch Entry.taken
    simp only
    split
    · rfl
    rename_i hslot
    split
    · rfl
    split
    · rename_i hfinite
      simp only [Bool.and_eq_true] at hfinite
      exact absurd ⟨⟨hs, not_not.mp hslot⟩, hfinite.1.1, hfinite.1.2, hfinite.2⟩ hends
    · rfl
  have hnolift (hs : Sees m e) (ho : Owns m e) (hk : e.kind = .move ∨ e.kind = .up) : e.kind = .move := by
    rcases hk with hk | hk
    · exact hk
    · exact absurd ⟨ho, by simp [hk, isLift], hs.2.1, hs.2.2⟩ hends
  apply handle_cases (P := fun next => Tracks next.2 (past ++ [r]))
  case unseen => exact fun _ => h.keep rfl rfl htouch
  case busy => exact fun _ _ _ => h.keep rfl rfl htouch
  case press =>
    intro _ hk _
    have hslot := handleDown_captureSlot m e now
    refine ⟨.inr (by omega), fun _ => by omega, fun _ => ?_⟩
    unfold touching
    rw [List.foldl_append, List.foldl_cons, List.foldl_nil, hslot]
    simp [hr, touch, Entry.taken, hk]
  case stray => exact fun _ _ _ => h.keep rfl rfl htouch
  case cancel => exact fun _ _ _ => (released_release m).tracks _
  case drag =>
    intro hs ho hk _
    have hmove := hnolift hs ho hk
    unfold handleDrag
    simp only [hmove, reduceCtorEq, false_or, if_false]
    split
    · obtain ⟨hslot, hdrag⟩ := brightness_capture { m with pendingBrightness := level m e.y } now
      exact h.keep hslot hdrag htouch
    · exact h.keep rfl rfl htouch
  case swipe => exact fun _ _ _ _ => (ccClose_released m now).tracks _
  case hold => exact fun _ _ _ => h.keep rfl rfl htouch
  case lift =>
    intro hs ho hk _
    exact absurd (hnolift hs ho (.inr hk)) (by simp [hk])

/-- A reset lets go of a captured contact that the panel sees. -/
theorem controlInputReset_released {m : CcModel F} {past : List (Entry F D)} (h : Tracks m past)
    (hvisible : 0 ≤ m.captureSlot → ccVisible m = true) :
    Released (controlInputReset (D := D) m) := by
  have hfinite : isFinite (lit 0 : F) = true := isFinite_zero
  unfold controlInputReset
  simp only
  split
  · rename_i hs
    have hcancel := (handle_lift_released (m := m) (e := (⟨.cancel, m.captureSlot, lit 0, lit 0, lit 0⟩ :
      TouchEvent F D)) 0 ⟨hs, rfl⟩ rfl hfinite hfinite).mpr (hvisible hs)
    have hnone : handle m (⟨.cancel, m.captureSlot, lit 0, lit 0, lit 0⟩ : TouchEvent F D) 0 =
        ([], release m) := by
      unfold handle
      simp [hvisible hs, hfinite, hs]
    unfold ccHandleEvent
    rw [hnone]
    exact ⟨rfl, rfl⟩
  · rename_i hs
    refine ⟨h.slot.resolve_right hs, ?_⟩
    by_contra hd
    exact hs (h.drag hd)

theorem call_tracks {s : Input F D} (op : InputOp F D) (h : Tracks s.model s.past)
    (hrange : SlotInRange op) (hvisible : EndsVisible s op) :
    Tracks (s.call op).model (s.call op).past := by
  cases op with
  | reset => exact (controlInputReset_released h hvisible).tracks _
  | panel op =>
    have hidle {m' : CcModel F} {op : PanelOp F D} {answer : Except Nat (List CcResult)}
        (hslot : m'.captureSlot = s.model.captureSlot)
        (hdrag : m'.draggingBrightness = s.model.draggingBrightness)
        (hnone : Entry.taken ⟨s.model, .panel op, answer⟩ = none) :
        Tracks m' (s.past ++ [⟨s.model, .panel op, answer⟩]) := by
      refine h.keep hslot hdrag fun _ => ?_
      unfold touch
      simp [hnone]
    cases op with
    | «open» now =>
      unfold Input.call perform ccOpen
      simp only
      split
      · exact hidle rfl rfl rfl
      · exact hidle rfl rfl rfl
    | close now => exact (ccClose_released s.model now).tracks _
    | tick now =>
      unfold Input.call perform ccTick
      simp only
      split
      · obtain ⟨hslot, hdrag⟩ := disarm_capture (slideTick s.model now)
        exact hidle hslot hdrag rfl
      · exact hidle rfl rfl rfl
    | handle e now out max =>
      unfold Input.call perform ccHandleEvent
      simp only
      split
      · exact hidle rfl rfl rfl
      · exact handle_tracks h hrange.1 hvisible _

theorem call_released {s : Input F D} (op : InputOp F D) (h : Tracks s.model s.past)
    (hvisible : EndsVisible s op) {earlier : List (Entry F D)} {r : Entry F D}
    (hpast : (s.call op).past = earlier ++ [r]) (hends : EndsCapture r) :
    Released (s.call op).model := by
  cases op with
  | reset => exact controlInputReset_released h hvisible
  | panel op =>
    obtain ⟨_, hr⟩ := List.append_inj' hpast rfl
    obtain rfl := (List.cons.inj hr).1
    rcases hends with hreset | ⟨e, htaken, hown, hlift, hx, hy⟩
    · cases hreset
    cases op with
    | «open» now => cases htaken
    | close now => cases htaken
    | tick now => cases htaken
    | handle e' now out max =>
      unfold Input.call perform ccHandleEvent at *
      simp only at *
      split
      · rename_i hroom
        simp [Entry.taken, hroom] at htaken
      · rename_i hroom
        obtain rfl : e' = e := by simpa [Entry.taken, hroom] using htaken
        exact (handle_lift_released now hown hlift hx hy).mpr (hvisible hown hlift hx hy)

/-- In every run whose captured contacts end, and are reset, while the panel is on screen,
captures follow the contacts. -/
theorem capture_follows_contacts (bright maximum automatic minutes : Int) (ops : List (InputOp F D))
    (s : Input F D) (h : Run (Guarded (Fires Input.call) fun s op => SlotInRange op ∧ EndsVisible s op)
      (Input.start (ccInit bright maximum automatic minutes)) ops s) : CaptureFollows s := by
  have hinv := h.invariant (fun s => Tracks s.model s.past ∧
      ∀ earlier r, s.past = earlier ++ [r] → EndsCapture r → Released s.model) ?_ ?_
  · refine ⟨hinv.2, fun hnone e now out max actions hk hs hanswer => ?_⟩
    have hfree : s.model.captureSlot = -1 := (hinv.1.released hnone).1
    have hdown : handle s.model e now = handleDown s.model e now := by
      unfold handle
      simp [hs.1, hs.2.1, hs.2.2, hk, hfree]
    unfold ccHandleEvent at hanswer ⊢
    simp only at hanswer ⊢
    split at hanswer
    · cases hanswer
    · rename_i hroom
      rw [if_neg hroom, hdown]
      exact handleDown_captureSlot s.model e now
  · refine ⟨Released.tracks ⟨rfl, rfl⟩ _, fun earlier r hpast => ?_⟩
    simp [Input.start] at hpast
  · rintro t op _ ⟨htracks, _⟩ ⟨⟨hrange, hvisible⟩, rfl⟩
    exact ⟨call_tracks op htracks hrange hvisible, fun earlier r hpast hends =>
      call_released op htracks hvisible hpast hends⟩

end Handle

def openPanel : Input ℚ ℚ := Input.start (ccInit 200 255 1 5)

/-- A contact on Rescue ends in the open panel, another is reset. -/
def seenLifts : List (InputOp ℚ ℚ) :=
  [.panel (.open 0), .panel (.tick 200), .panel (.handle ⟨.down, 0, 850, 250, 0⟩ 300 true 3),
    .panel (.handle ⟨.up, 0, 850, 250, 0⟩ 350 true 3),
    .panel (.handle ⟨.down, 1, 850, 250, 0⟩ 400 true 3), .reset]

theorem seen_lifts_followed : CaptureFollows (seenLifts.foldl Input.call openPanel) := by
  refine capture_follows_contacts 200 255 1 5 _ _ (run_guarded_foldl ?_)
  refine ⟨⟨trivial, trivial⟩, ⟨trivial, trivial⟩, ⟨⟨by decide, by decide⟩, fun _ _ _ _ => ?_⟩,
    ⟨⟨by decide, by decide⟩, fun _ _ _ _ => ?_⟩, ⟨⟨by decide, by decide⟩, fun _ _ _ _ => ?_⟩, ⟨trivial, fun _ => ?_⟩, trivial⟩ <;>
    decide +kernel

/-- A contact lands while the panel slides shut, and the slide ends. -/
def slidShut : List (InputOp ℚ ℚ) :=
  [.panel (.open 0), .panel (.tick 200), .panel (.close 300), .panel (.tick 310),
    .panel (.handle ⟨.down, 0, 850, 250, 0⟩ 310 true 3), .panel (.tick 600)]

def unseenLift : InputOp ℚ ℚ := .panel (.handle ⟨.up, 0, 850, 250, 0⟩ 600 true 3)

/-- The capture outlives the contact that ends after the slide. -/
theorem unseen_lift_stuck : ∃ s : Input ℚ ℚ,
    Run (Guarded (Fires Input.call) fun _ op => SlotInRange op) openPanel (slidShut ++ [unseenLift]) s ∧
      ¬ CaptureFollows s := by
  have hrange : Admits Input.call (fun _ op => SlotInRange op) openPanel (slidShut ++ [unseenLift]) :=
    ⟨trivial, trivial, trivial, trivial, ⟨by decide, by decide⟩, trivial, ⟨by decide, by decide⟩, trivial⟩
  refine ⟨_, run_guarded_foldl hrange, fun h => ?_⟩
  rw [List.foldl_append, List.foldl_cons, List.foldl_nil] at h
  have hheld : (slidShut.foldl Input.call openPanel).model.captureSlot = 0 := by decide +kernel
  have htaken : Entry.taken ⟨(slidShut.foldl Input.call openPanel).model, unseenLift,
      (perform (slidShut.foldl Input.call openPanel).model
        (.handle ⟨.up, 0, 850, 250, 0⟩ 600 true 3)).1⟩ = some ⟨.up, 0, 850, 250, 0⟩ := by
    decide +kernel
  have hreleased := h.ended _ _ rfl (.inr ⟨_, htaken, ⟨by rw [hheld], hheld.symm⟩, rfl, rfl, rfl⟩)
  have hstuck : ((slidShut.foldl Input.call openPanel).call unseenLift).model.captureSlot = 0 := by
    decide +kernel
  have hfree := hreleased.1
  omega

end Taq102.Panel.Capturing
