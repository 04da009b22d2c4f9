import Mathlib.Tactic.Linarith
import Taq102.Panel.Capture
import Taq102.Panel.Effect

/-! The ranges of the panel's fields in exact arithmetic, and the three actions one event can ask
for at most. -/
namespace Taq102.Panel
open Taq102.Lib CFloat CDouble Transition
open Touch (TouchEvent TouchKind)

section Actions
variable {F D : Type} {m : CcModel F}

theorem brightness_length (now : Int) : (brightness m now).1.length ≤ 1 := by
  rw [brightness]
  split
  · exact Nat.zero_le 1
  · exact Nat.le_refl 1

theorem tapReboot_length (arm : Int) (action : CcAction) (now : Int) :
    (tapReboot m arm action now).1.length ≤ 1 := by
  rw [tapReboot]
  split
  · exact Nat.le_refl 1
  · exact Nat.zero_le 1

variable [CFloat F]

theorem tapTile_length (tile : Capture) (now : Int) : (tapTile m tile now).1.length ≤ 2 := by
  cases tile with
  | rescue => exact (tapReboot_length 1 .rebootRescue now).trans (Nat.le_succ 1)
  | loader => exact (tapReboot_length 2 .rebootLoader now).trans (Nat.le_succ 1)
  | wifi | off => exact Nat.le_succ 1
  | auto | timer i => exact Nat.le_refl 2
  | none | handle | bright | outside => exact Nat.zero_le 2

theorem handleUp_length (e : TouchEvent F D) (now : Int) : (handleUp m e now).1.length ≤ 2 := by
  simp only [handleUp]
  split
  · exact Nat.zero_le 2
  split
  · exact Nat.zero_le 2
  · exact tapTile_length m.captureTile now

variable [CFloat D] [CDouble F D]

omit [CFloat F] in
theorem handleDrag_length (e : TouchEvent F D) (now : Int) : (handleDrag m e now).1.length ≤ 2 := by
  have hset := brightness_length (m := { m with pendingBrightness := level m e.y }) now
  rw [handleDrag]
  dsimp only
  split
  · rename_i hup
    rw [if_pos (Or.inl hup)]
    refine (List.length_append ..).trans_le ?_
    exact Nat.add_le_add_right hset 1
  · split
    · exact hset.trans (Nat.le_succ 1)
    · exact Nat.zero_le 2

theorem handleDown_length (e : TouchEvent F D) (now : Int) : (handleDown m e now).1.length ≤ 2 := by
  rw [handleDown]
  split
  · exact Nat.zero_le 2
  dsimp only
  split
  · refine (List.length_append ..).trans_le ?_
    exact Nat.add_le_add_left (brightness_length now) 1
  · rw [List.nil_append]
    exact (brightness_length now).trans (Nat.le_succ 1)

/-- An event fills no more than two of the three places its buffer has. -/
theorem handle_length (m : CcModel F) (e : TouchEvent F D) (now : Int) :
    (handle m e now).1.length ≤ 2 := by
  apply handle_cases (P := fun next => next.1.length ≤ 2)
  case press => exact fun _ _ _ => handleDown_length e now
  case drag => exact fun _ _ _ _ => handleDrag_length e now
  case lift => exact fun _ _ _ _ => handleUp_length e now
  case unseen => exact fun _ => Nat.zero_le 2
  case busy | stray | cancel | hold => exact fun _ _ _ => Nat.zero_le 2
  case swipe => exact fun _ _ _ _ => Nat.zero_le 2

/-- `cc_handle` with the caller's buffer, which may be missing: the return value, the model and the
buffer. -/
def ccHandleCall (m : CcModel F) (e : TouchEvent F D) (now : Int) (out : Option (List CcResult))
    (max : Int) : Int × CcModel F × Option (List CcResult) :=
  let next := handle m e now
  let n := next.1.length
  if max < n ∨ (n ≠ 0 ∧ out = none) then (-n, m, out)
  else (n, next.2, out.map fun buffer => next.1 ++ buffer.drop n)

/-- The buffer has no room for the actions of the event. -/
def TooSmall (m : CcModel F) (e : TouchEvent F D) (now : Int) (out : Option (List CcResult))
    (max : Int) : Prop :=
  max < (handle m e now).1.length ∨ ((handle m e now).1.length ≠ 0 ∧ out = none)

theorem ccHandleCall_event (m : CcModel F) (e : TouchEvent F D) (now : Int)
    (out : Option (List CcResult)) (max : Int) :
    (ccHandleCall m e now out max).2.1 = (ccHandleEvent m e now out.isSome max).2 := by
  have hsmall : (max < (handle m e now).1.length ∨ ((handle m e now).1.length ≠ 0 ∧ out = none)) ↔
      (max < (handle m e now).1.length ∨ ((handle m e now).1 ≠ [] ∧ out.isSome = false)) := by
    rw [Ne, List.length_eq_zero_iff, Option.isSome_eq_false_iff, Option.isNone_iff_eq_none]
  by_cases h : max < (handle m e now).1.length ∨ ((handle m e now).1.length ≠ 0 ∧ out = none)
  · rw [ccHandleCall, ccHandleEvent, if_pos h, if_pos (hsmall.mp h)]
  · rw [ccHandleCall, ccHandleEvent, if_neg h, if_neg fun h' => h (hsmall.mpr h')]

theorem ccHandleCall_refused {e : TouchEvent F D} {now : Int} {out : Option (List CcResult)} {max : Int}
    (h : TooSmall m e now out max) :
    ccHandleCall m e now out max = (-((handle m e now).1.length : Int), m, out) := if_pos h

theorem ccHandleCall_done {e : TouchEvent F D} {now : Int} {buffer : List CcResult} {max : Int}
    (h : (handle m e now).1.length ≤ max) : ccHandleCall m e now (some buffer) max =
      (((handle m e now).1.length : Int), (handle m e now).2,
        some ((handle m e now).1 ++ buffer.drop (handle m e now).1.length)) := by
  refine if_neg (not_or.mpr ⟨Int.not_lt.mpr h, fun hnone => ?_⟩)
  cases hnone.2

/-- A refused call changes nothing, and repeated with the capacity it asks for it does what a call
with room to spare does. -/
structure Repeatable (m : CcModel F) (e : TouchEvent F D) (now : Int) : Prop where
  room : (handle m e now).1.length ≤ 3
  refused : ∀ out max, TooSmall m e now out max → (ccHandleCall m e now out max).2 = (m, out)
  again : ∀ out max, TooSmall m e now out max → ∀ buffer buffer' ample, 3 ≤ ample →
    let first := ccHandleCall m e now out max
    let second := ccHandleCall first.2.1 e now (some buffer) (-first.1)
    let once := ccHandleCall m e now (some buffer') ample
    second.1 = once.1 ∧ second.2.1 = once.2.1 ∧
      second.2.2.map (·.take second.1.toNat) = once.2.2.map (·.take once.1.toNat)

theorem repeatable (m : CcModel F) (e : TouchEvent F D) (now : Int) : Repeatable m e now := by
  have hroom : (handle m e now).1.length ≤ 3 := (handle_length m e now).trans (Nat.le_succ 2)
  refine ⟨hroom, fun out max hsmall => ?_, fun out max hsmall buffer buffer' ample hample => ?_⟩
  · rw [ccHandleCall_refused hsmall]
  · have hcapacity : (handle m e now).1.length ≤ -(-((handle m e now).1.length : Int)) := by
      rw [Int.neg_neg]
    dsimp only
    rw [ccHandleCall_refused hsmall]
    dsimp only
    have hample' : ((handle m e now).1.length : Int) ≤ ample := by omega
    rw [ccHandleCall_done hcapacity, ccHandleCall_done hample']
    refine ⟨rfl, rfl, congrArg some ?_⟩
    dsimp only
    rw [Int.toNat_natCast, List.take_left, List.take_left]

theorem perform_length (m : CcModel F) (op : PanelOp F D) :
    (Record.mk m op (perform m op).1).actions.length ≤ 3 := by
  cases op with
  | «open» now | close now | tick now => exact Nat.zero_le 3
  | handle e now out max =>
    rw [perform]
    rcases ccHandleEvent_eq m e now out max with hdone | ⟨n, hrefused⟩
    · rw [hdone]
      exact (handle_length m e now).trans (Nat.le_succ 2)
    · rw [hrefused]
      exact Nat.zero_le 3

end Actions

/-- The ranges of the fields in exact arithmetic. -/
structure Ranges (m : CcModel ℚ) : Prop where
  brightness : 8 ≤ m.brightness ∧ m.brightness ≤ m.brightnessMax
  pending : 8 ≤ m.pendingBrightness ∧ m.pendingBrightness ≤ m.brightnessMax
  minutes : m.sleepMinutes = 0 ∨ m.sleepMinutes = 1 ∨ m.sleepMinutes = 5 ∨ m.sleepMinutes = 15
  auto : m.autoOn = 0 ∨ m.autoOn = 1
  «open» : m.open = 0 ∨ m.open = 1
  armed : m.armed = 0 ∨ m.armed = 1 ∨ m.armed = 2
  slide : 0 ≤ m.slide ∧ m.slide ≤ 1
  dragging : m.draggingBrightness ≠ 0 → 0 ≤ m.captureSlot ∧ m.captureTile = .bright

/-- What the calls keep: the ranges, and where the slide started. -/
structure Kept (m : CcModel ℚ) : Prop extends Ranges m where
  slideFrom : 0 ≤ m.slideFrom ∧ m.slideFrom ≤ 1

section Kept
variable {m : CcModel ℚ} {e : TouchEvent ℚ ℚ}

/-- A point between two points of the unit interval. -/
theorem between_mem {a b part : ℚ} (ha : 0 ≤ a ∧ a ≤ 1) (hb : 0 ≤ b ∧ b ≤ 1) (hp : 0 ≤ part ∧ part ≤ 1) :
    0 ≤ a + (b - a) * part ∧ a + (b - a) * part ≤ 1 := by
  have hsplit : a + (b - a) * part = a * (1 - part) + b * part := by ring
  have hrest : 0 ≤ 1 - part := sub_nonneg.mpr hp.2
  have hlow : 0 ≤ a * (1 - part) + b * part :=
    add_nonneg (mul_nonneg ha.1 hrest) (mul_nonneg hb.1 hp.1)
  have hhigh : a * (1 - part) + b * part ≤ 1 * (1 - part) + 1 * part :=
    add_le_add (mul_le_mul_of_nonneg_right ha.2 hrest) (mul_le_mul_of_nonneg_right hb.2 hp.1)
  rw [hsplit]
  exact ⟨hlow, hhigh.trans_eq (by ring)⟩

theorem eased_mem {part : ℚ} (hp : 0 ≤ part ∧ part ≤ 1) :
    0 ≤ 1 - (1 - part) * (1 - part) * (1 - part) ∧
      1 - (1 - part) * (1 - part) * (1 - part) ≤ 1 := by
  have hrest : 0 ≤ 1 - part := sub_nonneg.mpr hp.2
  have hone : 1 - part ≤ 1 := sub_le_self 1 hp.1
  have hsquare : (1 - part) * (1 - part) ≤ 1 := mul_le_one₀ hone hrest hone
  have hcube : (1 - part) * (1 - part) * (1 - part) ≤ 1 := mul_le_one₀ hsquare hrest hone
  have hpos : 0 ≤ (1 - part) * (1 - part) * (1 - part) := mul_nonneg (mul_nonneg hrest hrest) hrest
  exact ⟨sub_nonneg.mpr hcube, sub_le_self 1 hpos⟩

/-- How far the slide has come at a time. -/
def progress (m : CcModel ℚ) (now : Int) : ℚ :=
  if elapsed now m.slideStartMs 180 then 1
  else if m.slideStartMs < now then ((now - m.slideStartMs : Int) : ℚ) / 180
  else 0

theorem progress_mem (m : CcModel ℚ) (now : Int) : 0 ≤ progress m now ∧ progress m now ≤ 1 := by
  rw [progress]
  split
  · exact ⟨zero_le_one, le_refl 1⟩
  rename_i helapsed
  split
  · rename_i hstarted
    have hlow : (0 : ℚ) ≤ ((now - m.slideStartMs : Int) : ℚ) := by
      exact_mod_cast Int.sub_nonneg.mpr (Int.le_of_lt hstarted)
    have hshort : now - m.slideStartMs ≤ 180 := by
      by_contra hlong
      refine helapsed ?_
      rw [elapsed, Bool.and_eq_true, decide_eq_true_eq, decide_eq_true_eq]
      omega
    have hhigh : ((now - m.slideStartMs : Int) : ℚ) ≤ 180 := by exact_mod_cast hshort
    exact ⟨div_nonneg hlow (by norm_num), (div_le_one (by norm_num)).mpr hhigh⟩
  · exact ⟨le_refl 0, zero_le_one⟩

theorem slideTick_slide (m : CcModel ℚ) (now : Int) : (slideTick m now).slide =
    m.slideFrom + ((if m.open ≠ 0 then 1 else 0) - m.slideFrom) *
      (1 - (1 - progress m now) * (1 - progress m now) * (1 - progress m now)) := rfl

theorem Kept.slideTick (h : Kept m) (now : Int) : Kept (slideTick m now) := by
  have htarget : (0 : ℚ) ≤ (if m.open ≠ 0 then 1 else 0) ∧ (if m.open ≠ 0 then 1 else 0) ≤ (1 : ℚ) := by
    split
    · exact ⟨zero_le_one, le_refl 1⟩
    · exact ⟨le_refl 0, zero_le_one⟩
  have hslide := between_mem h.slideFrom htarget (eased_mem (progress_mem m now))
  rw [← slideTick_slide] at hslide
  exact { h with slide := hslide }

theorem Kept.release (h : Kept m) : Kept (release m) :=
  { h with dragging := fun hd => absurd rfl hd }

theorem Kept.disarm (h : Kept m) : Kept (disarm m) := by
  rw [Panel.disarm]
  split
  · exact { h with armed := .inl rfl }
  · exact h

/-- The slide turns round where it is. -/
theorem Kept.turn (h : Kept m) (now : Int) {v : Int} (hv : v = 0 ∨ v = 1) :
    Kept { Panel.slideTick m now with
      slideFrom := (Panel.slideTick m now).slide
      slideStartMs := now
      «open» := v } :=
  { h.slideTick now with «open» := hv, slideFrom := (h.slideTick now).slide }

theorem Kept.ccOpen (h : Kept m) (now : Int) : Kept (ccOpen m now) := by
  rw [Panel.ccOpen]
  split
  · exact h
  · exact h.turn now (.inr rfl)

theorem Kept.ccClose (h : Kept m) (now : Int) : Kept (ccClose m now) := by
  rw [Panel.ccClose]
  dsimp only
  split
  · exact h.disarm.release
  · exact h.disarm.release.turn now (.inl rfl)

theorem Kept.ccTick (h : Kept m) (now : Int) : Kept (ccTick m now) := by
  rw [Panel.ccTick]
  split
  · exact (h.slideTick now).disarm
  · exact h.slideTick now

theorem Kept.painted (h : Kept m) (now : Int) : Kept (brightness m now).2 := by
  rw [Panel.brightness]
  split
  · exact h
  · exact { h with brightness := h.pending }

theorem Kept.tapReboot (h : Kept m) {arm : Int} (harm : arm = 1 ∨ arm = 2) (action : CcAction)
    (now : Int) : Kept (tapReboot m arm action now).2 := by
  rw [Panel.tapReboot]
  split
  · exact h.disarm
  · exact { h with armed := .inr harm }

theorem timerMinutes_mem (i : Fin 4) :
    timerMinutes i = 0 ∨ timerMinutes i = 1 ∨ timerMinutes i = 5 ∨ timerMinutes i = 15 := by
  revert i
  decide

theorem Kept.tapTile (h : Kept m) (tile : Capture) (now : Int) : Kept (tapTile m tile now).2 := by
  cases tile with
  | auto =>
    refine { h with auto := ?_ }
    change (if m.autoOn = 0 then (1 : Int) else 0) = 0 ∨ (if m.autoOn = 0 then (1 : Int) else 0) = 1
    split
    · exact .inr rfl
    · exact .inl rfl
  | timer i => exact { h with minutes := timerMinutes_mem i }
  | wifi => exact { h with }
  | off => exact h.ccClose now
  | rescue => exact h.tapReboot (.inl rfl) .rebootRescue now
  | loader => exact h.tapReboot (.inr rfl) .rebootLoader now
  | none | handle | bright | outside => exact h

theorem Kept.handleUp (h : Kept m) (e : TouchEvent ℚ ℚ) (now : Int) : Kept (handleUp m e now).2 := by
  simp only [Panel.handleUp]
  split
  · exact h.release.ccClose now
  split
  · exact h.release
  · exact h.release.tapTile m.captureTile now

/-- A level is in range for every maximum, arithmetic being exact. -/
theorem level_mem_exact (hmin : 8 ≤ m.brightnessMax) (y : ℚ) :
    8 ≤ level m y ∧ level m y ≤ m.brightnessMax := by
  have hfinite : isFinite ((ofInt (ccBright.y + ccBright.h) - lit 1 - widen y) /
      (ofInt ccBright.h - lit 1) : ℚ) = true := rfl
  obtain ⟨hlow, hhigh⟩ := clamp_part (F := ℚ) hfinite
  have hspan : (0 : ℚ) ≤ ((m.brightnessMax - 8 : Int) : ℚ) := by
    exact_mod_cast Int.sub_nonneg.mpr hmin
  obtain ⟨hpos, hle⟩ := exactRound_mem (n := m.brightnessMax - 8)
    (mul_nonneg hlow hspan) (mul_le_of_le_one_left hspan hhigh)
  obtain ⟨rounded, hrounded, hbound, hlevel⟩ : ∃ rounded : Int, 0 ≤ rounded ∧
      rounded ≤ m.brightnessMax - 8 ∧ level m y = 8 + rounded := ⟨_, hpos, hle, rfl⟩
  omega

theorem Kept.handleDrag (h : Kept m) (e : TouchEvent ℚ ℚ) (now : Int) : Kept (handleDrag m e now).2 := by
  have hlevel : Kept { m with pendingBrightness := level m e.y } :=
    { h with pending := level_mem_exact (h.brightness.1.trans h.brightness.2) e.y }
  rw [Panel.handleDrag]
  dsimp only
  split
  · rename_i hup
    rw [if_pos (Or.inl hup)]
    exact (hlevel.painted now).release
  · split
    · exact hlevel.painted now
    · exact hlevel

/-- A contact that is put down on the slider is captured by it. -/
theorem Kept.handleDown (h : Kept m) (hslot : 0 ≤ e.slot) (now : Int) (hfree : m.captureSlot < 0) :
    Kept (handleDown m e now).2 := by
  have hmin := h.brightness.1.trans h.brightness.2
  rw [Panel.handleDown]
  split
  · refine { h with dragging := fun hd => ?_ }
    have hheld := (h.dragging hd).1
    omega
  rename_i hbright
  have htile : hit e.x e.y = .bright := not_not.mp hbright
  have hcaptured {start : CcModel ℚ} (hstart : Kept start) :
      Kept { (brightness start now).2 with lastDragPaintMs := now } :=
    { hstart.painted now with }
  dsimp only
  split
  · exact hcaptured { h with
      auto := .inl rfl, pending := level_mem_exact hmin e.y, dragging := fun _ => ⟨hslot, htile⟩ }
  · exact hcaptured { h with
      pending := level_mem_exact hmin e.y, dragging := fun _ => ⟨hslot, htile⟩ }

theorem Kept.handle (h : Kept m) (hslot : 0 ≤ e.slot) (now : Int) : Kept (handle m e now).2 := by
  apply handle_cases (P := fun next => Kept next.2)
  case unseen => exact fun _ => h
  case busy | stray | hold => exact fun _ _ _ => h
  case press => exact fun _ _ hfree => h.handleDown hslot now hfree
  case cancel => exact fun _ _ _ => h.release
  case drag => exact fun _ _ _ _ => h.handleDrag e now
  case swipe => exact fun _ _ _ _ => h.ccClose now
  case lift => exact fun _ _ _ _ => h.handleUp e now

theorem Kept.perform (h : Kept m) {op : PanelOp ℚ ℚ} (hslot : Capturing.SlotInRange (.panel op)) :
    Kept (perform m op).2 := by
  cases op with
  | «open» now => exact h.ccOpen now
  | close now => exact h.ccClose now
  | tick now => exact h.ccTick now
  | handle e now out max =>
    rw [Panel.perform]
    rcases ccHandleEvent_eq m e now out max with hdone | ⟨n, hrefused⟩
    · rw [hdone]
      exact h.handle hslot.1 now
    · rw [hrefused]
      exact h

theorem ccInit_kept (bright maximum automatic minutes : Int) :
    Kept (ccInit bright maximum automatic minutes) := by
  obtain ⟨largest, hlargest⟩ : ∃ largest : Int, largest = if maximum < 8 then 8 else maximum := ⟨_, rfl⟩
  have hmin : 8 ≤ largest := by
    rw [hlargest]
    split <;> omega
  have hbright : 8 ≤ (if bright < 8 then 8 else if largest < bright then largest else bright) ∧
      (if bright < 8 then 8 else if largest < bright then largest else bright) ≤ largest := by
    split
    · exact ⟨le_refl 8, hmin⟩
    split
    · exact ⟨hmin, le_refl largest⟩
    · omega
  rw [hlargest] at hbright
  have hunit : (0 : ℚ) ≤ 0 ∧ (0 : ℚ) ≤ 1 := ⟨le_refl 0, zero_le_one⟩
  have hminutes (v : Int) (hv : v =
      if minutes = 0 ∨ minutes = 1 ∨ minutes = 5 ∨ minutes = 15 then minutes else 5) :
      v = 0 ∨ v = 1 ∨ v = 5 ∨ v = 15 := by
    rw [hv]
    split
    · assumption
    · exact .inr (.inr (.inl rfl))
  refine ⟨⟨hbright, hbright, hminutes _ rfl, ?_, .inl rfl, .inl rfl, hunit, fun hd => absurd rfl hd⟩, hunit⟩
  change (if automatic ≠ 0 then (1 : Int) else 0) = 0 ∨ (if automatic ≠ 0 then (1 : Int) else 0) = 1
  split
  · exact .inr rfl
  · exact .inl rfl

end Kept

/-- The fields stay in their ranges and no call asks for more than three actions, whatever the
arguments and the times; a call whose buffer is too small can be repeated. -/
theorem panel_in_range (bright maximum automatic minutes : Int) (ops : List (PanelOp ℚ ℚ))
    (s : Usage ℚ ℚ) (h : Run (Guarded (Fires Usage.call) fun _ op => Capturing.SlotInRange (.panel op))
      (Usage.start (ccInit bright maximum automatic minutes)) ops s) :
    Ranges s.model ∧ (s.model.captureSlot < 0 → s.model.draggingBrightness = 0) ∧
      (∀ r ∈ s.past, r.actions.length ≤ 3) ∧ ∀ e now, Repeatable s.model e now := by
  have hinv := h.invariant (fun s => Kept s.model ∧ ∀ r ∈ s.past, r.actions.length ≤ 3) ?_ ?_
  · refine ⟨hinv.1.toRanges, fun hfree => ?_, hinv.2, repeatable s.model⟩
    by_contra hdrag
    have hheld := (hinv.1.dragging hdrag).1
    omega
  · exact ⟨ccInit_kept bright maximum automatic minutes, List.forall_mem_nil _⟩
  · rintro t op _ ⟨hkept, hpast⟩ ⟨hslot, rfl⟩
    refine ⟨hkept.perform hslot, fun r hr => ?_⟩
    rcases List.mem_append.mp hr with hr | hr
    · exact hpast r hr
    · rw [List.mem_singleton.mp hr]
      exact perform_length t.model op

/-- The slider is pressed with Auto on, first without a buffer, and time runs back. -/
def pressAgain : List (PanelOp ℚ ℚ) :=
  [.open 0, .tick 500, .handle ⟨.down, 0, 760, 200, 0⟩ 600 false 0,
    .handle ⟨.down, 0, 760, 200, 0⟩ 600 true 3, .tick 100]

theorem press_again_in_range :
    let s := pressAgain.foldl Usage.call (Usage.start (ccInit 1000 300 7 (-4)))
    Ranges s.model ∧ (s.model.captureSlot < 0 → s.model.draggingBrightness = 0) ∧
      (∀ r ∈ s.past, r.actions.length ≤ 3) ∧ ∀ e now, Repeatable s.model e now := by
  refine panel_in_range 1000 300 7 (-4) pressAgain _ (run_guarded_foldl ?_)
  exact ⟨trivial, trivial, ⟨by decide, by decide⟩, ⟨by decide, by decide⟩, trivial, trivial⟩

end Taq102.Panel
