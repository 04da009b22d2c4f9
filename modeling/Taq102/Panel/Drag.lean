import Mathlib.Data.List.Chain
import Taq102.Panel.Ranges

/-! A drag of the brightness slider, from the contact that lands on it to its lift: the levels it
asks for, how often, and the save at its end. -/
namespace Taq102.Panel
open Taq102.Lib CFloat CDouble
open Touch (TouchEvent TouchKind)
variable {F D : Type}

def setsLevel (a : CcResult) : Option Int := if a.action = .setBrightness then some a.arg else none

def levels (actions : List CcResult) : List Int := actions.filterMap setsLevel

def emitted (past : List (Record F D)) : List CcResult := past.flatMap Record.actions

/-- The time of a call that asked for a level because a contact moved. -/
def Record.moved (r : Record F D) : Option Int :=
  match r.op with
  | .handle e now _ _ => if e.kind = .move ∧ levels r.actions ≠ [] then some now else none
  | _ => none

/-- What may happen while the slot drags: anything but a close and the end of its contact. -/
def Meanwhile (slot : Int) : PanelOp F D → Prop
  | .close _ => False
  | .handle e _ _ _ => e.slot = slot → e.kind = .move
  | _ => True

instance (slot : Int) : (op : PanelOp F D) → Decidable (Meanwhile slot op)
  | .open _ => isTrue trivial
  | .close _ => isFalse id
  | .tick _ => isTrue trivial
  | .handle e _ _ _ => inferInstanceAs (Decidable (e.slot = slot → e.kind = .move))

/-- A contact that lands on the slider, what happens meanwhile, and its lift. -/
structure Drag (F D : Type) where
  down : TouchEvent F D
  downAt : Int
  meanwhile : List (PanelOp F D)
  up : TouchEvent F D
  upAt : Int

def Drag.landed [CFloat F] [CFloat D] [CDouble F D] (d : Drag F D) (m : CcModel F) : Usage F D :=
  (Usage.start m).call (.handle d.down d.downAt true 3)

def Drag.beforeUp [CFloat F] [CFloat D] [CDouble F D] (d : Drag F D) (m : CcModel F) : Usage F D :=
  d.meanwhile.foldl Usage.call (d.landed m)

def Drag.done [CFloat F] [CFloat D] [CDouble F D] (d : Drag F D) (m : CcModel F) : Usage F D :=
  (d.beforeUp m).call (.handle d.up d.upAt true 3)

/-- The panel captures the contact on its slider, and sees it end in range. -/
structure Drag.On [CFloat F] [CFloat D] [CDouble F D] (d : Drag F D) (m : CcModel F) : Prop where
  sees : Sees m d.down
  free : m.captureSlot < 0
  slot : 0 ≤ d.down.slot
  down : d.down.kind = .down
  slider : hit d.down.x d.down.y = .bright
  meanwhile : ∀ op ∈ d.meanwhile, Meanwhile d.down.slot op
  up : d.up.kind = .up ∧ d.up.slot = d.down.slot
  finite : isFinite d.up.x = true ∧ isFinite d.up.y = true

/-- A drag from a model, with everything that was asked for: the last level is the one the contact
was lifted at, moves ask at most every 33 ms, one save comes last, and Auto goes off first. -/
structure Settles [CFloat F] [CFloat D] [CDouble F D] (m : CcModel F) (d : Drag F D)
    (s : Usage F D) : Prop where
  last : ((levels (emitted s.past)).getLast?).getD m.brightness = level m d.up.y
  level : s.model.brightness = level m d.up.y
  apart : (s.past.filterMap Record.moved).IsChain fun t t' => 33 ≤ t' - t
  saved : ∃ before, emitted s.past = before ++ [⟨.saveSettings, 0⟩] ∧
    ∀ a ∈ before, a.action ≠ .saveSettings
  lifted : ∃ earlier r, s.past = earlier ++ [r] ∧ ⟨.saveSettings, 0⟩ ∈ r.actions
  manual : m.autoOn ≠ 0 → ∃ rest, emitted s.past = ⟨.setAuto, 0⟩ :: rest ∧
    ∀ a ∈ rest, a.action ≠ .setAuto

/-- The fields a drag depends on are as they were. -/
structure SameDrag (m m' : CcModel F) : Prop where
  slot : m'.captureSlot = m.captureSlot
  tile : m'.captureTile = m.captureTile
  dragging : m'.draggingBrightness = m.draggingBrightness
  brightness : m'.brightness = m.brightness
  maximum : m'.brightnessMax = m.brightnessMax
  paint : m'.lastDragPaintMs = m.lastDragPaintMs

theorem SameDrag.refl (m : CcModel F) : SameDrag m m := ⟨rfl, rfl, rfl, rfl, rfl, rfl⟩

theorem disarm_sameDrag (m : CcModel F) : SameDrag m (disarm m) := by
  rw [disarm]
  split <;> exact ⟨rfl, rfl, rfl, rfl, rfl, rfl⟩

section Steps
variable {m : CcModel F} {slot : Int} {s : Usage F D}

/-- The panel after an event that was handled. -/
def Usage.handled (s : Usage F D) (e : TouchEvent F D) (now : Int) (out : Bool) (max : Int)
    (next : List CcResult × CcModel F) : Usage F D :=
  { model := next.2, past := s.past ++ [⟨s.model, .handle e now out max, .ok next.1⟩] }

/-- While the slot drags: what was asked for so far, ending with the level that is set. -/
structure Dragging (m : CcModel F) (slot : Int) (s : Usage F D) : Prop where
  slot : s.model.captureSlot = slot
  tile : s.model.captureTile = .bright
  dragging : s.model.draggingBrightness ≠ 0
  maximum : s.model.brightnessMax = m.brightnessMax
  emitted : ∃ asked : List Int, emitted s.past =
      (if m.autoOn ≠ 0 then [⟨.setAuto, 0⟩] else []) ++ asked.map (CcResult.mk .setBrightness) ∧
    asked.getLast?.getD m.brightness = s.model.brightness
  apart : (s.past.filterMap Record.moved).IsChain fun t t' => 33 ≤ t' - t
  painted : ∀ t ∈ (s.past.filterMap Record.moved).getLast?, t ≤ s.model.lastDragPaintMs

/-- A call that asks for nothing and leaves the drag alone. -/
theorem Dragging.keep (h : Dragging m slot s) (m' : CcModel F) (hsame : SameDrag s.model m')
    {r : Record F D} (hnone : r.actions = []) : Dragging m slot ⟨m', s.past ++ [r]⟩ := by
  have hmoved : r.moved = none := by
    rw [Record.moved]
    split
    · rw [hnone]
      exact if_neg fun hmove => hmove.2 rfl
    · rfl
  have htimes : (s.past ++ [r]).filterMap Record.moved = s.past.filterMap Record.moved := by
    rw [List.filterMap_append, List.filterMap_cons_none hmoved, List.filterMap_nil, List.append_nil]
  have hactions : Panel.emitted (s.past ++ [r]) = Panel.emitted s.past := by
    rw [Panel.emitted, List.flatMap_append, List.flatMap_singleton, hnone, List.append_nil]
    rfl
  obtain ⟨asked, hasked, hlast⟩ := h.emitted
  refine ⟨hsame.slot.trans h.slot, hsame.tile.trans h.tile, ?_, hsame.maximum.trans h.maximum,
    ⟨asked, hactions.trans hasked, hlast.trans hsame.brightness.symm⟩, ?_, ?_⟩
  · rw [hsame.dragging]
    exact h.dragging
  · rw [htimes]
    exact h.apart
  · rw [htimes, hsame.paint]
    exact h.painted

/-- A contact landed on the slider, which is set to its level. -/
theorem pressed_dragging (m start : CcModel F) (hslot : start.captureSlot = slot)
    (htile : start.captureTile = .bright) (hdrag : start.draggingBrightness ≠ 0)
    (hmax : start.brightnessMax = m.brightnessMax) (hbright : start.brightness = m.brightness)
    (now : Int) {r : Record F D} (hmoved : r.moved = none) (hactions : r.actions =
      (if m.autoOn ≠ 0 then [⟨.setAuto, 0⟩] else []) ++ (brightness start now).1) :
    Dragging m slot ⟨{ (brightness start now).2 with lastDragPaintMs := now }, [] ++ [r]⟩ := by
  have htimes : ([] ++ [r]).filterMap Record.moved = [] := by
    rw [List.nil_append, List.filterMap_cons_none hmoved, List.filterMap_nil]
  have hall : Panel.emitted ([] ++ [r]) = r.actions := List.append_nil r.actions
  have hchain : (([] ++ [r]).filterMap Record.moved).IsChain fun t t' => 33 ≤ t' - t := by
    rw [htimes]
    exact List.isChain_nil
  have hnone : ∀ t ∈ (([] ++ [r]).filterMap Record.moved).getLast?, t ≤ now := by
    rw [htimes]
    intro t ht
    cases ht
  by_cases hsame : start.pendingBrightness = start.brightness
  · rw [brightness, if_pos hsame] at hactions ⊢
    exact ⟨hslot, htile, hdrag, hmax, ⟨[], hall.trans hactions, hbright.symm⟩, hchain, hnone⟩
  · rw [brightness, if_neg hsame] at hactions ⊢
    exact ⟨hslot, htile, hdrag, hmax, ⟨[start.pendingBrightness], hall.trans hactions, rfl⟩, hchain,
      hnone⟩

/-- A move that asks for a level, the last one being old enough. -/
theorem Dragging.ask (h : Dragging m slot s) (m' : CcModel F) {level now : Int}
    (hslot : m'.captureSlot = s.model.captureSlot) (htile : m'.captureTile = s.model.captureTile)
    (hdrag : m'.draggingBrightness = s.model.draggingBrightness)
    (hmax : m'.brightnessMax = s.model.brightnessMax) (hlevel : m'.brightness = level)
    (hpaint : m'.lastDragPaintMs = now) (hold : elapsed now s.model.lastDragPaintMs 33 = true)
    {r : Record F D} (hasks : r.actions = [⟨.setBrightness, level⟩]) (hmoved : r.moved = some now) :
    Dragging m slot ⟨m', s.past ++ [r]⟩ := by
  have htimes : (s.past ++ [r]).filterMap Record.moved = s.past.filterMap Record.moved ++ [now] := by
    rw [List.filterMap_append, List.filterMap_cons_some hmoved, List.filterMap_nil]
  have hactions : Panel.emitted (s.past ++ [r]) =
      Panel.emitted s.past ++ [⟨.setBrightness, level⟩] := by
    rw [Panel.emitted, List.flatMap_append, List.flatMap_singleton, hasks]
    rfl
  obtain ⟨asked, hasked, hlast⟩ := h.emitted
  refine ⟨hslot.trans h.slot, htile.trans h.tile, ?_, hmax.trans h.maximum,
    ⟨asked ++ [level], ?_, ?_⟩, ?_, ?_⟩
  · rw [hdrag]
    exact h.dragging
  · rw [hactions, hasked, List.map_append, List.append_assoc]
    rfl
  · rw [List.getLast?_concat, hlevel]
    rfl
  · rw [htimes]
    refine h.apart.append (List.isChain_singleton now) fun t ht t' ht' => ?_
    have hbefore := h.painted t ht
    rw [elapsed, Bool.and_eq_true, decide_eq_true_eq, decide_eq_true_eq] at hold
    obtain rfl : now = t' := by simpa using ht'
    omega
  · rw [htimes, List.getLast?_concat, hpaint]
    intro t ht
    obtain rfl : now = t := by simpa using ht
    exact le_refl now

/-- The levels among the actions of a drag. -/
theorem levels_asked (asked : List Int) :
    levels ((if m.autoOn ≠ 0 then [⟨.setAuto, 0⟩] else []) ++
      asked.map (CcResult.mk .setBrightness) ++ [⟨.saveSettings, 0⟩]) = asked := by
  have hasked : levels (asked.map (CcResult.mk .setBrightness)) = asked := by
    rw [levels, List.filterMap_map]
    exact List.filterMap_some
  have hauto : levels (if m.autoOn ≠ 0 then [⟨.setAuto, 0⟩] else []) = [] := by
    split <;> rfl
  rw [levels, List.filterMap_append, List.filterMap_append]
  exact congrArg₂ (· ++ ·) (congrArg₂ (· ++ ·) hauto hasked) rfl |>.trans (List.append_nil _)

/-- Auto goes off at most once, first; the levels follow. -/
theorem asked_kinds {asked : List Int} {a : CcResult} (h : a ∈
    (if m.autoOn ≠ 0 then [⟨.setAuto, 0⟩] else []) ++ asked.map (CcResult.mk .setBrightness)) :
    a.action ≠ .saveSettings := by
  rcases List.mem_append.mp h with hauto | hasked
  · split at hauto
    · rw [List.mem_singleton.mp hauto]
      exact CcAction.noConfusion
    · cases hauto
  · obtain ⟨level, -, rfl⟩ := List.mem_map.mp hasked
    exact CcAction.noConfusion

/-- Until the lift nothing asks for a save. -/
theorem Dragging.unsaved (h : Dragging m slot s) : ⟨.saveSettings, 0⟩ ∉ Panel.emitted s.past := by
  obtain ⟨asked, hasked, -⟩ := h.emitted
  rw [hasked]
  exact fun hsave => asked_kinds hsave rfl

variable [CFloat F]

theorem ccOpen_sameDrag (m : CcModel F) (now : Int) : SameDrag m (ccOpen m now) := by
  rw [ccOpen]
  split <;> exact ⟨rfl, rfl, rfl, rfl, rfl, rfl⟩

theorem ccTick_sameDrag (m : CcModel F) (now : Int) : SameDrag m (ccTick m now) := by
  rw [ccTick]
  split
  · obtain ⟨hslot, htile, hdrag, hlevel, hmax, hpaint⟩ := disarm_sameDrag (slideTick m now)
    exact ⟨hslot, htile, hdrag, hlevel, hmax, hpaint⟩
  · exact ⟨rfl, rfl, rfl, rfl, rfl, rfl⟩

variable [CFloat D] [CDouble F D]

/-- The end of a drag: the parts of `Settles` with the drag's steps left out. -/
structure Lifted (m : CcModel F) (e : TouchEvent F D) (s : Usage F D) : Prop where
  model : s.model.brightness = level m e.y
  emitted : ∃ asked : List Int, emitted s.past =
      (if m.autoOn ≠ 0 then [⟨.setAuto, 0⟩] else []) ++ asked.map (CcResult.mk .setBrightness) ++
        [⟨.saveSettings, 0⟩] ∧ asked.getLast?.getD m.brightness = level m e.y
  apart : (s.past.filterMap Record.moved).IsChain fun t t' => 33 ≤ t' - t
  last : ∃ earlier r, s.past = earlier ++ [r] ∧ ⟨.saveSettings, 0⟩ ∈ r.actions

omit [CFloat F] in
/-- A move of the dragging contact: it asks for a level when the last one is old enough. -/
theorem Dragging.move (h : Dragging m slot s) {e : TouchEvent F D} (hkind : e.kind = .move) (now : Int)
    (out : Bool) (max : Int) :
    Dragging m slot (s.handled e now out max (handleDrag s.model e now)) := by
  have hmove : handleDrag s.model e now = if elapsed now s.model.lastDragPaintMs 33 = true then
      brightness { s.model with pendingBrightness := level s.model e.y } now
      else ([], { s.model with pendingBrightness := level s.model e.y }) := by
    simp only [handleDrag, hkind, reduceCtorEq, false_or, if_false]
  have hidle : Dragging m slot
      (s.handled e now out max ([], { s.model with pendingBrightness := level s.model e.y })) :=
    h.keep { s.model with pendingBrightness := level s.model e.y }
      (r := ⟨s.model, .handle e now out max, .ok []⟩) ⟨rfl, rfl, rfl, rfl, rfl, rfl⟩ rfl
  rw [hmove, brightness]
  by_cases hold : elapsed now s.model.lastDragPaintMs 33 = true
  · rw [if_pos hold]
    split
    · exact hidle
    · exact h.ask { s.model with
          pendingBrightness := level s.model e.y
          brightness := level s.model e.y
          lastDragPaintMs := now
          dirty := 1 }
        (r := ⟨s.model, .handle e now out max, .ok [⟨.setBrightness, level s.model e.y⟩]⟩)
        rfl rfl rfl rfl rfl rfl hold rfl (if_pos ⟨hkind, List.cons_ne_nil _ _⟩)
  · rw [if_neg hold]
    exact hidle

/-- One event while the slot drags. -/
theorem Dragging.handle (h : Dragging m slot s) (hslot : 0 ≤ slot) {e : TouchEvent F D}
    (hmove : e.slot = slot → e.kind = .move) (now : Int) (out : Bool) (max : Int) :
    Dragging m slot (s.handled e now out max (Panel.handle s.model e now)) := by
  have hown (ho : Owns s.model e) : e.kind = .move := hmove (ho.2.trans h.slot)
  have hidle : Dragging m slot (s.handled e now out max ([], s.model)) :=
    h.keep s.model (r := ⟨s.model, .handle e now out max, .ok []⟩) (.refl _) rfl
  apply handle_cases (P := fun next => Dragging m slot (s.handled e now out max next))
  case unseen => exact fun _ => hidle
  case busy | stray | hold => exact fun _ _ _ => hidle
  case press =>
    intro _ _ hfree
    have hheld := h.slot
    omega
  case cancel =>
    intro _ ho hcancel
    rw [hown ho] at hcancel
    cases hcancel
  case drag => exact fun _ ho _ _ => h.move (hown ho) now out max
  case swipe =>
    intro _ _ _ htile
    rw [h.tile] at htile
    cases htile
  case lift => exact fun _ _ _ hfree => absurd hfree h.dragging

theorem Dragging.call (h : Dragging m slot s) (hslot : 0 ≤ slot) {op : PanelOp F D}
    (hop : Meanwhile slot op) : Dragging m slot (s.call op) := by
  cases op with
  | «open» now => exact h.keep _ (ccOpen_sameDrag s.model now) rfl
  | close now => exact hop.elim
  | tick now => exact h.keep _ (ccTick_sameDrag s.model now) rfl
  | handle e now out max =>
    rw [Usage.call]
    dsimp only [perform]
    rcases ccHandleEvent_eq s.model e now out max with hdone | ⟨n, hrefused⟩
    · rw [hdone]
      exact h.handle hslot hop now out max
    · rw [hrefused]
      exact h.keep _ (.refl _) rfl

theorem Dragging.run (h : Dragging m slot s) (hslot : 0 ≤ slot) {ops : List (PanelOp F D)}
    (hops : ∀ op ∈ ops, Meanwhile slot op) : Dragging m slot (ops.foldl Usage.call s) := by
  induction ops generalizing s with
  | nil => exact h
  | cons op rest ih =>
    exact ih (h.call hslot (hops op List.mem_cons_self)) fun op' hop' =>
      hops op' (List.mem_cons_of_mem op hop')

/-- With room for three actions the event is handled. -/
theorem ccHandleEvent_done (m : CcModel F) (e : TouchEvent F D) (now : Int) :
    ccHandleEvent m e now true 3 = (.ok (Panel.handle m e now).1, (Panel.handle m e now).2) := by
  have hlength := handle_length m e now
  rw [ccHandleEvent]
  refine if_neg (not_or.mpr ⟨by omega, fun hnone => ?_⟩)
  cases hnone.2

/-- The contact on the slider is captured, and Auto goes off. -/
theorem landed_dragging {d : Drag F D} (h : d.On m) : Dragging m d.down.slot (d.landed m) := by
  have hpress : Panel.handle m d.down d.downAt = handleDown m d.down d.downAt := by
    have hsees := h.sees
    rw [Panel.handle, if_neg (by simp [hsees.1, hsees.2.1, hsees.2.2]), if_pos h.down,
      if_neg (by have hfree := h.free; omega)]
  have hslider := h.slider
  have hmoved {actions : List CcResult} :
      Record.moved ⟨m, .handle d.down d.downAt true 3, .ok actions⟩ = none := by
    refine if_neg fun hmove => ?_
    rw [h.down] at hmove
    cases hmove.1
  rw [Drag.landed, Usage.call]
  dsimp only [perform, Usage.start]
  rw [ccHandleEvent_done, hpress, handleDown, if_neg (not_not.mpr hslider)]
  dsimp only
  split
  · rename_i hauto
    refine pressed_dragging m { m with
      captureSlot := d.down.slot
      captureTile := hit d.down.x d.down.y
      captureY := d.down.y
      captureAtMs := d.downAt
      draggingBrightness := 1
      autoOn := 0
      dirty := 1
      pendingBrightness := level m d.down.y } rfl hslider one_ne_zero rfl rfl d.downAt hmoved ?_
    rw [if_pos hauto]
    rfl
  · rename_i hauto
    refine pressed_dragging m { m with
      captureSlot := d.down.slot
      captureTile := hit d.down.x d.down.y
      captureY := d.down.y
      captureAtMs := d.downAt
      draggingBrightness := 1
      pendingBrightness := level m d.down.y } rfl hslider one_ne_zero rfl rfl d.downAt hmoved ?_
    rw [if_neg hauto]
    rfl

omit [CFloat F] in
theorem level_congr {m' : CcModel F} (h : m'.brightnessMax = m.brightnessMax) (y : F) :
    level m' y = level m y := by
  rw [level, level, h]

omit [CFloat F] in
/-- A lift that the panel sees sets the level and saves. -/
theorem Dragging.lift (h : Dragging m slot s) {e : TouchEvent F D} (hkind : e.kind = .up) (now : Int) :
    Lifted m e (s.handled e now true 3 (handleDrag s.model e now)) := by
  obtain ⟨asked, hasked, hlast⟩ := h.emitted
  have hlevel : level s.model e.y = level m e.y := level_congr h.maximum e.y
  have hmoved {actions : List CcResult} :
      Record.moved ⟨s.model, .handle e now true 3, .ok actions⟩ = none := by
    refine if_neg fun hmove => ?_
    rw [hkind] at hmove
    cases hmove.1
  have htimes {actions : List CcResult} :
      (s.past ++ [Record.mk s.model (.handle e now true 3) (.ok actions)]).filterMap Record.moved =
        s.past.filterMap Record.moved := by
    rw [List.filterMap_append, List.filterMap_cons_none hmoved, List.filterMap_nil, List.append_nil]
  have hactions {actions : List CcResult} :
      Panel.emitted (s.past ++ [Record.mk s.model (.handle e now true 3) (.ok actions)]) =
        (if m.autoOn ≠ 0 then [⟨.setAuto, 0⟩] else []) ++ asked.map (CcResult.mk .setBrightness) ++
          actions := by
    rw [← hasked, Panel.emitted, List.flatMap_append, List.flatMap_singleton]
    rfl
  have hdone : handleDrag s.model e now =
      ((brightness { s.model with pendingBrightness := level m e.y } now).1 ++ [⟨.saveSettings, 0⟩],
        release (brightness { s.model with pendingBrightness := level m e.y } now).2) := by
    simp only [handleDrag, hkind, true_or, if_true, hlevel]
  rw [hdone, brightness]
  by_cases hsame : level m e.y = s.model.brightness
  · rw [if_pos hsame]
    refine ⟨hsame.symm, ⟨asked, hactions, hlast.trans hsame.symm⟩, ?_,
      ⟨_, _, rfl, List.mem_singleton_self _⟩⟩
    rw [Usage.handled, htimes]
    exact h.apart
  · rw [if_neg hsame]
    refine ⟨rfl, ⟨asked ++ [level m e.y], ?_, ?_⟩, ?_, ⟨_, _, rfl, ?_⟩⟩
    · rw [List.map_append, ← List.append_assoc, List.append_assoc _ _ [_]]
      exact hactions
    · rw [List.getLast?_concat]
      rfl
    · rw [Usage.handled, htimes]
      exact h.apart
    · exact List.mem_append_right _ (List.mem_singleton_self _)

theorem Lifted.settles {d : Drag F D} (h : Lifted m d.up s) : Settles m d s := by
  obtain ⟨asked, hasked, hlast⟩ := h.emitted
  refine ⟨?_, h.model, h.apart, ⟨_, hasked, fun a ha => asked_kinds ha⟩, h.last, fun hauto => ?_⟩
  · rw [hasked, levels_asked]
    exact hlast
  · rw [if_pos hauto, List.append_assoc, List.singleton_append] at hasked
    refine ⟨asked.map (CcResult.mk .setBrightness) ++ [⟨.saveSettings, 0⟩], hasked, fun a ha => ?_⟩
    rcases List.mem_append.mp ha with ha | ha
    · obtain ⟨level, -, rfl⟩ := List.mem_map.mp ha
      exact CcAction.noConfusion
    · rw [List.mem_singleton.mp ha]
      exact CcAction.noConfusion

/-- A drag settles exactly when the panel is still on screen at its lift: a lift that it does not
see is lost with the level and the save. -/
theorem drag_settles_iff (m : CcModel F) (d : Drag F D) (h : d.On m) :
    Settles m d (d.done m) ↔ ccVisible (d.beforeUp m).model = true := by
  have hbefore : Dragging m d.down.slot (d.beforeUp m) := (landed_dragging h).run h.slot h.meanwhile
  have hdone : d.done m = (d.beforeUp m).handled d.up d.upAt true 3
      (Panel.handle (d.beforeUp m).model d.up d.upAt) := by
    rw [Drag.done, Usage.call]
    dsimp only [perform]
    rw [ccHandleEvent_done]
    rfl
  have hslot := hbefore.slot
  have hheld := h.slot
  obtain ⟨hup, hown⟩ := h.up
  rw [hdone]
  constructor
  · intro hsettles
    by_contra hvisible
    have hunseen : Panel.handle (d.beforeUp m).model d.up d.upAt = ([], (d.beforeUp m).model) := by
      rw [Panel.handle, if_pos (Or.inl hvisible)]
    obtain ⟨before, hsaved, -⟩ := hsettles.saved
    rw [hunseen] at hsaved
    have hnothing : Panel.emitted ((d.beforeUp m).handled d.up d.upAt true 3
        ([], (d.beforeUp m).model)).past = Panel.emitted (d.beforeUp m).past := by
      rw [Panel.emitted, Usage.handled, List.flatMap_append, List.flatMap_singleton]
      exact List.append_nil _
    refine hbefore.unsaved ?_
    rw [← hnothing, hsaved]
    exact List.mem_append_right _ (List.mem_singleton_self _)
  · intro hvisible
    have hlift : Panel.handle (d.beforeUp m).model d.up d.upAt =
        handleDrag (d.beforeUp m).model d.up d.upAt := by
      rw [Panel.handle, if_neg (by simp [hvisible, h.finite.1, h.finite.2]), if_neg (by simp [hup]),
        if_neg (by omega), if_neg (by simp [hup]), if_pos hbefore.dragging]
    rw [hlift]
    exact (hbefore.lift hup d.upAt).settles

end Steps

/-- A throttled move, another contact and a tick between the press and the lift. -/
def openDrag : Drag ℚ ℚ :=
  { down := ⟨.down, 2, 760, 300, 0⟩, downAt := 300
    meanwhile := [.handle ⟨.move, 2, 760, 200, 0⟩ 310 true 3, .handle ⟨.down, 1, 760, 90, 0⟩ 320 true 3,
      .tick 330, .handle ⟨.move, 2, 760, 150, 0⟩ 340 true 3]
    up := ⟨.up, 2, 760, 120, 0⟩, upAt := 345 }

def shown : CcModel ℚ := ccTick (ccOpen (ccInit 200 255 1 5) 0) 200

theorem open_drag_settles : Settles shown openDrag (openDrag.done shown) := by
  refine (drag_settles_iff shown openDrag ?_).mpr (by decide +kernel)
  exact ⟨⟨by decide +kernel, rfl, rfl⟩, by decide +kernel, by decide, rfl, by decide +kernel,
    by decide, ⟨rfl, rfl⟩, ⟨rfl, rfl⟩⟩

/-- The panel is sliding shut when the contact lands, and gone when it lifts. -/
def lateDrag : Drag ℚ ℚ :=
  { down := ⟨.down, 0, 760, 300, 0⟩, downAt := 310
    meanwhile := [.tick 600]
    up := ⟨.up, 0, 760, 120, 0⟩, upAt := 610 }

def closing : CcModel ℚ := ccTick (ccClose shown 300) 310

theorem late_drag_lost : lateDrag.On closing ∧ ¬ Settles closing lateDrag (lateDrag.done closing) := by
  refine ⟨⟨⟨by decide +kernel, rfl, rfl⟩, by decide +kernel, by decide, rfl, by decide +kernel, by decide,
    ⟨rfl, rfl⟩, ⟨rfl, rfl⟩⟩, fun h => ?_⟩
  have hnone : (⟨.saveSettings, 0⟩ : CcResult) ∉ emitted (lateDrag.done closing).past := by
    decide +kernel
  obtain ⟨before, hsaved, -⟩ := h.saved
  refine hnone ?_
  rw [hsaved]
  exact List.mem_append_right _ (List.mem_singleton_self _)

end Taq102.Panel
