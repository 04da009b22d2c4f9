import Taq102.Panel.Model

/-! What an event does to the preferences the panel shows, and the actions that ask for the same
change of the stored ones. -/
namespace Taq102.Panel
open Taq102.Lib CFloat CDouble
open Touch (TouchEvent TouchKind)

variable {F D : Type}

/-- An action that leaves the preferences alone. -/
def CcAction.plain : CcAction → Bool
  | .setBrightness | .setAuto | .setSleepMinutes => false
  | _ => true

/-- The preferences on the panel are as they were. -/
structure SameShown (m m' : CcModel F) : Prop where
  auto : m'.autoOn = m.autoOn
  brightness : m'.brightness = m.brightness
  minutes : m'.sleepMinutes = m.sleepMinutes
  maximum : m'.brightnessMax = m.brightnessMax

/-- While the slider is dragged, Auto is off. -/
def DragManual (m : CcModel F) : Prop := m.draggingBrightness ≠ 0 → m.autoOn = 0

/-- The actions of a slider at a level: Auto goes off, the level is set, a lift saves. -/
def slideActions (m : CcModel F) (level : Int) (lifted : Bool) : List CcResult :=
  (if m.autoOn ≠ 0 then [⟨.setAuto, 0⟩] else []) ++
    (if level ≠ m.brightness then [⟨.setBrightness, level⟩] else []) ++
    (if lifted then [⟨.saveSettings, 0⟩] else [])

/-- The changes one event can make, with their actions. -/
inductive Touched (m m' : CcModel F) : List CcResult → Prop
  | kept {actions : List CcResult} : SameShown m m' → DragManual m' →
      (∀ a ∈ actions, a.action.plain = true) → (∀ a ∈ actions, a.action ≠ .saveSettings) →
      Touched m m' actions
  | saved : SameShown m m' → DragManual m' → Touched m m' [⟨.saveSettings, 0⟩]
  | auto (v : Int) : v = 0 ∨ v = 1 → m'.autoOn = v → m'.brightness = m.brightness →
      m'.sleepMinutes = m.sleepMinutes → m'.brightnessMax = m.brightnessMax →
      m'.draggingBrightness = 0 → Touched m m' [⟨.setAuto, v⟩, ⟨.saveSettings, 0⟩]
  | minutes (i : Fin 4) : m'.autoOn = m.autoOn → m'.brightness = m.brightness →
      m'.sleepMinutes = timerMinutes i → m'.brightnessMax = m.brightnessMax → DragManual m' →
      Touched m m' [⟨.setSleepMinutes, timerMinutes i⟩, ⟨.saveSettings, 0⟩]
  | slid (level : Int) (lifted : Bool) : 8 ≤ level → level ≤ m.brightnessMax → m'.autoOn = 0 →
      m'.brightness = level → m'.sleepMinutes = m.sleepMinutes →
      m'.brightnessMax = m.brightnessMax → (m.autoOn ≠ 0 → m'.draggingBrightness ≠ 0) →
      Touched m m' (slideActions m level lifted)

theorem release_same (m : CcModel F) : SameShown m (release m) := ⟨rfl, rfl, rfl, rfl⟩

theorem release_manual (m : CcModel F) : DragManual (release m) := fun h => absurd rfl h

theorem disarm_same (m : CcModel F) : SameShown m (disarm m) := by
  rw [disarm]
  split <;> exact ⟨rfl, rfl, rfl, rfl⟩

theorem disarm_dragging (m : CcModel F) : (disarm m).draggingBrightness = m.draggingBrightness := by
  rw [disarm]
  split <;> rfl

theorem SameShown.trans {m m' m'' : CcModel F} (h : SameShown m m') (h' : SameShown m' m'') :
    SameShown m m'' :=
  ⟨h'.auto.trans h.auto, h'.brightness.trans h.brightness, h'.minutes.trans h.minutes,
    h'.maximum.trans h.maximum⟩

theorem SameShown.refl (m : CcModel F) : SameShown m m := ⟨rfl, rfl, rfl, rfl⟩

theorem tapReboot_touched {m : CcModel F} (arm : Int) {action : CcAction}
    (haction : action = .rebootRescue ∨ action = .rebootLoader) (now : Int)
    (hdrag : m.draggingBrightness = 0) :
    Touched m (tapReboot m arm action now).2 (tapReboot m arm action now).1 := by
  rw [tapReboot]
  split
  · refine .kept (disarm_same m) (fun h => absurd ((disarm_dragging m).trans hdrag) h) ?_ ?_
    · intro a ha
      rw [List.mem_singleton.mp ha]
      rcases haction with rfl | rfl <;> rfl
    · intro a ha
      rw [List.mem_singleton.mp ha]
      rcases haction with rfl | rfl <;> exact CcAction.noConfusion
  · exact .kept ⟨rfl, rfl, rfl, rfl⟩ (fun h => absurd hdrag h) (fun _ ha => nomatch ha)
      fun _ ha => nomatch ha

theorem Touched.of_same {m₀ m m' : CcModel F} {actions : List CcResult} (h : SameShown m₀ m)
    (ht : Touched m m' actions) : Touched m₀ m' actions := by
  cases ht with
  | kept hs hd hplain hsave => exact .kept (h.trans hs) hd hplain hsave
  | saved hs hd => exact .saved (h.trans hs) hd
  | auto v hv ha hb hm hx hd =>
    exact .auto v hv ha (hb.trans h.brightness) (hm.trans h.minutes) (hx.trans h.maximum) hd
  | minutes i ha hb hm hx hd =>
    exact .minutes i (ha.trans h.auto) (hb.trans h.brightness) hm (hx.trans h.maximum) hd
  | slid level lifted hlow hhigh ha hb hm hx hd =>
    have hactions : slideActions m level lifted = slideActions m₀ level lifted := by
      rw [slideActions, slideActions, h.auto, h.brightness]
    rw [hactions]
    rw [h.maximum] at hhigh
    rw [h.auto] at hd
    exact .slid level lifted hlow hhigh ha hb (hm.trans h.minutes) (hx.trans h.maximum) hd

/-- What setting the drag's level does. -/
structure LevelSet (m : CcModel F) (result : List CcResult × CcModel F) : Prop where
  actions : result.1 = if m.pendingBrightness ≠ m.brightness then
    [⟨.setBrightness, m.pendingBrightness⟩] else []
  brightness : result.2.brightness = m.pendingBrightness
  auto : result.2.autoOn = m.autoOn
  minutes : result.2.sleepMinutes = m.sleepMinutes
  maximum : result.2.brightnessMax = m.brightnessMax
  dragging : result.2.draggingBrightness = m.draggingBrightness

theorem brightness_spec (m : CcModel F) (now : Int) : LevelSet m (brightness m now) := by
  rw [brightness]
  split
  · rename_i hsame
    exact ⟨(if_neg (not_not.mpr hsame)).symm, hsame.symm, rfl, rfl, rfl, rfl⟩
  · rename_i hdiff
    exact ⟨(if_pos hdiff).symm, rfl, rfl, rfl, rfl, rfl⟩

/-- A model before its level is set, as a slide on `m` prepares it. -/
structure Slides (m start : CcModel F) : Prop where
  auto : start.autoOn = 0
  brightness : start.brightness = m.brightness
  minutes : start.sleepMinutes = m.sleepMinutes
  maximum : start.brightnessMax = m.brightnessMax
  range : 8 ≤ start.pendingBrightness ∧ start.pendingBrightness ≤ m.brightnessMax

theorem Slides.touched {m start m' : CcModel F} {result : List CcResult × CcModel F}
    (h : Slides m start) (hset : LevelSet start result) (hsame : SameShown result.2 m')
    (hdrag : m.autoOn ≠ 0 → m'.draggingBrightness ≠ 0) (lifted : Bool) :
    Touched m m' ((if m.autoOn ≠ 0 then [⟨.setAuto, 0⟩] else []) ++ result.1 ++
      (if lifted then [⟨.saveSettings, 0⟩] else [])) := by
  have hslid : Touched m m' _ := .slid start.pendingBrightness lifted h.range.1 h.range.2
    (hsame.auto.trans (hset.auto.trans h.auto)) (hsame.brightness.trans hset.brightness)
    (hsame.minutes.trans (hset.minutes.trans h.minutes))
    (hsame.maximum.trans (hset.maximum.trans h.maximum)) hdrag
  rw [slideActions, ← h.brightness, ← hset.actions] at hslid
  exact hslid

theorem pressed_touched {m start : CcModel F} (h : Slides m start)
    (hdrag : m.autoOn ≠ 0 → start.draggingBrightness ≠ 0) (now : Int) :
    Touched m { (brightness start now).2 with lastDragPaintMs := now }
      ((if m.autoOn ≠ 0 then [⟨.setAuto, 0⟩] else []) ++ (brightness start now).1) := by
  have hset := brightness_spec start now
  have hpainted : SameShown (brightness start now).2
      { (brightness start now).2 with lastDragPaintMs := now } := ⟨rfl, rfl, rfl, rfl⟩
  have hheld (hon : m.autoOn ≠ 0) : (brightness start now).2.draggingBrightness ≠ 0 := by
    rw [hset.dragging]
    exact hdrag hon
  have hpressed := h.touched hset hpainted hheld false
  rwa [if_neg Bool.false_ne_true, List.append_nil] at hpressed

section Slide
variable [CFloat F]

theorem ccClose_same (m : CcModel F) (now : Int) : SameShown m (ccClose m now) := by
  have hrest : SameShown m (release (disarm m)) := (disarm_same m).trans (release_same _)
  rw [ccClose]
  split
  · exact hrest
  · exact hrest.trans ⟨rfl, rfl, rfl, rfl⟩

theorem ccClose_released (m : CcModel F) (now : Int) : (ccClose m now).draggingBrightness = 0 := by
  rw [ccClose]
  split <;> rfl

theorem ccOpen_same (m : CcModel F) (now : Int) :
    SameShown m (ccOpen m now) ∧ (ccOpen m now).draggingBrightness = m.draggingBrightness := by
  rw [ccOpen]
  split <;> exact ⟨⟨rfl, rfl, rfl, rfl⟩, rfl⟩

theorem ccTick_same (m : CcModel F) (now : Int) :
    SameShown m (ccTick m now) ∧ (ccTick m now).draggingBrightness = m.draggingBrightness := by
  have hslide : SameShown m (slideTick m now) := ⟨rfl, rfl, rfl, rfl⟩
  rw [ccTick]
  split
  · exact ⟨hslide.trans (disarm_same _), disarm_dragging _⟩
  · exact ⟨hslide, rfl⟩

theorem tapTile_touched {m : CcModel F} (tile : Capture) (now : Int)
    (hdrag : m.draggingBrightness = 0) :
    Touched m (tapTile m tile now).2 (tapTile m tile now).1 := by
  have hnone : Touched m m [] :=
    .kept (.refl m) (fun h => absurd hdrag h) (fun _ ha => nomatch ha) fun _ ha => nomatch ha
  cases tile with
  | auto =>
    refine .auto (if m.autoOn = 0 then 1 else 0) ?_ rfl rfl rfl rfl hdrag
    split
    · exact .inr rfl
    · exact .inl rfl
  | timer i => exact .minutes i rfl rfl rfl rfl fun h => absurd hdrag h
  | wifi =>
    refine .kept ⟨rfl, rfl, rfl, rfl⟩ (fun h => absurd hdrag h) ?_ ?_
    · intro a ha
      rw [List.mem_singleton.mp ha]
      rfl
    · intro a ha
      rw [List.mem_singleton.mp ha]
      exact CcAction.noConfusion
  | off =>
    refine .kept (ccClose_same m now) (fun h => absurd (ccClose_released m now) h) ?_ ?_
    · intro a ha
      rw [List.mem_singleton.mp ha]
      rfl
    · intro a ha
      rw [List.mem_singleton.mp ha]
      exact CcAction.noConfusion
  | rescue => exact tapReboot_touched 1 (.inl rfl) now hdrag
  | loader => exact tapReboot_touched 2 (.inr rfl) now hdrag
  | none => exact hnone
  | handle => exact hnone
  | bright => exact hnone
  | outside => exact hnone

theorem handleUp_touched (m : CcModel F) (e : TouchEvent F D) (now : Int) :
    Touched m (handleUp m e now).2 (handleUp m e now).1 := by
  have hnil : ∀ a ∈ ([] : List CcResult), a.action.plain = true := fun _ ha => nomatch ha
  rw [handleUp]
  split
  · exact .kept ((release_same m).trans (ccClose_same _ now))
      (fun h => absurd (ccClose_released _ now) h) hnil fun _ ha => nomatch ha
  split
  · exact .kept (release_same m) (release_manual m) hnil fun _ ha => nomatch ha
  · exact (tapTile_touched m.captureTile now rfl).of_same (release_same m)

end Slide

section Level
variable [CFloat F] [CFloat D] [CDouble F D]

/-- A quotient clamped to the ends of the slider. -/
theorem clamp_part [LawfulDouble F] {part : D} (hpart : isFinite part = true) :
    (lit 0 : D) ≤ (if lit 1 < (if part < lit 0 then lit 0 else part) then lit 1
      else if part < lit 0 then lit 0 else part) ∧
    (if lit 1 < (if part < lit 0 then lit 0 else part) then lit 1
      else if part < lit 0 then lit 0 else part) ≤ (lit 1 : D) := by
  have hone : isFinite (lit 1 : D) = true := LawfulDouble.isFinite_one F
  have hle : (lit 0 : D) ≤ lit 1 := LawfulDouble.zero_le_one F
  obtain ⟨low, hlow⟩ : ∃ low, low = if part < lit 0 then lit 0 else part := ⟨_, rfl⟩
  have hfinite : isFinite low = true ∧ lit 0 ≤ low := by
    rw [hlow]
    split
    · exact ⟨isFinite_zero, LawfulDouble.le_refl F isFinite_zero⟩
    · exact ⟨hpart, LawfulDouble.le_of_not_lt F hpart isFinite_zero ‹_›⟩
  rw [← hlow]
  split
  · exact ⟨hle, LawfulDouble.le_refl F hone⟩
  · exact ⟨hfinite.2, LawfulDouble.le_of_not_lt F hone hfinite.1 ‹_›⟩

/-- A level of the slider lies in its range. -/
theorem level_mem [LawfulShare D] [LawfulDouble F] {m : CcModel F} {y : F}
    (hmin : 8 ≤ m.brightnessMax) (hmax : m.brightnessMax < 2 ^ 31) (hy : isFinite y = true) :
    8 ≤ level m y ∧ level m y ≤ m.brightnessMax := by
  have hfinite : isFinite ((ofInt (ccBright.y + ccBright.h) - lit 1 - widen y) /
      (ofInt ccBright.h - lit 1) : D) = true :=
    LawfulDouble.isFinite_ratio (by decide) (by decide) (by decide) (by decide) hy
  obtain ⟨hlow, hhigh⟩ := clamp_part (F := F) hfinite
  obtain ⟨hscaled, hbound⟩ := LawfulShare.scale (n := m.brightnessMax - 8) hlow hhigh (by omega)
    (by omega)
  obtain ⟨hpos, hle⟩ := LawfulDouble.lround_mem F hscaled hbound (by omega) (by omega)
  rw [level]
  omega

/-- An event is handled, or the buffer is refused. -/
theorem ccHandleEvent_eq (m : CcModel F) (e : TouchEvent F D) (now : Int) (out : Bool) (max : Int) :
    ccHandleEvent m e now out max = (.ok (handle m e now).1, (handle m e now).2) ∨
      ∃ n, ccHandleEvent m e now out max = (.error n, m) := by
  rw [ccHandleEvent]
  split
  · exact .inr ⟨_, rfl⟩
  · exact .inl rfl

variable [LawfulShare D] [LawfulDouble F]

theorem handleDown_touched {m : CcModel F} (e : TouchEvent F D) (now : Int) (hdrag : DragManual m)
    (hmin : 8 ≤ m.brightnessMax) (hmax : m.brightnessMax < 2 ^ 31) (hy : isFinite e.y = true) :
    Touched m (handleDown m e now).2 (handleDown m e now).1 := by
  rw [handleDown]
  split
  · exact .kept ⟨rfl, rfl, rfl, rfl⟩ hdrag (fun _ ha => nomatch ha) fun _ ha => nomatch ha
  have hrange := level_mem (D := D) hmin hmax hy
  dsimp only
  split
  · rename_i hon
    have hslides : Slides m { m with
        captureSlot := e.slot
        captureTile := hit e.x e.y
        captureY := e.y
        captureAtMs := now
        draggingBrightness := 1
        autoOn := 0
        dirty := 1
        pendingBrightness := level m e.y } := ⟨rfl, rfl, rfl, rfl, hrange⟩
    have hpressed := pressed_touched hslides (fun _ => one_ne_zero) now
    rw [if_pos hon] at hpressed
    exact hpressed
  · rename_i hoff
    have hslides : Slides m { m with
        captureSlot := e.slot
        captureTile := hit e.x e.y
        captureY := e.y
        captureAtMs := now
        draggingBrightness := 1
        pendingBrightness := level m e.y } := ⟨not_not.mp hoff, rfl, rfl, rfl, hrange⟩
    have hpressed := pressed_touched hslides (fun hon => absurd hon hoff) now
    rw [if_neg hoff] at hpressed
    exact hpressed

theorem handleDrag_touched {m : CcModel F} (e : TouchEvent F D) (now : Int)
    (hdrag : m.draggingBrightness ≠ 0) (hmanual : DragManual m) (hmin : 8 ≤ m.brightnessMax)
    (hmax : m.brightnessMax < 2 ^ 31) (hy : isFinite e.y = true) :
    Touched m (handleDrag m e now).2 (handleDrag m e now).1 := by
  have hrange := level_mem (D := D) hmin hmax hy
  have hauto : m.autoOn = 0 := hmanual hdrag
  have hslides : Slides m { m with pendingBrightness := level m e.y } :=
    ⟨hauto, rfl, rfl, rfl, hrange⟩
  have hset := brightness_spec { m with pendingBrightness := level m e.y } now
  have hnone : ∀ a ∈ ([] : List CcResult), a.action.plain = true := fun _ ha => nomatch ha
  rw [handleDrag]
  dsimp only
  by_cases hup : e.kind = .up
  · have hlift := hslides.touched hset (release_same _) (fun hon => absurd hauto hon) true
    rw [if_neg (not_not.mpr hauto), List.nil_append, if_pos rfl] at hlift
    rw [if_pos (Or.inl hup), if_pos hup]
    exact hlift
  · rw [if_neg hup]
    split
    · have hmove := hslides.touched hset (.refl _) (fun hon => absurd hauto hon) false
      rw [if_neg (not_not.mpr hauto), List.nil_append, if_neg Bool.false_ne_true,
        List.append_nil] at hmove
      exact hmove
    · exact .kept ⟨rfl, rfl, rfl, rfl⟩ hmanual hnone fun _ ha => nomatch ha

/-- What one event does to the preferences on the panel. -/
theorem handle_touched {m : CcModel F} (e : TouchEvent F D) (now : Int) (hdrag : DragManual m)
    (hmin : 8 ≤ m.brightnessMax) (hmax : m.brightnessMax < 2 ^ 31) :
    Touched m (handle m e now).2 (handle m e now).1 := by
  have hkept : Touched m m [] :=
    .kept (.refl m) hdrag (fun _ ha => nomatch ha) fun _ ha => nomatch ha
  refine handle_cases (P := fun r => Touched m r.2 r.1) m e now ?unseen ?busy ?press ?stray ?cancel
    ?drag ?swipe ?hold ?lift
  case unseen => exact fun _ => hkept
  case busy => exact fun _ _ _ => hkept
  case press => exact fun hs _ _ => handleDown_touched e now hdrag hmin hmax hs.2.2
  case stray => exact fun _ _ _ => hkept
  case cancel =>
    exact fun _ _ _ => .kept (release_same m) (release_manual m) (fun _ ha => nomatch ha)
      fun _ ha => nomatch ha
  case drag => exact fun hs _ _ hd => handleDrag_touched e now hd hdrag hmin hmax hs.2.2
  case swipe =>
    exact fun _ _ _ _ => .kept (ccClose_same m now) (fun h => absurd (ccClose_released m now) h)
      (fun _ ha => nomatch ha) fun _ ha => nomatch ha
  case hold => exact fun _ _ _ => hkept
  case lift => exact fun _ _ _ _ => handleUp_touched m e now

end Level

end Taq102.Panel
