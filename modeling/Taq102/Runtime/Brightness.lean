import Taq102.Lib.Transition
import Taq102.Panel.Effect
import Taq102.Runtime.Control

/-! One brightness in four places: the panel, the preferences, the power policy and the backlight
agree after every call of the runtime. -/
namespace Taq102.Runtime
open Taq102.Lib CFloat CDouble Transition
open Panel (CcModel CcResult CcAction ccInit ccOpen ccClose ccTick ccHandleEvent)
open Touch (TouchEvent)

/-- The copies of the preferences and of the level. -/
structure Levels where
  auto : Int
  stored : Int
  minutes : Int
  panelAuto : Int
  shown : Int
  maximum : Int
  panelMinutes : Int
  dragging : Int
  idleMinutes : Int
  policy : PowerPolicy
  backlight : Option Backlight
  sent : List Int

variable {F D : Type}

def levels (w : World F) : Levels where
  auto := w.runtime.settings.brightnessAuto
  stored := w.runtime.settings.brightness
  minutes := w.runtime.settings.sleepMinutes
  panelAuto := w.runtime.panel.autoOn
  shown := w.runtime.panel.brightness
  maximum := w.runtime.panel.brightnessMax
  panelMinutes := w.runtime.panel.sleepMinutes
  dragging := w.runtime.panel.draggingBrightness
  idleMinutes := w.runtime.idle.minutes
  policy := w.runtime.policy
  backlight := w.runtime.backlight
  sent := w.sent

/-- The level goes to the panel and to the backlight. -/
def Levels.apply (l : Levels) (level : Int) : Levels :=
  if level < 8 then l
  else
    { l with
      shown := min level l.maximum
      sent := match l.backlight with
        | some backlight => l.sent ++ [backlightSet backlight.max (min level l.maximum)]
        | none => l.sent }

/-- What holds of the copies even while a level is on its way. -/
structure Levels.Base (l : Levels) : Prop where
  panelMinutes : l.panelMinutes = l.minutes
  idleMinutes : l.idleMinutes = l.minutes
  maximum : l.maximum = maximumOf l.backlight
  policyMax : l.policy.maxLevel = l.maximum
  sound : l.policy.Sound
  stored : 8 ≤ l.stored
  fits : l.maximum < 2 ^ 31

/-- What holds of the copies between the calls. -/
structure Levels.Agree (l : Levels) : Prop extends l.Base where
  auto : l.panelAuto = l.auto
  manual : l.auto = 0 → l.shown = min l.stored l.maximum
  automatic : l.auto ≠ 0 → l.policy.Decided → l.shown = powerPolicyLevel l.policy
  sent : l.backlight.isSome → l.sent.getLast? = some l.shown
  shown : 8 ≤ l.shown ∧ l.shown ≤ l.maximum
  drag : l.dragging ≠ 0 → l.auto = 0

/-- The copies agree once a level is applied. -/
structure Levels.Awaits (l : Levels) (level : Int) : Prop extends l.Base where
  auto : l.panelAuto = l.auto
  manual : l.auto = 0 → min level l.maximum = min l.stored l.maximum
  automatic : l.auto ≠ 0 → l.policy.Decided → min level l.maximum = powerPolicyLevel l.policy
  level : 8 ≤ level
  drag : l.dragging ≠ 0 → l.auto = 0

section Apply
variable {l : Levels} {level : Int}

theorem Levels.Base.range (h : l.Base) : 8 ≤ l.maximum := by
  rw [← h.policyMax]
  exact h.sound.maximum

theorem Levels.apply_small (h : level < 8) : l.apply level = l := if_pos h

theorem backlightSet_mem {maximum : Int} (hlow : 8 ≤ level) (hhigh : level ≤ maximum) :
    backlightSet maximum level = level := by
  simp only [backlightSet]
  rw [if_neg (not_lt.mpr hlow), if_neg (not_lt.mpr hhigh)]

theorem Levels.apply_sent (h : l.Base) (hlevel : 8 ≤ level) (hready : l.backlight.isSome = true) :
    (l.apply level).sent.getLast? = some (l.apply level).shown := by
  obtain ⟨backlight, hsome⟩ := Option.isSome_iff_exists.mp hready
  have hbound : l.maximum = backlight.max := by rw [h.maximum, hsome]; rfl
  have hset : backlightSet backlight.max (min level l.maximum) = min level l.maximum :=
    backlightSet_mem (le_min hlevel h.range) (by rw [← hbound]; exact min_le_right _ _)
  rw [Levels.apply, if_neg (not_lt.mpr hlevel)]
  simp only [hsome, hset, List.getLast?_concat]

theorem Levels.Awaits.agree (h : l.Awaits level) : (l.apply level).Agree := by
  have happly : l.apply level = { l with
      shown := min level l.maximum
      sent := (l.apply level).sent } := by
    rw [Levels.apply, if_neg (not_lt.mpr h.level)]
  have hsent := Levels.apply_sent h.toBase h.level
  rw [happly] at hsent ⊢
  exact {
    panelMinutes := h.panelMinutes
    idleMinutes := h.idleMinutes
    maximum := h.maximum
    policyMax := h.policyMax
    sound := h.sound
    stored := h.stored
    fits := h.fits
    auto := h.auto
    manual := h.manual
    automatic := h.automatic
    sent := hsent
    shown := ⟨le_min h.level h.range, min_le_right _ _⟩
    drag := h.drag }

/-- Applying the level that is shown changes nothing. -/
theorem Levels.Agree.awaits_shown (h : l.Agree) : l.Awaits l.shown where
  toBase := h.toBase
  auto := h.auto
  manual hm := by rw [min_eq_left h.shown.2]; exact h.manual hm
  automatic ha hd := by rw [min_eq_left h.shown.2]; exact h.automatic ha hd
  level := h.shown.1
  drag := h.drag

/-- A level that a drag has put on the panel becomes the stored one. -/
theorem Levels.Base.awaits_manual (h : l.Base) (hlevel : 8 ≤ level) (hauto : l.auto = 0)
    (hpanel : l.panelAuto = 0) : Levels.Awaits { l with stored := level } level where
  panelMinutes := h.panelMinutes
  idleMinutes := h.idleMinutes
  maximum := h.maximum
  policyMax := h.policyMax
  sound := h.sound
  stored := hlevel
  fits := h.fits
  auto := hpanel.trans hauto.symm
  manual _ := rfl
  automatic hon := absurd hauto hon
  level := hlevel
  drag _ := hauto

/-- A policy that differs in its window only. -/
theorem Levels.Base.with_policy (h : l.Base) {policy : PowerPolicy} (hsame : SameLevels l.policy policy) :
    Levels.Base { l with policy } where
  panelMinutes := h.panelMinutes
  idleMinutes := h.idleMinutes
  maximum := h.maximum
  policyMax := hsame.maximum.trans h.policyMax
  sound := hsame.sound h.sound
  stored := h.stored
  fits := h.fits

theorem Levels.Agree.with_policy (h : l.Agree) {policy : PowerPolicy}
    (hsame : SameLevels l.policy policy) : Levels.Agree { l with policy } where
  toBase := h.toBase.with_policy hsame
  auto := h.auto
  manual := h.manual
  automatic ha hd := (h.automatic ha (hsame.decided.mp hd)).trans hsame.level.symm
  sent := h.sent
  shown := h.shown
  drag := h.drag

/-- What a step of the policy answers leaves the copies agreeing, once its level is applied. -/
theorem Levels.Agree.decide (h : l.Agree) (hauto : l.auto ≠ 0) {answer : Int × PowerPolicy}
    (ha : Answers l.policy answer) :
    (8 ≤ answer.1 → (Levels.apply { l with policy := answer.2 } answer.1).Agree) ∧
      (¬ 8 ≤ answer.1 → Levels.Agree { l with policy := answer.2 }) := by
  have hbase : Levels.Base { l with policy := answer.2 } := {
    panelMinutes := h.panelMinutes
    idleMinutes := h.idleMinutes
    maximum := h.maximum
    policyMax := ha.maximum.trans h.policyMax
    sound := ha.sound
    stored := h.stored
    fits := h.fits }
  rcases ha.cases with ⟨hnone, hsame, hdecided⟩ | ⟨hlevel, hdecided⟩
  · refine ⟨fun hlow => absurd hlow (by omega), fun _ => {
      toBase := hbase
      auto := h.auto
      manual := h.manual
      automatic := fun hon hd => (h.automatic hon (hdecided hd)).trans hsame.symm
      sent := h.sent
      shown := h.shown
      drag := h.drag }⟩
  · obtain ⟨hlow, hhigh⟩ := ha.sound.effective hdecided
    rw [hlevel]
    refine ⟨fun _ => Levels.Awaits.agree {
      toBase := hbase
      auto := h.auto
      manual := fun hoff => absurd hoff hauto
      automatic := fun _ _ => min_eq_left ?_
      level := hlow
      drag := h.drag }, fun hsmall => absurd hlow hsmall⟩
    rw [← hbase.policyMax]
    exact hhigh

/-- Auto switched on or off without a drag. -/
theorem Levels.Agree.switch (h : l.Agree) {v : Int} :
    (Levels.apply { l with auto := v, panelAuto := v, dragging := 0 }
      (if v ≠ 0 then powerPolicyLevel l.policy else l.stored)).Agree := by
  have hbase : Levels.Base { l with auto := v, panelAuto := v, dragging := 0 } := {
    panelMinutes := h.panelMinutes
    idleMinutes := h.idleMinutes
    maximum := h.maximum
    policyMax := h.policyMax
    sound := h.sound
    stored := h.stored
    fits := h.fits }
  by_cases hon : v ≠ 0
  · rw [if_pos hon]
    by_cases hdecided : l.policy.Decided
    · obtain ⟨hlow, hhigh⟩ := h.sound.effective hdecided
      refine Levels.Awaits.agree {
        toBase := hbase
        auto := rfl
        manual := fun hoff => absurd hoff hon
        automatic := fun _ _ => min_eq_left ?_
        level := hlow
        drag := fun hd => absurd rfl hd }
      rw [← hbase.policyMax]
      exact hhigh
    · have hidle : powerPolicyLevel l.policy < 8 := by
        rw [powerPolicyLevel, h.sound.idle hdecided]
        decide
      rw [Levels.apply_small hidle]
      exact {
        toBase := hbase
        auto := rfl
        manual := fun hoff => absurd hoff hon
        automatic := fun _ hd => absurd hd hdecided
        sent := h.sent
        shown := h.shown
        drag := fun hd => absurd rfl hd }
  · rw [if_neg hon]
    exact Levels.Awaits.agree {
      toBase := hbase
      auto := rfl
      manual := fun _ => rfl
      automatic := fun hne => absurd hne hon
      level := h.stored
      drag := fun hd => absurd rfl hd }

end Apply

/-! What the parts of the runtime do to the copies. -/

section Parts
variable {w : World F}

theorem min_eq_if (a b : Int) : (if a > b then b else a) = min a b := by
  split <;> omega

theorem levels_apply (w : World F) (level : Int) (ok : Bool) :
    levels (apply w level ok) = (levels w).apply level := by
  have hmin : (if level > w.runtime.panel.brightnessMax then w.runtime.panel.brightnessMax else level) =
      min level (levels w).maximum := min_eq_if level w.runtime.panel.brightnessMax
  simp only [apply, Levels.apply, hmin]
  split <;> rfl

@[simp] theorem levels_readouts (w : World F) (others : List Other) :
    levels (readouts w others) = levels w := rfl

@[simp] theorem levels_save (w : World F) (e : SaveTry) : levels (save w e) = levels w := rfl

@[simp] theorem levels_pollWorker (w : World F) (others : List Other) :
    levels (pollWorker w others) = levels w := by
  rw [pollWorker]
  split <;> rfl

theorem resetDeadline_minutes (timer : SleepTimer) (now : Int) :
    (resetDeadline timer now).minutes = timer.minutes := rfl

theorem noticeUnplugged_minutes (r : ControlRuntime F) (next : Status) (now : Int) :
    (noticeUnplugged r next now).minutes = r.idle.minutes := by
  rw [noticeUnplugged]
  split
  · exact resetDeadline_minutes _ _
  · rfl

@[simp] theorem levels_readStatus (w : World F) (now : Int) (e : ReadEnv) :
    levels (readStatus w now e) = levels w := by
  have hidle := noticeUnplugged_minutes w.runtime e.sample now
  simp only [levels, readStatus, hidle]

@[simp] theorem levels_postpone (w : World F) (now : Int) : levels (postpone w now) = levels w := rfl

theorem levels_setBrightness (w : World F) (arg now : Int) (e : ActionEnv) :
    levels (setBrightness w arg now e) = Levels.apply { levels w with stored := arg } arg := by
  rw [setBrightness, levels_postpone, levels_apply]
  rfl

theorem levels_switchLevel (w : World F) (arg : Int) (e : ActionEnv) :
    levels (switchLevel w arg e) =
      if arg = 0 ∧ (levels w).dragging ≠ 0 then
        Levels.apply { levels w with stored := (levels w).shown } (levels w).shown
      else (levels w).apply (if arg ≠ 0 then powerPolicyLevel (levels w).policy else (levels w).stored) := by
  rw [switchLevel]
  dsimp only
  split
  · rename_i hdrag
    rw [levels_apply]
    exact (if_pos hdrag).symm
  · rename_i hdrag
    rw [levels_apply]
    exact (if_neg hdrag).symm

theorem levels_wifiToggle (w : World F) (arg : Int) (e : ActionEnv) :
    levels (wifiToggle w arg e) = levels w := by
  rw [wifiToggle]
  dsimp only
  split <;> rfl

/-- An action that leaves the preferences alone leaves the copies alone. -/
theorem levels_plain {result : CcResult} (h : result.action.plain = true) (w : World F) (now : Int)
    (e : ActionEnv) : levels (controlRuntimeAction w result now e) = levels w := by
  rw [controlRuntimeAction, levels_readouts, takeAction]
  obtain ⟨action, arg⟩ := result
  cases action
  case wifiToggle => exact levels_wifiToggle w arg e
  case setBrightness | setAuto | setSleepMinutes => cases h
  all_goals rfl

theorem levels_takeActions_plain {actions : List CcResult} (now : Int) (e : Nat → ActionEnv)
    (w : World F) (h : ∀ a ∈ actions, a.action.plain = true) :
    levels (takeActions now actions e w) = levels w := by
  induction actions generalizing w e with
  | nil => rfl
  | cons a rest ih =>
    have hfirst := levels_plain (h a List.mem_cons_self) w now (e 0)
    exact (ih _ _ fun b hb => h b (List.mem_cons_of_mem a hb)).trans hfirst

/-- The runtime in which `setAuto` switches the level. -/
def autoSet (w : World F) (arg now : Int) : World F :=
  { w with runtime := { w.runtime with
    settings := { w.runtime.settings with brightnessAuto := arg }
    panel := { w.runtime.panel with autoOn := arg }
    policy := (powerPolicyStep w.runtime.policy w.runtime.status now true).2 } }

theorem levels_setAuto (w : World F) (arg now : Int) (e : ActionEnv) :
    levels (setAuto w arg now e) = levels (switchLevel (autoSet w arg now) arg e) := rfl

theorem agree_withPanel (h : (levels w).Agree) {m : CcModel F} (hsame : Panel.SameShown w.runtime.panel m)
    (hdrag : Panel.DragManual m) : (levels (w.withPanel m)).Agree where
  panelMinutes := hsame.minutes.trans h.panelMinutes
  idleMinutes := h.idleMinutes
  maximum := hsame.maximum.trans h.maximum
  policyMax := h.policyMax.trans hsame.maximum.symm
  sound := h.sound
  stored := h.stored
  fits := by
    change m.brightnessMax < 2 ^ 31
    rw [hsame.maximum]
    exact h.fits
  auto := hsame.auto.trans h.auto
  manual hoff := by
    change m.brightness = min _ m.brightnessMax
    rw [hsame.brightness, hsame.maximum]
    exact h.manual hoff
  automatic hon hd := hsame.brightness.trans (h.automatic hon hd)
  sent hready := (h.sent hready).trans (congrArg some hsame.brightness.symm)
  shown := by
    change 8 ≤ m.brightness ∧ m.brightness ≤ m.brightnessMax
    rw [hsame.brightness, hsame.maximum]
    exact h.shown
  drag hd := (hsame.auto.trans h.auto).symm.trans (hdrag hd)

section Touches
variable {m : CcModel F} {now : Int}

/-- A tap on Auto. -/
theorem agree_auto (h : (levels w).Agree) (v : Int)
    (hbright : m.brightness = w.runtime.panel.brightness)
    (hminutes : m.sleepMinutes = w.runtime.panel.sleepMinutes)
    (hmax : m.brightnessMax = w.runtime.panel.brightnessMax) (hdrag : m.draggingBrightness = 0)
    (e : ActionEnv) : (levels (setAuto (w.withPanel m) v now e)).Agree := by
  have hpolicy := powerPolicyStep_asleep w.runtime.policy w.runtime.status now
  have hlevels : levels (autoSet (w.withPanel m) v now) =
      { levels w with
        policy := (powerPolicyStep w.runtime.policy w.runtime.status now true).2
        auto := v
        panelAuto := v
        dragging := 0 } := by
    simp only [levels, autoSet, World.withPanel, hbright, hminutes, hmax, hdrag]
  have hstill : ¬ (v = 0 ∧ (levels (autoSet (w.withPanel m) v now)).dragging ≠ 0) := by
    rw [hlevels]
    exact fun hd => hd.2 rfl
  rw [levels_setAuto, levels_switchLevel, if_neg hstill, hlevels]
  exact (h.with_policy hpolicy).switch

/-- What the panel shows once the slider has moved. -/
structure Slid (w : World F) (m : CcModel F) (level : Int) : Prop where
  auto : m.autoOn = 0
  brightness : m.brightness = level
  minutes : m.sleepMinutes = w.runtime.panel.sleepMinutes
  maximum : m.brightnessMax = w.runtime.panel.brightnessMax

theorem Slid.base {level : Int} (hs : Slid w m level) (h : (levels w).Agree) :
    (levels (w.withPanel m)).Base where
  panelMinutes := hs.minutes.trans h.panelMinutes
  idleMinutes := h.idleMinutes
  maximum := hs.maximum.trans h.maximum
  policyMax := h.policyMax.trans hs.maximum.symm
  sound := h.sound
  stored := h.stored
  fits := by
    change m.brightnessMax < 2 ^ 31
    rw [hs.maximum]
    exact h.fits

/-- The slider taken while Auto was on. -/
theorem agree_drag {level : Int} (hs : Slid w m level) (h : (levels w).Agree) (hlevel : 8 ≤ level)
    (hdrag : m.draggingBrightness ≠ 0) (e : ActionEnv) :
    (levels (setAuto (w.withPanel m) 0 now e)).Agree := by
  have hpolicy := powerPolicyStep_asleep w.runtime.policy w.runtime.status now
  have hbase : (levels (autoSet (w.withPanel m) 0 now)).Base := {
    (hs.base h).with_policy hpolicy with }
  have hheld : (0 : Int) = 0 ∧ (levels (autoSet (w.withPanel m) 0 now)).dragging ≠ 0 := ⟨rfl, hdrag⟩
  have hshown : (levels (autoSet (w.withPanel m) 0 now)).shown = level := hs.brightness
  rw [levels_setAuto, levels_switchLevel, if_pos hheld, hshown]
  exact (hbase.awaits_manual hlevel rfl rfl).agree

/-- The level that a slider sets. -/
theorem agree_level {level : Int} (hbase : (levels w).Base) (hlevel : 8 ≤ level)
    (hauto : (levels w).auto = 0) (hpanel : (levels w).panelAuto = 0) (e : ActionEnv) :
    (levels (setBrightness w level now e)).Agree := by
  rw [levels_setBrightness]
  exact (hbase.awaits_manual hlevel hauto hpanel).agree

theorem agree_controlRuntimeAction {result : CcResult} {e : ActionEnv}
    (h : (levels (takeAction w result now e)).Agree) :
    (levels (controlRuntimeAction w result now e)).Agree := by
  rw [controlRuntimeAction, levels_readouts]
  exact h

theorem agree_plain (h : (levels w).Agree) {actions : List CcResult}
    (hplain : ∀ a ∈ actions, a.action.plain = true) (e : Nat → ActionEnv) :
    (levels (takeActions now actions e w)).Agree := by
  rw [levels_takeActions_plain now e w hplain]
  exact h

/-- The actions after the level was set: at most a save. -/
theorem agree_lifted (h : (levels w).Agree) (lifted : Bool) (e : Nat → ActionEnv) :
    (levels (takeActions now (if lifted then [⟨.saveSettings, 0⟩] else []) e w)).Agree := by
  refine agree_plain h (fun a ha => ?_) e
  cases lifted
  · cases ha
  · rw [List.mem_singleton.mp ha]
    rfl

/-- The level that a slide sets, and the save. -/
theorem agree_slide {level : Int} (hbase : (levels w).Base) (hlevel : 8 ≤ level)
    (hauto : (levels w).auto = 0) (hpanel : (levels w).panelAuto = 0) {before : Int}
    (hsame : level = before → (levels w).Agree) (lifted : Bool) (e : Nat → ActionEnv) :
    (levels (takeActions now ((if level ≠ before then [⟨.setBrightness, level⟩] else []) ++
      (if lifted then [⟨.saveSettings, 0⟩] else [])) e w)).Agree := by
  by_cases hne : level ≠ before
  · have hset : (levels (controlRuntimeAction w ⟨.setBrightness, level⟩ now (e 0))).Agree :=
      agree_controlRuntimeAction (agree_level hbase hlevel hauto hpanel (e 0))
    rw [if_pos hne]
    exact agree_lifted hset lifted _
  · rw [if_neg hne]
    exact agree_lifted (hsame (not_not.mp hne)) lifted e

/-- The actions of one event bring the copies together again. -/
theorem agree_touched (h : (levels w).Agree) {actions : List CcResult}
    (ht : Panel.Touched w.runtime.panel m actions) (e : Nat → ActionEnv) :
    (levels (takeActions now actions e (w.withPanel m))).Agree := by
  cases ht with
  | kept hsame hdrag hplain _ => exact agree_plain (agree_withPanel h hsame hdrag) hplain e
  | saved hsame hdrag =>
    refine agree_plain (agree_withPanel h hsame hdrag) (fun a ha => ?_) e
    rw [List.mem_singleton.mp ha]
    rfl
  | auto v _ _ hbright hminutes hmax hdrag =>
    have hset : (levels (controlRuntimeAction (w.withPanel m) ⟨.setAuto, v⟩ now (e 0))).Agree :=
      agree_controlRuntimeAction (agree_auto h v hbright hminutes hmax hdrag (e 0))
    exact agree_lifted hset true fun i => e (i + 1)
  | minutes i hauto hbright hminutes hmax hdrag =>
    have hpanel : (levels (w.withPanel { m with sleepMinutes := w.runtime.panel.sleepMinutes })).Agree :=
      agree_withPanel h ⟨hauto, hbright, rfl, hmax⟩ hdrag
    have hset : (levels (setSleepMinutes (w.withPanel m) (Panel.timerMinutes i) now)).Agree := {
      hpanel with
      panelMinutes := hminutes
      idleMinutes := rfl }
    have hdone : (levels (controlRuntimeAction (w.withPanel m)
        ⟨.setSleepMinutes, Panel.timerMinutes i⟩ now (e 0))).Agree :=
      agree_controlRuntimeAction hset
    exact agree_lifted hdone true fun i => e (i + 1)
  | slid level lifted hlow _ hoff hbright hminutes hmax hdrag =>
    have hs : Slid w m level := ⟨hoff, hbright, hminutes, hmax⟩
    by_cases hon : w.runtime.panel.autoOn ≠ 0
    · have hset : (levels (controlRuntimeAction (w.withPanel m) ⟨.setAuto, 0⟩ now (e 0))).Agree :=
        agree_controlRuntimeAction (agree_drag hs h hlow (hdrag hon) (e 0))
      have hauto : (levels (controlRuntimeAction (w.withPanel m) ⟨.setAuto, 0⟩ now (e 0))).auto = 0 := by
        rw [controlRuntimeAction, levels_readouts]
        change (levels (setAuto _ 0 now (e 0))).auto = 0
        rw [levels_setAuto, levels_switchLevel, if_pos ⟨rfl, hdrag hon⟩]
        rw [Levels.apply]
        split <;> rfl
      have hslide : (levels (takeActions now
          ((if level ≠ w.runtime.panel.brightness then [⟨.setBrightness, level⟩] else []) ++
            (if lifted then [⟨.saveSettings, 0⟩] else [])) (fun i => e (i + 1))
          (controlRuntimeAction (w.withPanel m) ⟨.setAuto, 0⟩ now (e 0)))).Agree :=
        agree_slide hset.toBase hlow hauto (hset.auto.trans hauto) (fun _ => hset) lifted _
      rw [Panel.slideActions, if_pos hon]
      exact hslide
    · have hwas : (levels w).auto = 0 := h.auto.symm.trans (not_not.mp hon)
      rw [Panel.slideActions, if_neg hon, List.nil_append]
      refine agree_slide (hs.base h) hlow hwas hoff (fun hsame => ?_) lifted e
      exact agree_withPanel h ⟨hoff.trans (not_not.mp hon).symm, hbright.trans hsame, hminutes, hmax⟩
        fun _ => hoff

end Touches

/-! The calls. -/

section Calls
variable {now : Int}

theorem agree_readStatus (h : (levels w).Agree) (e : ReadEnv) : (levels (readStatus w now e)).Agree := by
  rw [levels_readStatus]
  exact h

theorem agree_save (h : (levels w).Agree) (e : SaveTry) : (levels (save w e)).Agree := h

theorem agree_decideAt (h : (levels w).Agree) (hauto : (levels w).auto ≠ 0) (time : Int) (ok : Bool) :
    (levels (decideAt w time ok)).Agree := by
  obtain ⟨happlied, hsilent⟩ :=
    h.decide hauto (powerPolicyStep_answers h.sound w.runtime.status time false)
  rw [decideAt]
  dsimp only
  split
  · rename_i hlow
    rw [levels_apply]
    exact happlied hlow
  · rename_i hlow
    exact hsilent hlow

theorem agree_policyTurn (h : (levels w).Agree) (hauto : (levels w).auto ≠ 0) (e : TickEnv) :
    (levels (policyTurn w now e)).Agree := by
  have hon : (levels (readStatus w now e.policy)).auto ≠ 0 := by
    rw [levels_readStatus]
    exact hauto
  exact agree_decideAt (agree_readStatus h e.policy) hon _ _

theorem agree_policyTick (h : (levels w).Agree) (asleep : Bool) (e : TickEnv) :
    (levels (policyTick w now asleep e)).Agree := by
  rw [policyTick]
  split
  · rw [policyDue]
    dsimp only
    split
    · rename_i hauto
      exact agree_policyTurn h hauto e
    · exact h
  · exact h

theorem agree_statusTick (h : (levels w).Agree) (e : TickEnv) :
    (levels (statusTick w now e)).Agree := by
  rw [statusTick]
  split
  · exact agree_readStatus h e.bar
  · exact h

theorem agree_saveTick (h : (levels w).Agree) (e : TickEnv) :
    (levels (saveTick w now e)).Agree := by
  rw [saveTick]
  split
  · exact agree_save h e.save
  · exact h

theorem agree_wake (h : (levels w).Agree) (ok : Bool) :
    (levels (controlRuntimeWake w now ok)).Agree := by
  rw [controlRuntimeWake, levels_apply]
  exact h.awaits_shown.agree

variable [CFloat F]

theorem agree_ccTick (h : (levels w).Agree) :
    (levels (w.withPanel (ccTick w.runtime.panel now))).Agree := by
  obtain ⟨hsame, hdrag⟩ := Panel.ccTick_same w.runtime.panel now
  refine agree_withPanel h hsame fun hd => ?_
  rw [hdrag] at hd
  exact hsame.auto.trans (h.auto.trans (h.drag hd))

theorem agree_tick (h : (levels w).Agree) (asleep : Bool) (e : TickEnv) :
    (levels (controlRuntimeTick w now asleep e)).Agree := by
  have hpolled : (levels (pollWorker (w.withPanel (ccTick w.runtime.panel now)) e.beforePoll)).Agree := by
    rw [levels_pollWorker]
    exact agree_ccTick h
  exact agree_saveTick (agree_policyTick (agree_statusTick hpolled e) asleep e) e

theorem agree_sleep (h : (levels w).Agree) (e : SaveTry) :
    (levels (controlRuntimeSleep w now e)).Agree := by
  have hclosed : (levels (w.withPanel { ccClose w.runtime.panel now with
      slide := lit 0
      slideFrom := lit 0 })).Agree := by
    obtain ⟨hauto, hbright, hminutes, hmax⟩ := Panel.ccClose_same w.runtime.panel now
    exact agree_withPanel h ⟨hauto, hbright, hminutes, hmax⟩ fun hd =>
      absurd (Panel.ccClose_released w.runtime.panel now) hd
  have hpolicy := hclosed.with_policy
    (powerPolicyStep_asleep w.runtime.policy w.runtime.status now)
  rw [controlRuntimeSleep]
  dsimp only
  split
  · exact agree_save hpolicy e
  · exact hpolicy

theorem maximumOf_mem (backlight : Option Backlight) :
    8 ≤ maximumOf backlight ∧ maximumOf backlight < 2 ^ 31 := by
  cases backlight with
  | none => exact ⟨by decide, by decide⟩
  | some backlight => exact ⟨backlight.usable, backlight.fits⟩

/-- The copies before the first level is applied. -/
theorem awaits_freshWorld {policy : PowerPolicy} (e : InitEnv)
    (hpolicy : policy.Sound ∧ policy.maxLevel = maximumOf e.backlight ∧ ¬ policy.Decided) :
    (levels (freshWorld e policy now : World F)).Awaits
      (initialLevel e (settingsLoad e.path e.files e.load).1) := by
  obtain ⟨hmin, hfits⟩ := maximumOf_mem e.backlight
  obtain ⟨hauto, ⟨hlow, _⟩, hsleep⟩ := settingsLoad_loadable e.path e.files e.load
  have hmax : (levels (freshWorld e policy now : World F)).maximum = maximumOf e.backlight :=
    if_neg (not_lt.mpr hmin)
  have hminutes : (settingsLoad e.path e.files e.load).1.sleepMinutes = 0 ∨
      (settingsLoad e.path e.files e.load).1.sleepMinutes = 1 ∨
      (settingsLoad e.path e.files e.load).1.sleepMinutes = 5 ∨
      (settingsLoad e.path e.files e.load).1.sleepMinutes = 15 := by
    simpa [settingsValidSleep, or_assoc] using hsleep
  refine {
    panelMinutes := if_pos hminutes
    idleMinutes := rfl
    maximum := hmax
    policyMax := hpolicy.2.1.trans hmax.symm
    sound := hpolicy.1
    stored := hlow
    fits := ?_
    auto := ?_
    manual := ?_
    automatic := fun _ hd => absurd hd hpolicy.2.2
    level := ?_
    drag := fun hd => absurd rfl hd }
  · rw [hmax]
    exact hfits
  · change (if (settingsLoad e.path e.files e.load).1.brightnessAuto ≠ 0 then (1 : Int) else 0) = _
    rcases hauto with hoff | hon
    · rw [if_neg (not_not.mpr hoff)]
      exact hoff.symm
    · rw [if_pos (by rw [hon]; exact one_ne_zero)]
      exact hon.symm
  · intro hoff
    rw [initialLevel, if_neg fun hon => hon.1 hoff]
    rfl
  · rw [initialLevel]
    split
    · rename_i hready
      exact hready.2.2
    · exact hlow

/-- The copies agree once the runtime is there. -/
theorem agree_init {e : InitEnv} (h : controlRuntimeInit e now = some w) : (levels w).Agree := by
  rw [controlRuntimeInit] at h
  split at h
  · cases h
  rename_i policy hnew
  split at h
  · cases h
  cases h
  have hawaits : (levels (freshWorld e policy now : World F)).Awaits _ :=
    awaits_freshWorld e (powerPolicyNew_sound hnew)
  rw [levels_readouts, levels_apply, levels_readStatus]
  exact hawaits.agree

variable [CFloat D] [CDouble F D]

/-- The panel takes the event, or its buffer is refused. -/
theorem touchPanel_cases (w : World F) (event : TouchEvent F D) (now : Int) (out : Bool) (max : Int)
    (e : Nat → ActionEnv) :
    touchPanel w event now out max e = takeActions now (Panel.handle w.runtime.panel event now).1 e
        (w.withPanel (Panel.handle w.runtime.panel event now).2) ∨
      touchPanel w event now out max e = w := by
  rw [touchPanel]
  rcases Panel.ccHandleEvent_eq w.runtime.panel event now out max with hok | ⟨n, herror⟩
  · rw [hok]
    exact .inl rfl
  · rw [herror]
    exact .inr rfl

variable [LawfulShare D] [LawfulDouble F]

/-- One call keeps the copies together. -/
theorem agree_step (h : (levels w).Agree) (op : RuntimeOp F D) : (levels (step w op)).Agree := by
  cases op with
  | tick now asleep e => exact agree_tick h asleep e
  | touch event now out max e =>
    have hmanual : Panel.DragManual w.runtime.panel := fun hd => h.auto.trans (h.drag hd)
    have htouched := Panel.handle_touched event now hmanual (h.shown.1.trans h.shown.2) h.fits
    rw [step]
    rcases touchPanel_cases w event now out max e with hok | herror
    · rw [hok]
      exact agree_touched h htouched e
    · rw [herror]
      exact h
  | sleep now e => exact agree_sleep h e
  | wake now ok => exact agree_wake h ok
  | openPanel now =>
    obtain ⟨hsame, hdrag⟩ := Panel.ccOpen_same w.runtime.panel now
    refine agree_withPanel h hsame fun hd => ?_
    rw [hdrag] at hd
    exact hsame.auto.trans (h.auto.trans (h.drag hd))
  | closePanel now =>
    exact agree_withPanel h (Panel.ccClose_same _ now) fun hd => absurd (Panel.ccClose_released _ now) hd
  | tickPanel now => exact agree_ccTick h
  | touchIdle now => exact h
  | disarm =>
    exact agree_withPanel h ⟨rfl, rfl, rfl, rfl⟩ fun hd => h.auto.trans (h.drag hd)

end Calls

end Parts

/-! Runs. -/

/-- The copies of the preferences and of the level agree. -/
structure Consistent (w : World F) : Prop where
  auto : w.runtime.panel.autoOn = w.runtime.settings.brightnessAuto
  panelMinutes : w.runtime.panel.sleepMinutes = w.runtime.settings.sleepMinutes
  idleMinutes : w.runtime.idle.minutes = w.runtime.settings.sleepMinutes
  manual : w.runtime.settings.brightnessAuto = 0 →
    w.runtime.panel.brightness = min w.runtime.settings.brightness w.runtime.panel.brightnessMax
  automatic : w.runtime.settings.brightnessAuto ≠ 0 → w.runtime.policy.Decided →
    w.runtime.panel.brightness = powerPolicyLevel w.runtime.policy
  sent : w.runtime.backlight.isSome → w.sent.getLast? = some w.runtime.panel.brightness

section Runs
variable [CFloat F] [CFloat D] [CDouble F D] [LawfulShare D] [LawfulDouble F]

/-- After every call of the runtime the panel, the preferences, the timer, the policy and the
backlight agree. -/
theorem run_consistent {e : InitEnv} {now : Int} {w₀ w : World F} {ops : List (RuntimeOp F D)}
    (hinit : controlRuntimeInit e now = some w₀) (hrun : Run (Fires step) w₀ ops w) :
    Consistent w := by
  have hagree : (levels w).Agree :=
    hrun.invariant (fun w => (levels w).Agree) (agree_init hinit) fun w op w' h hstep => by
      rw [hstep]
      exact agree_step h op
  exact ⟨hagree.auto, hagree.panelMinutes, hagree.idleMinutes, hagree.manual, hagree.automatic,
    hagree.sent⟩

end Runs

theorem slid_consistent : ∃ w₀ : World ℚ,
    controlRuntimeInit (startEnv ⟨255, by decide, by decide⟩) 0 = some w₀ ∧
      Consistent (([.openPanel 0, .tick 200 false (quietTick noStatus),
        .touch { slot := 0, kind := .down, x := 770, y := 300, t := 1 } 300 true 3
          fun _ => quietAction,
        .sleep 400 goodSave, .wake 500 true] : List (RuntimeOp ℚ ℚ)).foldl step w₀) := by
  have hsome : (controlRuntimeInit (startEnv ⟨255, by decide, by decide⟩) 0 : Option (World ℚ)).isSome =
      true := by decide +kernel
  obtain ⟨w₀, hinit⟩ := Option.isSome_iff_exists.mp hsome
  exact ⟨w₀, hinit, run_consistent hinit (run_foldl step w₀ _)⟩

end Taq102.Runtime
