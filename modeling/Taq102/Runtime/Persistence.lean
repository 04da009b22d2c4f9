import Taq102.Runtime.Brightness

/-! No preference is forgotten: what the runtime holds is in the file, or will be saved, or the
panel says that it was not saved. -/
namespace Taq102.Runtime
open Taq102.Lib CFloat Transition
open Panel (CcModel CcResult CcAction ccInit ccOpen ccClose ccTick ccHandleEvent)
open Touch (TouchEvent)

/-- The preferences, their file and what is known of it. -/
structure Store where
  settings : Settings
  path : CStr
  pending : Bool
  failed : Bool
  files : Files
  saved : List Settings

variable {F D : Type}

def store (w : World F) : Store where
  settings := w.runtime.settings
  path := w.runtime.settingsPath
  pending := w.runtime.settingsPending
  failed := w.runtime.settingsFailed
  files := w.files
  saved := w.saved

/-- Loading the file gives the preferences, or they are to be saved, or could not be saved. -/
def Store.Kept (s : Store) : Prop :=
  (settingsLoad s.path s.files .works).1 = s.settings ∨ s.pending = true ∨ s.failed = true

/-- Nothing was saved, and nothing was forgotten. -/
structure Quiet (s s' : Store) : Prop where
  saved : s'.saved = s.saved
  kept : s.Kept → s'.Kept

/-- The preferences were saved. -/
structure Wrote (s s' : Store) : Prop where
  saved : s'.saved = s.saved ++ [s'.settings]
  pending : s'.pending = false
  failed : s'.failed = false
  file : s'.files s'.path = some (contents s'.settings)

section Stores
variable {s s' s'' : Store}

theorem Quiet.refl (s : Store) : Quiet s s := ⟨rfl, id⟩

theorem Quiet.trans (h : Quiet s s') (h' : Quiet s' s'') : Quiet s s'' :=
  ⟨h'.saved.trans h.saved, fun hk => h'.kept (h.kept hk)⟩

theorem Wrote.after (h : Quiet s s') (h' : Wrote s' s'') : Wrote s s'' :=
  ⟨by rw [h'.saved, h.saved], h'.pending, h'.failed, h'.file⟩

theorem Quiet.changed (hsaved : s'.saved = s.saved) (hpending : s'.pending = true) : Quiet s s' :=
  ⟨hsaved, fun _ => .inr (.inl hpending)⟩

/-- What was saved is what a load gives exactly when the level is one the reader takes. -/
theorem Wrote.kept_iff (h : Wrote s s') (hauto : s'.settings.brightnessAuto = 0 ∨
    s'.settings.brightnessAuto = 1) (hlevel : 8 ≤ s'.settings.brightness)
    (hsleep : settingsValidSleep s'.settings.sleepMinutes = true) :
    s'.Kept ↔ s'.settings.brightness ≤ 255 := by
  have hload : settingsLoad s'.path s'.files .works = (settingsParse (contents s'.settings), .ok ()) := by
    simp only [settingsLoad, h.file]
  constructor
  · rintro (hsame | hpending | hfailed)
    · have hrange := (settingsLoad_loadable s'.path s'.files .works).brightness.2
      rwa [hsame] at hrange
    · rw [h.pending] at hpending
      cases hpending
    · rw [h.failed] at hfailed
      cases hfailed
  · intro hhigh
    have hparsed : settingsParse (contents s'.settings) = s'.settings :=
      settingsParse_contents ⟨hauto, ⟨hlevel, hhigh⟩, hsleep⟩
    refine .inl ?_
    rw [hload]
    dsimp only
    rw [hparsed]

end Stores

/-! What the parts of the runtime do to the store. -/

section Parts
variable {w : World F} {now : Int}

theorem store_apply (w : World F) (level : Int) (ok : Bool) : store (apply w level ok) = store w := by
  simp only [apply]
  split <;> rfl

theorem settingsSave_result (s : Settings) (path : CStr) (e : SaveEnv) (files : Files) :
    (settingsSave s path e files).1 = 0 ∨ (settingsSave s path e files).1 = -1 := by
  simp only [settingsSave]
  split
  · exact .inr rfl
  split
  · exact .inr rfl
  split
  · exact .inr rfl
  split
  · exact .inl rfl
  · exact .inr rfl

/-- A save succeeds, or says that it failed. -/
theorem store_save (w : World F) (e : SaveTry) :
    Quiet (store w) (store (save w e)) ∨ Wrote (store w) (store (save w e)) := by
  by_cases havailable : settingsStoreAvailable w.runtime.settingsPath e.store = true
  · rcases settingsSave_result w.runtime.settings w.runtime.settingsPath e.calls w.files with hok | hbad
    · refine .inr ⟨?_, rfl, ?_, ?_⟩
      · simp [store, save, havailable, hok]
      · simp [store, save, havailable, hok]
      · simp only [store, save, havailable, if_true]
        exact settingsSave_ok hok
    · refine .inl ⟨?_, fun _ => .inr (.inr ?_)⟩ <;> simp [store, save, havailable, hbad]
  · refine .inl ⟨?_, fun _ => .inr (.inr ?_)⟩ <;> simp [store, save, havailable]

theorem store_readStatus (w : World F) (e : ReadEnv) : store (readStatus w now e) = store w := rfl

theorem store_readouts (w : World F) (others : List Other) : store (readouts w others) = store w := rfl

theorem store_sleepTick (w : World F) (asleep : Bool) : store (sleepTick w now asleep) = store w := rfl

theorem store_pollWorker (w : World F) (others : List Other) :
    store (pollWorker w others) = store w := by
  rw [pollWorker]
  split <;> rfl

theorem store_postpone (w : World F) : store (postpone w now) = { store w with pending := true } := rfl

theorem store_setBrightness (w : World F) (arg : Int) (e : ActionEnv) :
    store (setBrightness w arg now e) =
      { store w with settings := { w.runtime.settings with brightness := arg }, pending := true } := by
  rw [setBrightness]
  dsimp only
  rw [store_postpone, store_apply]
  rfl

/-- Switching the level changes no other preference. -/
theorem store_switchLevel (w : World F) (arg : Int) (e : ActionEnv) : ∃ level,
    store (switchLevel w arg e) =
      { store w with settings := { w.runtime.settings with brightness := level } } := by
  rw [switchLevel]
  dsimp only
  split
  · refine ⟨w.runtime.panel.brightness, ?_⟩
    rw [store_apply]
    rfl
  · refine ⟨w.runtime.settings.brightness, ?_⟩
    rw [store_apply]
    rfl

theorem store_setAuto (w : World F) (arg now : Int) (e : ActionEnv) : ∃ level,
    store (setAuto w arg now e) = { store w with
      settings := { w.runtime.settings with brightnessAuto := arg, brightness := level }
      pending := true } := by
  obtain ⟨level, hlevel⟩ := store_switchLevel (autoSet w arg now) arg e
  refine ⟨level, ?_⟩
  have hswitched : store (setAuto w arg now e) =
      { store (switchLevel (autoSet w arg now) arg e) with pending := true } := rfl
  rw [hswitched, hlevel]
  rfl

theorem store_setSleepMinutes (w : World F) (arg : Int) : store (setSleepMinutes w arg now) =
    { store w with settings := { w.runtime.settings with sleepMinutes := arg }, pending := true } := rfl

theorem store_wifiToggle (w : World F) (arg : Int) (e : ActionEnv) :
    store (wifiToggle w arg e) = store w := by
  rw [wifiToggle]
  dsimp only
  split <;> rfl

/-- Reading the battery and the link leaves the store as the action left it. -/
theorem store_action (w : World F) (result : CcResult) (e : ActionEnv) :
    store (controlRuntimeAction w result now e) = store (takeAction w result now e) :=
  store_readouts _ _

/-- An action other than the save. -/
theorem quiet_action {result : CcResult} (h : result.action ≠ .saveSettings) (e : ActionEnv) :
    Quiet (store w) (store (controlRuntimeAction w result now e)) := by
  obtain ⟨action, arg⟩ := result
  rw [store_action, takeAction]
  cases action with
  | setBrightness =>
    dsimp only
    rw [store_setBrightness]
    exact .changed rfl rfl
  | setAuto =>
    obtain ⟨level, hlevel⟩ := store_setAuto w arg now e
    dsimp only
    rw [hlevel]
    exact .changed rfl rfl
  | setSleepMinutes =>
    dsimp only
    rw [store_setSleepMinutes]
    exact .changed rfl rfl
  | wifiToggle =>
    dsimp only
    rw [store_wifiToggle]
    exact .refl _
  | saveSettings => exact absurd rfl h
  | none => exact .refl _
  | sleepNow => exact .refl _
  | rebootRescue => exact .refl _
  | rebootLoader => exact .refl _

theorem quiet_takeActions {actions : List CcResult} (h : ∀ a ∈ actions, a.action ≠ .saveSettings)
    (e : Nat → ActionEnv) : Quiet (store w) (store (takeActions now actions e w)) := by
  induction actions generalizing w e with
  | nil => exact .refl _
  | cons a rest ih =>
    have hfirst : Quiet (store w) (store (controlRuntimeAction w a now (e 0))) :=
      quiet_action (h a List.mem_cons_self) (e 0)
    exact hfirst.trans (ih (fun b hb => h b (List.mem_cons_of_mem a hb)) fun i => e (i + 1))

theorem takeActions_append (first rest : List CcResult) (e : Nat → ActionEnv) :
    takeActions now (first ++ rest) e w =
      takeActions now rest (fun i => e (first.length + i)) (takeActions now first e w) := by
  induction first generalizing w e with
  | nil => simp [takeActions]
  | cons a first ih =>
    rw [List.cons_append, takeActions, takeActions, ih]
    simp only [List.length_cons, Nat.add_right_comm]

/-- Actions of which only the last one is a save. -/
theorem outcome_takeActions {actions before : List CcResult}
    (h : ∀ a ∈ before, a.action ≠ .saveSettings)
    (hactions : actions = before ∨ actions = before ++ [⟨.saveSettings, 0⟩]) (e : Nat → ActionEnv) :
    Quiet (store w) (store (takeActions now actions e w)) ∨
      Wrote (store w) (store (takeActions now actions e w)) := by
  have hquiet : Quiet (store w) (store (takeActions now before e w)) := quiet_takeActions h e
  rcases hactions with rfl | rfl
  · exact .inl hquiet
  · rw [takeActions_append]
    rcases store_save (takeActions now before e w) (e (before.length + 0)).save with hsave | hsave
    · exact .inl (hquiet.trans hsave)
    · exact .inr (hsave.after hquiet)

/-- The values that are not levels are ones the reader takes. -/
def Modes (s : Settings) : Prop :=
  (s.brightnessAuto = 0 ∨ s.brightnessAuto = 1) ∧ settingsValidSleep s.sleepMinutes = true

/-- The panel asks for such values only. -/
def ModeArg (a : CcResult) : Prop :=
  (a.action = .setAuto → a.arg = 0 ∨ a.arg = 1) ∧
    (a.action = .setSleepMinutes → settingsValidSleep a.arg = true)

theorem modes_action {result : CcResult} (h : Modes (store w).settings) (harg : ModeArg result)
    (e : ActionEnv) : Modes (store (controlRuntimeAction w result now e)).settings := by
  obtain ⟨action, arg⟩ := result
  rw [store_action, takeAction]
  cases action with
  | setBrightness =>
    dsimp only
    rw [store_setBrightness]
    exact h
  | setAuto =>
    obtain ⟨level, hlevel⟩ := store_setAuto w arg now e
    dsimp only
    rw [hlevel]
    exact ⟨harg.1 rfl, h.2⟩
  | setSleepMinutes =>
    dsimp only
    rw [store_setSleepMinutes]
    exact ⟨h.1, harg.2 rfl⟩
  | wifiToggle =>
    dsimp only
    rw [store_wifiToggle]
    exact h
  | saveSettings => exact h
  | none => exact h
  | sleepNow => exact h
  | rebootRescue => exact h
  | rebootLoader => exact h

theorem modes_takeActions {actions : List CcResult} (h : Modes w.runtime.settings)
    (hargs : ∀ a ∈ actions, ModeArg a) (e : Nat → ActionEnv) :
    Modes (takeActions now actions e w).runtime.settings := by
  induction actions generalizing w e with
  | nil => exact h
  | cons a rest ih =>
    exact ih (modes_action h (hargs a List.mem_cons_self) (e 0))
      (fun b hb => hargs b (List.mem_cons_of_mem a hb)) fun i => e (i + 1)

theorem modeArg_save : ModeArg ⟨.saveSettings, 0⟩ := ⟨nofun, nofun⟩

/-- The actions of one event: those that ask for a change, then at most one save. -/
theorem touched_shape {m m' : CcModel F} {actions : List CcResult}
    (h : Panel.Touched m m' actions) : (∀ a ∈ actions, ModeArg a) ∧
      ∃ before, (∀ a ∈ before, a.action ≠ .saveSettings) ∧
        (actions = before ∨ actions = before ++ [⟨.saveSettings, 0⟩]) := by
  cases h with
  | kept _ _ hplain hsave =>
    refine ⟨fun a ha => ⟨fun heq => ?_, fun heq => ?_⟩, actions, hsave, .inl rfl⟩
    · exact absurd (hplain a ha) (by rw [heq]; exact Bool.false_ne_true)
    · exact absurd (hplain a ha) (by rw [heq]; exact Bool.false_ne_true)
  | saved =>
    refine ⟨fun a ha => ?_, [], nofun, .inr rfl⟩
    rw [List.mem_singleton.mp ha]
    exact modeArg_save
  | auto v hv =>
    refine ⟨fun a ha => ?_, [⟨.setAuto, v⟩], fun a ha => ?_, .inr rfl⟩
    · rcases List.mem_pair.mp ha with rfl | rfl
      · exact ⟨fun _ => hv, nofun⟩
      · exact modeArg_save
    · rw [List.mem_singleton.mp ha]
      exact nofun
  | minutes i =>
    refine ⟨fun a ha => ?_, [⟨.setSleepMinutes, Panel.timerMinutes i⟩], fun a ha => ?_, .inr rfl⟩
    · rcases List.mem_pair.mp ha with rfl | rfl
      · have hminutes : ∀ i, settingsValidSleep (Panel.timerMinutes i) = true := by decide
        exact ⟨nofun, fun _ => hminutes i⟩
      · exact modeArg_save
    · rw [List.mem_singleton.mp ha]
      exact nofun
  | slid level lifted =>
    let before : List CcResult := (if m.autoOn ≠ 0 then [⟨.setAuto, 0⟩] else []) ++
      (if level ≠ m.brightness then [⟨.setBrightness, level⟩] else [])
    have hbefore : ∀ a ∈ before, a = ⟨.setAuto, 0⟩ ∨ a = ⟨.setBrightness, level⟩ := by
      intro a ha
      rcases List.mem_append.mp ha with ha | ha
      · split at ha
        · exact .inl (List.mem_singleton.mp ha)
        · cases ha
      · split at ha
        · exact .inr (List.mem_singleton.mp ha)
        · cases ha
    have hargs : ∀ a ∈ before, ModeArg a := by
      intro a ha
      rcases hbefore a ha with rfl | rfl
      · exact ⟨fun _ => .inl rfl, nofun⟩
      · exact ⟨nofun, nofun⟩
    have hsave : ∀ a ∈ before, a.action ≠ .saveSettings := by
      intro a ha
      rcases hbefore a ha with rfl | rfl
      · exact nofun
      · exact nofun
    cases lifted with
    | false =>
      have hshape : Panel.slideActions m level false = before := List.append_nil _
      rw [hshape]
      exact ⟨hargs, before, hsave, .inl rfl⟩
    | true =>
      refine ⟨fun a ha => ?_, before, hsave, .inr rfl⟩
      rcases List.mem_append.mp ha with ha | ha
      · exact hargs a ha
      · rw [List.mem_singleton.mp ha]
        exact modeArg_save

theorem store_decideAt (w : World F) (time : Int) (ok : Bool) :
    store (decideAt w time ok) = store w := by
  rw [decideAt]
  dsimp only
  split
  · rw [store_apply]
    rfl
  · rfl

theorem store_policyTick (w : World F) (asleep : Bool) (e : TickEnv) :
    store (policyTick w now asleep e) = store w := by
  rw [policyTick]
  split
  · have hturn : store (policyTurn w now e) = store w := by
      rw [policyTurn, store_decideAt]
      rfl
    have hdue : store (policyDue w now e) =
        store (if w.runtime.settings.brightnessAuto ≠ 0 then policyTurn w now e else w) := rfl
    rw [hdue]
    split
    · exact hturn
    · rfl
  · rfl

theorem store_statusTick (w : World F) (e : TickEnv) : store (statusTick w now e) = store w := by
  rw [statusTick]
  split
  · exact store_readStatus w e.bar
  · rfl

/-- What a call does to the store: nothing is forgotten, or the preferences are saved. -/
structure Handled (w w' : World F) : Prop where
  outcome : Quiet (store w) (store w') ∨ Wrote (store w) (store w')
  modes : Modes w.runtime.settings → Modes w'.runtime.settings

theorem handled_of_save {w' w'' : World F} {e : SaveTry} (h : store w' = store w)
    (hsave : store w'' = store (save w' e)) : Handled w w'' := by
  have htried := store_save w' e
  have hsettings : w''.runtime.settings = w.runtime.settings :=
    (congrArg Store.settings hsave).trans (congrArg Store.settings h)
  rw [h, ← hsave] at htried
  refine ⟨htried, fun hmodes => ?_⟩
  rw [hsettings]
  exact hmodes

theorem handled_of_same {w' : World F} (h : store w' = store w) : Handled w w' := by
  have hsettings : w'.runtime.settings = w.runtime.settings := congrArg Store.settings h
  refine ⟨?_, fun hmodes => ?_⟩
  · rw [h]
    exact .inl (.refl _)
  · rw [hsettings]
    exact hmodes

variable [CFloat F]

theorem handled_tick (w : World F) (asleep : Bool) (e : TickEnv) :
    Handled w (controlRuntimeTick w now asleep e) := by
  let before := policyTick (statusTick (pollWorker (w.withPanel (ccTick w.runtime.panel now))
    e.beforePoll) now e) now asleep e
  have hbefore : store before = store w := by
    rw [store_policyTick, store_statusTick, store_pollWorker]
    rfl
  have hafter : store (controlRuntimeTick w now asleep e) = store (saveTick before now e) := by
    rw [controlRuntimeTick, store_sleepTick, store_readouts]
  rw [saveTick] at hafter
  split at hafter
  · exact handled_of_save hbefore hafter
  · exact handled_of_same (hafter.trans hbefore)

theorem handled_sleep (w : World F) (e : SaveTry) : Handled w (controlRuntimeSleep w now e) := by
  rw [controlRuntimeSleep]
  dsimp only
  split
  · refine handled_of_save ?same rfl
    case same => rfl
  · exact handled_of_same rfl

variable [CFloat D] [CDouble F D] [LawfulShare D] [LawfulDouble F]

theorem handled_step (h : (levels w).Agree) (op : RuntimeOp F D) : Handled w (step w op) := by
  cases op with
  | tick now asleep e => exact handled_tick w asleep e
  | sleep now e => exact handled_sleep w e
  | touch event now out max e =>
    have hmanual : Panel.DragManual w.runtime.panel := fun hd => h.auto.trans (h.drag hd)
    have htouched := Panel.handle_touched event now hmanual (h.shown.1.trans h.shown.2) h.fits
    rw [step]
    rcases touchPanel_cases w event now out max e with hok | herror
    · obtain ⟨hargs, before, hbefore, hactions⟩ := touched_shape htouched
      rw [hok]
      exact ⟨outcome_takeActions (w := w.withPanel (Panel.handle w.runtime.panel event now).2) hbefore
          hactions e,
        fun hmodes => modes_takeActions (w := w.withPanel (Panel.handle w.runtime.panel event now).2)
          hmodes hargs e⟩
    · rw [herror]
      exact handled_of_same rfl
  | wake now ok => exact handled_of_same (store_apply _ _ ok)
  | openPanel now => exact handled_of_same rfl
  | closePanel now => exact handled_of_same rfl
  | tickPanel now => exact handled_of_same rfl
  | touchIdle now => exact handled_of_same rfl
  | disarm => exact handled_of_same rfl

omit [CFloat D] [CDouble F D] [LawfulShare D] [LawfulDouble F] in
/-- A file that is missing counts as the defaults. -/
theorem kept_freshWorld (e : InitEnv) (policy : PowerPolicy) :
    (store (freshWorld e policy now : World F)).Kept := by
  rcases hload : e.load with _ | _ | _
  · refine .inl ?_
    change (settingsLoad e.path e.files .works).1 = (settingsLoad e.path e.files e.load).1
    rw [hload]
  · refine .inr (.inr ?_)
    change openFailed e = true
    simp only [openFailed, settingsLoad, hload, Bool.not_false, Bool.true_or]
  · rcases hfile : e.files e.path with _ | file
    · refine .inl ?_
      change (settingsLoad e.path e.files .works).1 = (settingsLoad e.path e.files e.load).1
      simp only [settingsLoad, hload, hfile]
    · refine .inr (.inr ?_)
      change openFailed e = true
      simp only [openFailed, settingsLoad, hload, hfile, Bool.not_false, Bool.true_or]

omit [CFloat D] [CDouble F D] [LawfulShare D] [LawfulDouble F] in
theorem store_init {e : InitEnv} (h : controlRuntimeInit e now = some w) :
    ∃ policy, store w = store (freshWorld e policy now : World F) := by
  rw [controlRuntimeInit] at h
  split at h
  · cases h
  rename_i policy _
  split at h
  · cases h
  cases h
  refine ⟨policy, ?_⟩
  rw [store_readouts, store_apply, store_readStatus]

omit [CFloat D] [CDouble F D] [LawfulShare D] [LawfulDouble F] in
/-- A start keeps what it loaded, or knows that it could not. -/
theorem kept_init {e : InitEnv} (h : controlRuntimeInit e now = some w) :
    (store w).Kept ∧ w.saved = [] ∧ Modes w.runtime.settings := by
  obtain ⟨policy, hstore⟩ := store_init h
  have hloaded := settingsLoad_loadable e.path e.files e.load
  have hsettings : w.runtime.settings = (settingsLoad e.path e.files e.load).1 :=
    congrArg Store.settings hstore
  refine ⟨?_, congrArg Store.saved hstore, ?_⟩
  · rw [hstore]
    exact kept_freshWorld e policy
  · rw [hsettings]
    exact ⟨hloaded.auto, hloaded.sleep⟩

end Parts

/-! Runs. -/

section Runs
variable [CFloat F] [CFloat D] [CDouble F D] [LawfulShare D] [LawfulDouble F]

/-- In a run no preference is forgotten exactly when no save that succeeds is made while the level
is above 255. -/
theorem preferences_kept_iff {e : InitEnv} {now : Int} {w₀ : World F} (ops : List (RuntimeOp F D))
    (hinit : controlRuntimeInit e now = some w₀) :
    Throughout step (fun w => (store w).Kept) w₀ ops ↔
      ∀ s ∈ (ops.foldl step w₀).saved, s.brightness ≤ 255 := by
  obtain ⟨hkept, hsaved, hmodes⟩ := kept_init hinit
  have hrun (ops : List (RuntimeOp F D)) : (levels (ops.foldl step w₀)).Agree ∧
      Modes (ops.foldl step w₀).runtime.settings := by
    refine (run_foldl step w₀ ops).invariant (fun w => (levels w).Agree ∧ Modes w.runtime.settings)
      ⟨agree_init hinit, hmodes⟩ ?_
    rintro w op w' ⟨hagree, hmodes⟩ rfl
    exact ⟨agree_step hagree op, (handled_step hagree op).modes hmodes⟩
  induction ops using List.reverseRecOn with
  | nil =>
    rw [throughout_nil, List.foldl_nil, hsaved]
    exact iff_of_true hkept nofun
  | append_singleton ops op ih =>
    have hlast : (ops ++ [op]).foldl step w₀ = step (ops.foldl step w₀) op := by
      rw [List.foldl_append]
      rfl
    obtain ⟨hagree, hmodes⟩ := hrun (ops ++ [op])
    have hhandled := handled_step (hrun ops).1 op
    refine throughout_snoc.trans ?_
    rw [hlast] at hagree hmodes ⊢
    rcases hhandled.outcome with hquiet | hwrote
    · have hsaved : (step (ops.foldl step w₀) op).saved = (ops.foldl step w₀).saved := hquiet.saved
      rw [hsaved]
      constructor
      · rintro ⟨hbefore, _⟩
        exact ih.mp hbefore
      · intro hall
        have hbefore := ih.mpr hall
        exact ⟨hbefore, hquiet.kept (hbefore ops [] (List.append_nil _).symm)⟩
    · have hkept := hwrote.kept_iff hmodes.1 hagree.stored hmodes.2
      have hsaved : (step (ops.foldl step w₀) op).saved =
          (ops.foldl step w₀).saved ++ [(step (ops.foldl step w₀) op).runtime.settings] := hwrote.saved
      rw [hkept, hsaved]
      constructor
      · rintro ⟨hbefore, hnow⟩ s hs
        rcases List.mem_append.mp hs with hin | hin
        · exact ih.mp hbefore s hin
        · rw [List.mem_singleton.mp hin]
          exact hnow
      · intro hall
        exact ⟨ih.mpr fun s hs => hall s (List.mem_append_left _ hs),
          hall _ (List.mem_append_right _ List.mem_cons_self)⟩

end Runs

section Slider

instance (s : Store) : Decidable s.Kept :=
  inferInstanceAs (Decidable (_ = _ ∨ _ = _ ∨ _ = _))

/-- The slider is taken to a height of the screen and left there. -/
def slideTo (y : ℚ) : List (RuntimeOp ℚ ℚ) :=
  [.openPanel 0, .tick 200 false (quietTick noStatus),
    .touch { slot := 0, kind := .down, x := 770, y, t := 1 } 300 true 3 fun _ => quietAction,
    .touch { slot := 0, kind := .up, x := 770, y, t := 1 } 400 true 3 fun _ => quietAction]

/-- A backlight with a thousand levels. -/
def fineBacklight : Backlight := ⟨1000, by decide, by decide⟩

theorem started : (controlRuntimeInit (startEnv fineBacklight) 0 : Option (World ℚ)).isSome = true := by
  decide +kernel

theorem low_slide_kept :
    Throughout step (fun w => (store w).Kept)
      ((controlRuntimeInit (startEnv fineBacklight) 0 : Option (World ℚ)).get started) (slideTo 330) :=
  (preferences_kept_iff (slideTo 330) (Option.some_get started).symm).mpr (by decide +kernel)

/-- The highest level of such a backlight is saved, and loaded as the default. -/
theorem high_slide_forgotten :
    ¬ (store ((slideTo 80).foldl step
      ((controlRuntimeInit (startEnv fineBacklight) 0 : Option (World ℚ)).get started))).Kept := by
  decide +kernel

end Slider

end Taq102.Runtime
