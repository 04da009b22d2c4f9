import Taq102.Panel.Freshness
import Taq102.Runtime.Control

/-! Whatever a call of the runtime changes of what the panel paints, it marks. -/
namespace Taq102.Runtime
open Taq102.Lib CFloat Marking
open Panel (CcResult CcAction Marked marked_dirty marked_same handledActions ccClose ccTick ccHandleEvent
  ccClose_marked ccOpen_marked ccTick_marked ccHandleEvent_marked)
open Touch (TouchEvent)

variable {F D : Type}

theorem apply_marked (w : World F) (level : Int) (ok : Bool) :
    Marked w.runtime.panel (apply w level ok).runtime.panel := by
  unfold apply
  dsimp only
  generalize (if level > w.runtime.panel.brightnessMax then w.runtime.panel.brightnessMax else level) =
    applied
  split
  · exact Honest.refl _
  · by_cases hchanged : w.runtime.panel.brightness ≠ applied
    · exact marked_dirty (if_pos hchanged)
    · refine marked_same (if_neg hchanged) ?_
      rw [not_not] at hchanged
      unfold Panel.appearance
      dsimp only
      rw [hchanged]

theorem save_marked (w : World F) (e : SaveTry) : Marked w.runtime.panel (save w e).runtime.panel :=
  marked_dirty rfl

theorem readouts_marked (w : World F) (others : List Other) :
    Marked w.runtime.panel (readouts w others).runtime.panel := by
  unfold readouts
  dsimp only
  generalize workerBusy (elapse w.worker others) = busy
  by_cases hshown : shown w.runtime.panel ≠ shown (readoutsOf w.runtime busy)
  · exact marked_dirty (if_pos hshown)
  · refine marked_same (if_neg hshown) ?_
    rw [not_not] at hshown
    unfold shown at hshown
    simp only [Prod.mk.injEq] at hshown
    obtain ⟨⟨hcap, _, hlevel⟩, ⟨hword, haddr, hnote⟩, hwifi⟩ := hshown
    unfold Panel.appearance
    dsimp only
    rw [← hcap, ← hlevel, ← hword, ← haddr, ← hnote, ← hwifi]
    rfl

theorem decideAt_marked (w : World F) (time : Int) (ok : Bool) :
    Marked w.runtime.panel (decideAt w time ok).runtime.panel := by
  unfold decideAt
  dsimp only
  split
  · exact apply_marked _ _ _
  · exact Honest.refl _

theorem policyTick_marked (w : World F) (now : Int) (asleep : Bool) (e : TickEnv) :
    Marked w.runtime.panel (policyTick w now asleep e).runtime.panel := by
  unfold policyTick policyDue policyTurn
  dsimp only
  split
  · split
    · exact decideAt_marked (readStatus w now e.policy) _ _
    · exact Honest.refl _
  · exact Honest.refl _

theorem pollWorker_panel (w : World F) (others : List Other) :
    (pollWorker w others).runtime.panel = w.runtime.panel := by
  unfold pollWorker
  dsimp only
  split <;> rfl

theorem statusTick_panel (w : World F) (now : Int) (e : TickEnv) :
    (statusTick w now e).runtime.panel = w.runtime.panel := by
  unfold statusTick
  split <;> rfl

theorem saveTick_marked (w : World F) (now : Int) (e : TickEnv) :
    Marked w.runtime.panel (saveTick w now e).runtime.panel := by
  unfold saveTick
  split
  · exact save_marked w e.save
  · exact Honest.refl _

variable [CFloat F]

theorem controlRuntimeTick_marked (w : World F) (now : Int) (asleep : Bool) (e : TickEnv) :
    Marked w.runtime.panel (controlRuntimeTick w now asleep e).runtime.panel := by
  let ticked := pollWorker (w.withPanel (ccTick w.runtime.panel now)) e.beforePoll
  have hticked : Marked w.runtime.panel (statusTick ticked now e).runtime.panel := by
    rw [statusTick_panel, pollWorker_panel]
    exact ccTick_marked _ now
  have hdecided := hticked.trans (policyTick_marked (statusTick ticked now e) now asleep e)
  exact (hdecided.trans (saveTick_marked _ now e)).trans (readouts_marked _ e.readouts)

/-! The actions. Switching Auto only follows the panel, which was marked. -/

omit [CFloat F] in
theorem setBrightness_marked (w : World F) (arg now : Int) (e : ActionEnv) :
    Marked w.runtime.panel (setBrightness w arg now e).runtime.panel :=
  apply_marked _ _ _

omit [CFloat F] in
theorem setAuto_stays (w : World F) (arg now : Int) (e : ActionEnv) (h : w.runtime.panel.dirty ≠ 0) :
    (setAuto w arg now e).runtime.panel.dirty ≠ 0 := by
  have hswitch (w : World F) (h : w.runtime.panel.dirty ≠ 0) :
      (switchLevel w arg e).runtime.panel.dirty ≠ 0 := by
    unfold switchLevel
    dsimp only
    split
    · exact (apply_marked _ _ _).stays h
    · exact (apply_marked _ _ _).stays h
  unfold setAuto
  exact hswitch _ h

omit [CFloat F] in
theorem takeAction_marked (w : World F) (result : CcResult) (now : Int) (e : ActionEnv)
    (hauto : result.action = .setAuto → w.runtime.panel.dirty ≠ 0) :
    Marked w.runtime.panel (takeAction w result now e).runtime.panel := by
  unfold takeAction
  cases haction : result.action with
  | setBrightness => exact setBrightness_marked w result.arg now e
  | setAuto => exact Honest.of_dirty (setAuto_stays w result.arg now e (hauto haction))
  | setSleepMinutes => exact Honest.refl _
  | sleepNow => exact Honest.refl _
  | wifiToggle =>
    dsimp only
    unfold wifiToggle
    dsimp only
    split <;> exact Honest.refl _
  | rebootRescue => exact Honest.refl _
  | rebootLoader => exact Honest.refl _
  | saveSettings => exact save_marked w e.save
  | none => exact Honest.refl _

omit [CFloat F] in
theorem takeActions_marked (now : Int) (actions : List CcResult) (e : Nat → ActionEnv) (w : World F)
    (hauto : (∃ a ∈ actions, a.action = .setAuto) → w.runtime.panel.dirty ≠ 0) :
    Marked w.runtime.panel (takeActions now actions e w).runtime.panel := by
  induction actions generalizing e w with
  | nil => exact Honest.refl _
  | cons result rest ih =>
    have hfirst : Marked w.runtime.panel (controlRuntimeAction w result now (e 0)).runtime.panel :=
      (takeAction_marked w result now (e 0) fun h => hauto ⟨result, List.mem_cons_self, h⟩).trans
        (readouts_marked _ _)
    refine hfirst.trans (ih (fun i => e (i + 1)) _ ?_)
    rintro ⟨a, ha, haction⟩
    exact hfirst.stays (hauto ⟨a, List.mem_cons_of_mem _ ha, haction⟩)

theorem controlRuntimeSleep_marked (w : World F) (now : Int) (e : SaveTry) :
    Marked w.runtime.panel (controlRuntimeSleep w now e).runtime.panel := by
  have hclosed : Marked w.runtime.panel { ccClose w.runtime.panel now with slide := lit 0, slideFrom := lit 0 } :=
    (ccClose_marked _ now).trans (marked_same rfl rfl)
  unfold controlRuntimeSleep
  dsimp only
  split
  · exact hclosed.trans (save_marked _ e)
  · exact hclosed

omit [CFloat F] in
theorem controlRuntimeWake_marked (w : World F) (now : Int) (ok : Bool) :
    Marked w.runtime.panel (controlRuntimeWake w now ok).runtime.panel :=
  apply_marked _ _ _

variable [CFloat D] [CDouble F D]

theorem touchPanel_marked (w : World F) (event : TouchEvent F D) (now : Int) (out : Bool) (max : Int)
    (e : Nat → ActionEnv) : Marked w.runtime.panel (touchPanel w event now out max e).runtime.panel := by
  obtain ⟨hhandled, hauto⟩ := ccHandleEvent_marked w.runtime.panel event now out max
  exact hhandled.trans (takeActions_marked now (handledActions
    (ccHandleEvent w.runtime.panel event now out max).1) e _ hauto)

theorem step_marked (w : World F) (op : RuntimeOp F D) :
    Marked w.runtime.panel (step w op).runtime.panel := by
  cases op with
  | tick now asleep e => exact controlRuntimeTick_marked w now asleep e
  | touch event now out max e => exact touchPanel_marked w event now out max e
  | sleep now e => exact controlRuntimeSleep_marked w now e
  | wake now ok => exact controlRuntimeWake_marked w now ok
  | openPanel now => exact ccOpen_marked _ now
  | closePanel now => exact ccClose_marked _ now
  | tickPanel now => exact ccTick_marked _ now
  | touchIdle now => exact Honest.refl _
  | disarm => exact marked_dirty rfl

end Taq102.Runtime
