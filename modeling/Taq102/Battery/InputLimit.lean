import Mathlib.Tactic.IntervalCases
import Taq102.Battery.Supply

/-! The input current limit after an unplug: 450 mA, until somebody who knows of a better supply
raises it. -/
namespace Taq102.Battery
open Taq102.Lib Fallible Transition

/-- The limit that the chip has programmed, in mA. -/
def Device.limitMa (d : Device) : Nat := inputLimitMa (d.regs .usbCtrl)

section Program

/-- The walk stays where it is, or at an entry it passed. -/
theorem walkInputCur_mem (limitMa : Nat) (table : List (Nat × Nat)) (sel : Nat) :
    walkInputCur limitMa table sel ∈ sel :: table.map Prod.snd := by
  induction table generalizing sel with
  | nil => exact List.mem_cons_self
  | cons entry rest ih =>
    rw [walkInputCur]
    split
    · exact List.mem_cons_self
    · exact List.mem_cons_of_mem _ (ih entry.2)

theorem inputSelector_walk {limitMa : Nat} (h : 850 ≤ limitMa) :
    2 ≤ inputSelector limitMa ∧ inputSelector limitMa ≤ 7 := by
  have hmem := walkInputCur_mem limitMa (rk816InputCurMa.zipIdx.drop 2) 2
  have hrange : ∀ sel ∈ 2 :: (rk816InputCurMa.zipIdx.drop 2).map Prod.snd, 2 ≤ sel ∧ sel ≤ 7 := by
    decide
  rw [inputSelector, if_neg (by omega), if_neg (by omega)]
  exact hrange _ hmem

/-- The first field is selected for a request from 450 mA to below 850 mA. -/
theorem inputSelector_spec (limitMa : Nat) : inputSelector limitMa ≤ 7 ∧
    (inputSelector limitMa = 0 ↔ 450 ≤ limitMa ∧ limitMa < 850) := by
  by_cases hlow : limitMa < 450
  · rw [inputSelector, if_pos hlow]
    exact ⟨by omega, by omega⟩
  by_cases hhigh : limitMa < 850
  · rw [inputSelector, if_neg hlow, if_pos hhigh]
    exact ⟨by omega, by omega⟩
  · have hwalk := inputSelector_walk (Nat.le_of_not_lt hhigh)
    exact ⟨hwalk.2, by omega⟩

theorem field_of_write (old val : UInt8) :
    ((old &&& ~~~inputCurMsk) ||| (val &&& inputCurMsk)) &&& inputCurMsk = val &&& inputCurMsk := by
  apply UInt8.toBitVec_inj.mp
  ext i hi
  simp only [UInt8.toBitVec_and, UInt8.toBitVec_or, UInt8.toBitVec_not, BitVec.getElem_and,
    BitVec.getElem_or, BitVec.getElem_not]
  cases inputCurMsk.toBitVec[i] with
  | false => rw [Bool.and_false, Bool.and_false]
  | true => rw [Bool.not_true, Bool.and_false, Bool.false_or, Bool.and_true, Bool.and_true]

/-- Of the fields only the first is 450 mA. -/
theorem inputLimitMa_write (old : UInt8) {sel : Nat} (hsel : sel ≤ 7) :
    inputLimitMa ((old &&& ~~~inputCurMsk) ||| (UInt8.ofNat sel &&& inputCurMsk)) = 450 ↔
      sel = 0 := by
  rw [inputLimitMa, field_of_write]
  interval_cases sel <;> decide

variable {d : Device}

theorem setInputCurrent_quiet (hquiet : d.faults = []) {limitUa : Nat} (h : ¬ limitUa / 1000 < 80) :
    ∃ val, rk816BatSetInputCurrent limitUa d =
        (.ok (), { d with regs := Function.update d.regs .usbCtrl val }) ∧
      (inputLimitMa val = 450 ↔ 450 ≤ limitUa / 1000 ∧ limitUa / 1000 < 850) := by
  have hsel := inputSelector_spec (limitUa / 1000)
  refine ⟨_, ?_, (inputLimitMa_write (d.regs .usbCtrl) hsel.1).trans hsel.2⟩
  rw [rk816BatSetInputCurrent, if_neg h, regmapWriteBits, bind_of_ok (regmapRead_quiet hquiet _),
    regmapWrite, bind_of_ok (access_quiet hquiet)]
  rfl

/-- A request that leaves a limit of 450 mA alone: it selects that, or is refused. -/
def Modest (limitUa : Nat) : Prop :=
  450 ≤ limitUa / 1000 ∧ limitUa / 1000 < 850 ∨ limitUa / 1000 < 80

instance (limitUa : Nat) : Decidable (Modest limitUa) := inferInstanceAs (Decidable (_ ∧ _ ∨ _))

theorem setInputCurrent_limit (hquiet : d.faults = []) (limitUa : Nat) :
    (rk816BatSetInputCurrent limitUa d).2.limitMa = 450 ↔
      450 ≤ limitUa / 1000 ∧ limitUa / 1000 < 850 ∨ limitUa / 1000 < 80 ∧ d.limitMa = 450 := by
  by_cases hrefused : limitUa / 1000 < 80
  · rw [rk816BatSetInputCurrent, if_pos hrefused]
    change d.limitMa = 450 ↔ _
    exact ⟨fun h => .inr ⟨hrefused, h⟩, fun h => h.elim (fun hsel => by omega) And.right⟩
  · obtain ⟨val, hset, hval⟩ := setInputCurrent_quiet hquiet hrefused
    have hlimit : (rk816BatSetInputCurrent limitUa d).2.limitMa = inputLimitMa val := by
      rw [hset]
      change inputLimitMa (Function.update d.regs .usbCtrl val .usbCtrl) = _
      rw [Function.update_self]
    rw [hlimit, hval]
    omega

theorem setInputCurrent_faults (hquiet : d.faults = []) (limitUa : Nat) :
    (rk816BatSetInputCurrent limitUa d).2.faults = [] :=
  (preserves_setInputCurrent (lasting_quiet fun _ _ => True) (fun _ _ h => h) limitUa d
    ⟨hquiet, trivial⟩).1

end Program

/-! The contexts, where the accesses succeed. -/

section Contexts
variable {d : Device}

theorem plugOut_quiet (hquiet : d.faults = []) :
    (rk816PlugOutIsr d).2.faults = [] ∧ (rk816PlugOutIsr d).2.limitMa = 450 ∧
      (rk816PlugOutIsr d).2.cg.inputCurrentOverrideUa = 0 := by
  let expired : Device := { d with cg := { d.cg with inputCurrentOverrideUa := 0 } }
  have hlimit := (setInputCurrent_limit (d := expired) hquiet 450000).mpr (.inl (by decide))
  refine ⟨setInputCurrent_faults (d := expired) hquiet 450000, hlimit, ?_⟩
  rw [plugOut_cg]

theorem readProps_keeps (hquiet : d.faults = []) :
    (rk816BatReadProps d).2.faults = [] ∧ (rk816BatReadProps d).2.limitMa = d.limitMa ∧
      (d.cg.inputCurrentOverrideUa = 0 →
        (rk816BatReadProps d).2.cg.inputCurrentOverrideUa = 0) := by
  let Q (regs : Reg → UInt8) (cg : Rk816Charger) : Prop :=
    inputLimitMa (regs .usbCtrl) = d.limitMa ∧
      (d.cg.inputCurrentOverrideUa = 0 → cg.inputCurrentOverrideUa = 0)
  have hsupply : Preserves (Quiet Q) readSupply := by
    refine preserves_readSupply (lasting_quiet Q) (fun v e h => ?_) (fun _ _ h => h) (fun _ _ h => h)
      (fun _ _ h => h) (fun e h => ?_)
    · rw [storeVoltage]
      split
      · exact h
      · exact h
    · rw [presence]
      split
      · exact h
      split
      · exact ⟨h.1, h.2.1, fun _ => rfl⟩
      · exact h
  have hspares (reg : Reg) (hreg : reg ≠ .usbCtrl) : Spares (Quiet Q) reg := by
    intro e val h
    refine ⟨h.1, ?_, h.2.2⟩
    change inputLimitMa (Function.update e.regs reg val .usbCtrl) = d.limitMa
    rw [Function.update_of_ne hreg.symm]
    exact h.2.1
  have hcounter := preserves_counter (lasting_quiet Q)
    (fun reg hreg => hspares reg (by rintro rfl; cases hreg))
    (fun i => hspares (.gascntCal i) (by intro hreg; cases hreg)) fun _ _ h => h
  exact preserves_bind hsupply (fun _ => hcounter) d ⟨hquiet, rfl, id⟩

/-- A write of the limit that is refused changes neither the limit nor the override, but to expire
it. -/
theorem setProp_refused (hquiet : d.faults = []) (limit : Bool) (intval : Int) :
    (rk816UsbSetProp limit intval d).2.faults = [] ∧
      ((rk816UsbSetProp limit intval d).1.isOk = false →
        (rk816UsbSetProp limit intval d).2.limitMa = d.limitMa ∧
          (d.cg.inputCurrentOverrideUa = 0 →
            (rk816UsbSetProp limit intval d).2.cg.inputCurrentOverrideUa = 0)) := by
  rw [rk816UsbSetProp]
  split
  · exact ⟨hquiet, fun _ => ⟨rfl, id⟩⟩
  rw [overrideLimit, bind_of_ok (regmapRead_quiet hquiet _)]
  split
  · exact ⟨hquiet, fun _ => ⟨rfl, fun _ => rfl⟩⟩
  · let plugged : Device := { d with cg := { d.cg with pluggedIn := true } }
    have hplug : setCg (fun cg => { cg with pluggedIn := true }) d = (.ok (), plugged) := rfl
    rw [bind_of_ok hplug]
    by_cases hrefused : intval.toNat / 1000 < 80
    · have hset : rk816BatSetInputCurrent intval.toNat plugged = (.error einval, plugged) := by
        rw [rk816BatSetInputCurrent, if_pos hrefused]
        rfl
      rw [bind_of_error hset]
      exact ⟨hquiet, fun _ => ⟨rfl, id⟩⟩
    · obtain ⟨val, hset, _⟩ := setInputCurrent_quiet (d := plugged) hquiet hrefused
      rw [bind_of_ok hset]
      refine ⟨hquiet, fun hfailed => ?_⟩
      cases hfailed

/-- The limit that a cable work chooses when no override holds. -/
def chosenLimit (cg : Rk816Charger) (c : Classification) : Nat :=
  if c.dcp then cg.inputCurrentLimitUa else if c.cdp then 1500000 else 450000

theorem modest_chosen {cg : Rk816Charger} {c : Classification} :
    Modest (chosenLimit cg c) ↔
      ¬ (c.dcp = true ∧ ¬ Modest cg.inputCurrentLimitUa ∨ c.dcp = false ∧ c.cdp = true) := by
  rw [chosenLimit]
  cases c.dcp with
  | true => simp
  | false =>
    cases c.cdp with
    | true => exact iff_of_false (show ¬ Modest 1500000 by decide) (by simp)
    | false => exact iff_of_true (show Modest 450000 by decide) (by simp)

theorem updateCables_chosen (hover : d.cg.inputCurrentOverrideUa = 0) (c : Classification) :
    (rk816BatUpdateCables c d).2 = (rk816BatSetInputCurrent (chosenLimit d.cg c)
      { d with cg := { d.cg with acOnline := c.dcp, usbOnline := c.sdp || c.cdp } }).2 := by
  have hlimit : cableLimit { d.cg with acOnline := c.dcp, usbOnline := c.sdp || c.cdp } c =
      chosenLimit d.cg c := by
    rw [cableLimit, if_neg fun hoverridden => hoverridden.1 hover]
    rfl
  rw [← hlimit]
  rfl

end Contexts

/-! The runs after an unplug. -/

/-- The driver since an unplug was handled: whether the cable work that is under way read extcon
before that, and whether somebody who may has raised the limit since. -/
structure Watch where
  system : System
  stale : Bool
  raised : Bool

/-- A cable work raises the limit with a charging port that it saw after the unplug. -/
def Watch.cableStep (w : Watch) : Watch :=
  match w.system.cable with
  | .classified c =>
    { system := w.system.next .cable
      stale := false
      raised := w.raised || (!w.stale && (c.dcp || c.cdp)) }
  | .idle | .readSdp _ | .readDcp _ _ => { w with system := w.system.next .cable }

def Watch.next (w : Watch) : Step → Watch
  | .cable => w.cableStep
  | .setProp limit intval =>
    { w with
      system := w.system.next (.setProp limit intval)
      raised := w.raised || (rk816UsbSetProp limit intval w.system.device).1.isOk }
  | step => { w with system := w.system.next step }

/-- The moment the handler of the unplug has completed. -/
def unplugHandled (s : System) : Watch where
  system := s.next .plugOut
  stale := decide (s.cable ≠ .idle)
  raised := false

/-- The limit is 450 mA until it was raised. -/
def Held (w : Watch) : Prop := w.raised = false → w.system.device.limitMa = 450

instance (w : Watch) : Decidable (Held w) := inferInstanceAs (Decidable (_ → _))

/-- A cable work that began to read extcon before the unplug was handled takes the lock after it,
with a dedicated port whose limit is not 450 mA, or with a charging port of a computer. -/
def Misled (w : Watch) : Step → Prop
  | .cable => w.raised = false ∧ w.stale = true ∧ ∃ c, w.system.cable = .classified c ∧
      (c.dcp = true ∧ ¬ Modest w.system.device.cg.inputCurrentLimitUa ∨
        c.dcp = false ∧ c.cdp = true)
  | _ => False

/-- The accesses succeed, and no override outlives the unplug. -/
structure Expired (w : Watch) : Prop where
  quiet : w.system.device.faults = []
  override : w.raised = false → w.system.device.cg.inputCurrentOverrideUa = 0

section Runs
variable {w : Watch}

/-- The watch of a cable work that takes the lock, and of one that reads a state. -/
theorem watch_cableStep (w : Watch) :
    (∃ c, w.system.cable = .classified c ∧
      w.cableStep.raised = (w.raised || (!w.stale && (c.dcp || c.cdp))) ∧
        w.cableStep.system.device = (rk816BatUpdateCables c w.system.device).2) ∨
    ((∀ c, w.system.cable ≠ .classified c) ∧ w.cableStep.raised = w.raised ∧
      w.cableStep.system.device = w.system.device) := by
  have hsystem : w.cableStep.system = w.system.next .cable := by
    rw [Watch.cableStep]
    split <;> rfl
  rcases cableStep_device w.system with ⟨c, hcable, hdevice⟩ | ⟨hreading, hdevice⟩
  · refine .inl ⟨c, hcable, ?_, hsystem ▸ hdevice⟩
    rw [Watch.cableStep, hcable]
  · refine .inr ⟨hreading, ?_, hsystem ▸ hdevice⟩
    rw [Watch.cableStep]
    split
    · exact absurd ‹_› (hreading _)
    · rfl
    · rfl
    · rfl

theorem expired_next (h : Expired w) {step : Step}
    (hsmooth : ∀ outcomes, step = .bus outcomes → outcomes = []) : Expired (w.next step) := by
  cases step with
  | monitor =>
    obtain ⟨hquiet, _, hover⟩ := readProps_keeps h.quiet
    exact ⟨hquiet, fun hr => hover (h.override hr)⟩
  | plugIn => exact h
  | extcon => exact ⟨h.quiet, h.override⟩
  | hardware => exact ⟨h.quiet, h.override⟩
  | bus outcomes => exact ⟨hsmooth outcomes rfl, h.override⟩
  | plugOut =>
    obtain ⟨hquiet, _, hover⟩ := plugOut_quiet h.quiet
    exact ⟨hquiet, fun _ => hover⟩
  | setProp limit intval =>
    obtain ⟨hquiet, hrefused⟩ := setProp_refused h.quiet limit intval
    refine ⟨hquiet, fun hr => ?_⟩
    obtain ⟨hbefore, hfailed⟩ := Bool.or_eq_false_iff.mp hr
    exact (hrefused hfailed).2 (h.override hbefore)
  | cable =>
    change Expired w.cableStep
    rcases watch_cableStep w with ⟨c, _, hraised, hdevice⟩ | ⟨_, hraised, hdevice⟩
    · refine ⟨?_, fun hr => ?_⟩
      · rw [hdevice]
        exact setInputCurrent_faults
          (d := { w.system.device with cg :=
            { w.system.device.cg with acOnline := c.dcp, usbOnline := c.sdp || c.cdp } }) h.quiet _
      · rw [hraised] at hr
        rw [hdevice, updateCables_cg]
        exact h.override (Bool.or_eq_false_iff.mp hr).1
    · refine ⟨?_, fun hr => ?_⟩
      · rw [hdevice]
        exact h.quiet
      · rw [hraised] at hr
        rw [hdevice]
        exact h.override hr

theorem expired_unplugHandled {s : System} (hquiet : s.device.faults = []) :
    Expired (unplugHandled s) := by
  obtain ⟨hafter, _, hover⟩ := plugOut_quiet hquiet
  exact ⟨hafter, fun _ => hover⟩

/-- What a cable work does to the limit. -/
theorem held_cableStep (h : Expired w) (hheld : Held w) :
    Held w.cableStep ↔ ¬ Misled w .cable := by
  rcases watch_cableStep w with ⟨c, hc, hafter, hdevice⟩ | ⟨hreading, hafter, hdevice⟩
  · by_cases hraised : w.raised = true
    · rw [hraised, Bool.true_or] at hafter
      refine iff_of_true (fun hr => nomatch hafter.symm.trans hr) ?_
      rintro ⟨hr, _⟩
      exact nomatch hraised.symm.trans hr
    have hr : w.raised = false := eq_false_of_ne_true hraised
    have hlimit : w.cableStep.system.device.limitMa = 450 ↔
        Modest (chosenLimit w.system.device.cg c) := by
      rw [hdevice, updateCables_chosen (h.override hr), setInputCurrent_limit (by exact h.quiet)]
      exact or_congr Iff.rfl (and_iff_left (hheld hr))
    rw [Held, hlimit, hafter, hr, Bool.false_or, modest_chosen]
    constructor
    · rintro hkept ⟨_, hstale, c', hc', hmisled⟩
      cases hc.symm.trans hc'
      rw [hstale] at hkept
      exact hkept rfl hmisled
    · intro hfresh hunraised hmisled
      rcases Bool.and_eq_false_iff.mp hunraised with hstale | hport
      · exact hfresh ⟨hr, by rwa [Bool.not_eq_false'] at hstale, c, hc, hmisled⟩
      · obtain ⟨hdcp, hcdp⟩ := Bool.or_eq_false_iff.mp hport
        rcases hmisled with ⟨hd, _⟩ | ⟨_, hc⟩
        · exact nomatch hdcp.symm.trans hd
        · exact nomatch hcdp.symm.trans hc
  · refine iff_of_true ?_ ?_
    · rw [Held, hdevice, hafter]
      exact hheld
    · rintro ⟨_, _, c, hc, _⟩
      exact hreading c hc

/-- Only such a cable work takes the limit away from 450 mA. -/
theorem held_next (h : Expired w) (hheld : Held w) (step : Step) :
    Held (w.next step) ↔ ¬ Misled w step := by
  cases step with
  | plugIn => exact iff_of_true hheld id
  | extcon => exact iff_of_true hheld id
  | bus => exact iff_of_true hheld id
  | cable => exact held_cableStep h hheld
  | monitor =>
    refine iff_of_true (fun hr => ?_) id
    obtain ⟨_, hlimit, _⟩ := readProps_keeps h.quiet
    exact hlimit.trans (hheld hr)
  | hardware regs =>
    refine iff_of_true (fun hr => ?_) id
    change inputLimitMa (Function.update regs .usbCtrl _ .usbCtrl) = 450
    rw [Function.update_self]
    exact hheld hr
  | plugOut =>
    refine iff_of_true (fun _ => ?_) id
    exact (plugOut_quiet h.quiet).2.1
  | setProp limit intval =>
    refine iff_of_true (fun hr => ?_) id
    obtain ⟨hbefore, hfailed⟩ := Bool.or_eq_false_iff.mp hr
    obtain ⟨_, hrefused⟩ := setProp_refused h.quiet limit intval
    exact (hrefused hfailed).1.trans (hheld hbefore)

/-- After an unplug was handled, in a run whose accesses succeed, the limit stays at 450 mA until
somebody who may raises it, if and only if no cable work is misled by what it read before. -/
theorem unplugged_limit_iff {s : System} (hquiet : s.device.faults = []) (steps : List Step)
    (hsmooth : ∀ outcomes, .bus outcomes ∈ steps → outcomes = []) :
    Throughout Watch.next Held (unplugHandled s) steps ↔
      ∀ first step rest, steps = first ++ step :: rest →
        ¬ Misled (first.foldl Watch.next (unplugHandled s)) step := by
  have hkeeps (w : Watch) (step : Step) (h : Expired w)
      (hok : ∀ outcomes, step = .bus outcomes → outcomes = []) : Expired (w.next step) :=
    expired_next h hok
  have hexpired : Throughout Watch.next Expired (unplugHandled s) steps := by
    refine throughout_of_admitted (expired_unplugHandled hquiet) hkeeps ?_
    rintro first step rest rfl outcomes rfl
    exact hsmooth outcomes (List.mem_append_right _ List.mem_cons_self)
  have hheld : Held (unplugHandled s) := fun _ => (plugOut_quiet hquiet).2.1
  exact throughout_iff_within hheld hexpired fun _ step h hw => held_next h hw step

end Runs

section Cables

instance (w : Watch) (step : Step) : Decidable (Misled w step) :=
  match step with
  | .cable =>
    match hcable : w.system.cable with
    | .classified c =>
      decidable_of_iff (w.raised = false ∧ w.stale = true ∧
          (c.dcp = true ∧ ¬ Modest w.system.device.cg.inputCurrentLimitUa ∨
            c.dcp = false ∧ c.cdp = true)) (by
        constructor
        · rintro ⟨hr, hstale, hport⟩
          exact ⟨hr, hstale, c, hcable, hport⟩
        · rintro ⟨hr, hstale, c', hc, hport⟩
          cases hcable.symm.trans hc
          exact ⟨hr, hstale, hport⟩)
    | .idle | .readSdp _ | .readDcp _ _ => isFalse (by
        rintro ⟨_, _, c, hc, _⟩
        cases hcable.symm.trans hc)
  | .setProp _ _ | .monitor | .plugIn | .plugOut | .extcon _ _ | .hardware _ | .bus _ => isFalse id

/-- A wall charger that is pulled and plugged in again: the classification read after the unplug
raises the limit, and the poll between does not. -/
theorem replug_held : Throughout Watch.next Held (unplugHandled unplugged)
    [.monitor, .hardware powered, .plugIn, .extcon .dcp 1, .cable, .cable, .monitor, .cable,
      .cable] := by
  have hadmits : Admits Watch.next (fun w step => ¬ Misled w step) (unplugHandled unplugged)
      [.monitor, .hardware powered, .plugIn, .extcon .dcp 1, .cable, .cable, .monitor, .cable,
        .cable] := by
    decide +kernel
  exact (unplugged_limit_iff rfl _ (by simp)).mpr hadmits.at_split

/-- A wall charger is pulled after the cable work read its classification and before it takes the
lock: the limit ends at 1500 mA with nothing plugged in, and nobody raised it. -/
theorem late_cable_raises :
    ¬ Held ([.cable].foldl Watch.next (unplugHandled
      ([.hardware powered, .plugIn, .monitor, .extcon .dcp 1, .cable, .cable, .cable, .extcon .dcp 0,
        .hardware fun _ => 0].foldl System.next unplugged))) := by
  decide +kernel

end Cables

end Taq102.Battery
