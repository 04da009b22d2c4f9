import Mathlib.Order.Bounds.Basic
import Mathlib.Tactic.IntervalCases
import Taq102.Battery.InputLimit
import Taq102.Battery.Probe

/-! The limits the charger is programmed with never exceed the ones asked for. -/
namespace Taq102.Battery
open Taq102.Lib Fallible

/-- The walk over an ascending table ends at the last entry within the limit, if there is one. -/
theorem walkInputCur_spec (limit : Nat) {table : List Nat} (hasc : table.Pairwise (· < ·)) (i sel : Nat) :
    (walkInputCur limit (table.zipIdx i) sel = sel ∧ ∀ t ∈ table, limit < t) ∨
      ∃ j, walkInputCur limit (table.zipIdx i) sel = i + j ∧
        IsGreatest {t | t ∈ table ∧ t ≤ limit} (table.getD j 0) := by
  induction table generalizing i sel with
  | nil => exact .inl ⟨rfl, fun t ht => by cases ht⟩
  | cons a rest ih =>
    obtain ⟨hfirst, hrest⟩ := List.pairwise_cons.mp hasc
    rw [List.zipIdx_cons, walkInputCur]
    by_cases hstop : limit < a
    · refine .inl ⟨if_pos hstop, fun t ht => ?_⟩
      rcases List.mem_cons.mp ht with rfl | hmem
      · exact hstop
      · exact hstop.trans (hfirst t hmem)
    · rw [if_neg hstop]
      refine .inr ?_
      rcases ih hrest (i + 1) i with ⟨hwalk, habove⟩ | ⟨j, hwalk, ⟨hmem, hle⟩, hgreatest⟩
      · refine ⟨0, hwalk, ⟨List.mem_cons_self, Nat.le_of_not_lt hstop⟩, ?_⟩
        rintro t ⟨ht, htle⟩
        rcases List.mem_cons.mp ht with rfl | hmem
        · exact Nat.le_refl t
        · exact absurd htle (Nat.not_le.mpr (habove t hmem))
      · refine ⟨j + 1, by omega, ⟨List.mem_cons_of_mem a hmem, hle⟩, ?_⟩
        rintro t ⟨ht, htle⟩
        rcases List.mem_cons.mp ht with rfl | hmem'
        · exact (hfirst _ hmem).le
        · exact hgreatest ⟨hmem', htle⟩

/-- The walk over a whole table whose first entry is within the limit. -/
theorem walk_greatest {limit : Nat} {table : List Nat} (hasc : table.Pairwise (· < ·))
    (hfirst : ∃ t ∈ table, t ≤ limit) : IsGreatest {t | t ∈ table ∧ t ≤ limit}
      (table.getD (walkInputCur limit table.zipIdx 0) 0) := by
  rcases walkInputCur_spec limit hasc 0 0 with ⟨_, habove⟩ | ⟨j, hwalk, hgreatest⟩
  · obtain ⟨t, ht, hle⟩ := hfirst
    exact absurd hle (Nat.not_le.mpr (habove t ht))
  · rw [hwalk, Nat.zero_add]
    exact hgreatest

theorem inputSelector_greatest {limitMa : Nat} (h : 80 ≤ limitMa) :
    IsGreatest {t | t ∈ rk816InputCurMa ∧ t ≤ limitMa}
      (rk816InputCurMa.getD (inputSelector limitMa) 0) := by
  have hentries : ∀ t ∈ rk816InputCurMa, t = 80 ∨ t = 450 ∨ t ∈ rk816InputCurMa.drop 2 := by decide
  have hrange : ∀ t ∈ rk816InputCurMa.drop 2, 850 ≤ t := by decide
  by_cases hlow : limitMa < 450
  · rw [inputSelector, if_pos hlow]
    refine ⟨⟨by decide, h⟩, ?_⟩
    rintro t ⟨ht, hle⟩
    change t ≤ 80
    rcases hentries t ht with rfl | rfl | hmem
    · exact Nat.le_refl 80
    · omega
    · have hbig := hrange t hmem
      omega
  by_cases hmid : limitMa < 850
  · rw [inputSelector, if_neg hlow, if_pos hmid]
    refine ⟨⟨by decide, Nat.le_of_not_lt hlow⟩, ?_⟩
    rintro t ⟨ht, hle⟩
    change t ≤ 450
    rcases hentries t ht with rfl | rfl | hmem
    · decide
    · exact Nat.le_refl 450
    · have hbig := hrange t hmem
      omega
  · have hsplit : rk816InputCurMa.zipIdx.drop 2 = (rk816InputCurMa.drop 2).zipIdx 2 := rfl
    rw [inputSelector, if_neg hlow, if_neg hmid, hsplit]
    have hasc : (rk816InputCurMa.drop 2).Pairwise (· < ·) := by decide
    rcases walkInputCur_spec limitMa hasc 2 2 with ⟨_, habove⟩ | ⟨j, hwalk, ⟨hmem, hle⟩, hgreatest⟩
    · exact absurd (habove 850 (by decide)) (by omega)
    · have hentry : rk816InputCurMa.getD (2 + j) 0 = (rk816InputCurMa.drop 2).getD j 0 := by
        rw [List.getD_eq_getElem?_getD, List.getD_eq_getElem?_getD, List.getElem?_drop]
      rw [hwalk, hentry]
      refine ⟨⟨List.mem_of_mem_drop hmem, hle⟩, ?_⟩
      rintro t ⟨ht, htle⟩
      have hbig := hrange _ hmem
      rcases hentries t ht with rfl | rfl | hmem'
      · omega
      · omega
      · exact hgreatest ⟨hmem', htle⟩

theorem bits_of_write (old val msk : UInt8) :
    ((old &&& ~~~msk) ||| (val &&& msk)) &&& msk = val &&& msk ∧
      ((old &&& ~~~msk) ||| (val &&& msk)) &&& ~~~msk = old &&& ~~~msk := by
  constructor <;> apply UInt8.toBitVec_inj.mp <;> ext i hi <;>
    simp only [UInt8.toBitVec_and, UInt8.toBitVec_or, UInt8.toBitVec_not, BitVec.getElem_and,
      BitVec.getElem_or, BitVec.getElem_not] <;>
    cases msk.toBitVec[i] <;> simp

theorem regmapWrite_eq (reg : Reg) (val : UInt8) (d : Device) :
    (d.faults.headD 0 = 0 ∧ regmapWrite reg val d =
        (.ok (), { d with regs := Function.update d.regs reg val, faults := d.faults.tail })) ∨
      (d.faults.headD 0 ≠ 0 ∧
        regmapWrite reg val d = (.error (d.faults.headD 0), { d with faults := d.faults.tail })) := by
  rcases access_eq d with ⟨hok, haccess⟩ | ⟨herror, haccess⟩
  · refine .inl ⟨hok, ?_⟩
    rw [regmapWrite, bind_of_ok haccess]
    rfl
  · exact .inr ⟨herror, bind_of_error haccess⟩

/-- A write of some bits either fails and leaves the registers, or leaves every other bit. -/
theorem regmapWriteBits_eq (reg : Reg) (msk val : UInt8) (d : Device) :
    (∃ e, regmapWriteBits reg msk val d = (.ok (), e) ∧ e.regs reg &&& msk = val &&& msk ∧
        e.regs reg &&& ~~~msk = d.regs reg &&& ~~~msk ∧ ∀ r, r ≠ reg → e.regs r = d.regs r) ∨
      ∃ code e, regmapWriteBits reg msk val d = (.error code, e) ∧ e.regs = d.regs := by
  rw [regmapWriteBits]
  rcases regmapRead_eq reg d with ⟨_, hread⟩ | ⟨_, hread⟩
  · rw [bind_of_ok hread]
    rcases regmapWrite_eq reg ((d.regs reg &&& ~~~msk) ||| (val &&& msk))
      { d with faults := d.faults.tail } with ⟨_, hwrite⟩ | ⟨_, hwrite⟩
    · have hbits := bits_of_write (d.regs reg) val msk
      refine .inl ⟨_, hwrite, ?_, ?_, fun r hr => Function.update_of_ne hr _ _⟩
      · change Function.update d.regs reg _ reg &&& msk = _
        rw [Function.update_self]
        exact hbits.1
      · change Function.update d.regs reg _ reg &&& ~~~msk = _
        rw [Function.update_self]
        exact hbits.2
    · exact .inr ⟨_, _, hwrite, rfl⟩
  · rw [bind_of_error hread]
    exact .inr ⟨_, _, rfl, rfl⟩

/-- The register holds the largest input limit within the request, its other bits as before. -/
structure SelectsInput (limitUa : Nat) (d e : Device) : Prop where
  greatest : IsGreatest {ma | ma ∈ rk816InputCurMa ∧ ma * 1000 ≤ limitUa} (inputLimitMa (e.regs .usbCtrl))
  bits : e.regs .usbCtrl &&& ~~~inputCurMsk = d.regs .usbCtrl &&& ~~~inputCurMsk
  others : ∀ r, r ≠ .usbCtrl → e.regs r = d.regs r

theorem inputLimitMa_field {reg : UInt8} {sel : Nat} (hsel : sel ≤ 7)
    (h : reg &&& inputCurMsk = UInt8.ofNat sel &&& inputCurMsk) :
    inputLimitMa reg = rk816InputCurMa.getD sel 0 := by
  rw [inputLimitMa, h]
  interval_cases sel <;> decide

theorem setInputCurrent_selects {limitUa : Nat} (h : 80000 ≤ limitUa) (d : Device) :
    (∃ e, rk816BatSetInputCurrent limitUa d = (.ok (), e) ∧ SelectsInput limitUa d e) ∨
      ∃ code e, rk816BatSetInputCurrent limitUa d = (.error code, e) ∧ e.regs = d.regs := by
  rw [rk816BatSetInputCurrent, if_neg (by omega)]
  rcases regmapWriteBits_eq .usbCtrl inputCurMsk (UInt8.ofNat (inputSelector (limitUa / 1000))) d with
    ⟨e, hset, hfield, hbits, hothers⟩ | herror
  · refine .inl ⟨e, hset, ?_, hbits, hothers⟩
    have hma : 80 ≤ limitUa / 1000 := by omega
    obtain ⟨⟨hmem, hle⟩, hgreatest⟩ := inputSelector_greatest hma
    rw [inputLimitMa_field (inputSelector_spec (limitUa / 1000)).1 hfield]
    refine ⟨⟨hmem, by omega⟩, fun ma hma => hgreatest ⟨hma.1, ?_⟩⟩
    have hfits := hma.2
    omega
  · exact .inr herror

/-- The charge voltage, in mV, and the charge current, in mA at 20 mOhm, of a register value. -/
def chargeVoltageMv (reg : UInt8) : Nat :=
  rk816ChrgVolMv.getD ((reg &&& chrgVolSelMsk) >>> 4).toNat 0

def chargeCurrentMa (reg : UInt8) : Nat :=
  rk816ChrgCurMa.getD (reg &&& chrgCurSelMsk).toNat 0

/-- What the charger delivers for a charge current of the table, by the sense resistor. -/
def deliveredMa (ohms ma : Nat) : Nat := if ohms = 10000 then 2 * ma else ma

theorem chargeField_selects {volSel curSel : Nat} (hvol : volSel < 7) (hcur : curSel < 8) :
    chargeVoltageMv (chargeField volSel curSel) = rk816ChrgVolMv.getD volSel 0 ∧
      chargeCurrentMa (chargeField volSel curSel) = rk816ChrgCurMa.getD curSel 0 := by
  interval_cases volSel <;> interval_cases curSel <;> decide

/-- The largest entries within the charge voltage and the charge current of the battery. -/
structure WithinBattery (info : PowerSupplyBatteryInfo) (ohms mv ma : Nat) : Prop where
  voltage : IsGreatest
    {v : Nat | v ∈ rk816ChrgVolMv ∧ (v : Int) * 1000 ≤ info.constantChargeVoltageMaxUv} mv
  current : IsGreatest {c : Nat | c ∈ rk816ChrgCurMa ∧
    (deliveredMa ohms c : Int) * 1000 ≤ info.constantChargeCurrentMaxUa} ma

/-- The battery asks for less than the charger has. -/
def BelowTables (info : PowerSupplyBatteryInfo) (ohms : Nat) : Prop :=
  (∀ v ∈ rk816ChrgVolMv, info.constantChargeVoltageMaxUv < (v : Int) * 1000) ∨
    ∀ c ∈ rk816ChrgCurMa, info.constantChargeCurrentMaxUa < (deliveredMa ohms c : Int) * 1000

theorem milli_eq {micro : Int} (hpos : 0 < micro) (hint : micro < 2147483648) :
    (milli micro : Int) = micro / 1000 := by
  rw [milli, Int.tdiv_eq_ediv_of_nonneg hpos.le]
  omega

theorem isGreatest_congr {s t : Set Nat} {a : Nat} (h : IsGreatest s a) (hst : ∀ x, x ∈ s ↔ x ∈ t) :
    IsGreatest t a := by
  have heq : s = t := Set.ext hst
  rw [← heq]
  exact h

theorem volTable_ascending : rk816ChrgVolMv.Pairwise (· < ·) := by decide

theorem curTable_ascending : rk816ChrgCurMa.Pairwise (· < ·) := by decide

theorem volSel_lt (limit : Nat) : walkInputCur limit rk816ChrgVolMv.zipIdx 0 < 7 := by
  have hmem := walkInputCur_mem limit rk816ChrgVolMv.zipIdx 0
  have hrange : ∀ sel ∈ 0 :: rk816ChrgVolMv.zipIdx.map Prod.snd, sel < 7 := by decide
  exact hrange _ hmem

theorem curSel_lt (limit : Nat) : walkInputCur limit rk816ChrgCurMa.zipIdx 0 < 8 := by
  have hmem := walkInputCur_mem limit rk816ChrgCurMa.zipIdx 0
  have hrange : ∀ sel ∈ 0 :: rk816ChrgCurMa.zipIdx.map Prod.snd, sel < 8 := by decide
  exact hrange _ hmem

/-- An entry of the table is within the halved request when what it delivers is within the
request. -/
theorem delivered_le_iff {ohms : Nat} {resDiv : Int} (hres : probeResDiv ohms = .ok resDiv)
    {request c : Nat} :
    c ≤ (if resDiv = 1 then request / 2 else request) ↔ deliveredMa ohms c ≤ request := by
  rw [probeResDiv] at hres
  split at hres
  · cases hres
  · rename_i hohms
    cases hres
    by_cases h : ohms = 10000
    · have hother : ¬ ohms = 20000 := by omega
      rw [deliveredMa, if_pos h, if_neg hother, if_pos rfl]
      omega
    · have hother : ohms = 20000 := by omega
      rw [deliveredMa, if_neg h, if_pos hother, if_neg (by decide)]

/-- A battery description is refused when it asks for less than the tables have, and selects the
largest entries within it otherwise. -/
theorem chargeSelection_spec {info : PowerSupplyBatteryInfo} (hinfo : probeBatteryInfo info = .ok ())
    (hvol : info.constantChargeVoltageMaxUv < 2147483648)
    (hcur : info.constantChargeCurrentMaxUa < 2147483648) {ohms : Nat} {resDiv : Int}
    (hres : probeResDiv ohms = .ok resDiv) :
    (∃ message, chargeSelection info resDiv = .error (refused message) ∧ BelowTables info ohms) ∨
      ∃ s, chargeSelection info resDiv = .ok s ∧ s.volSel < 7 ∧ s.curSel < 8 ∧
        WithinBattery info ohms (rk816ChrgVolMv.getD s.volSel 0) (rk816ChrgCurMa.getD s.curSel 0) := by
  have hpositive : 0 < info.constantChargeVoltageMaxUv ∧ 0 < info.constantChargeCurrentMaxUa := by
    rw [probeBatteryInfo] at hinfo
    split at hinfo
    · cases hinfo
    · omega
  have hmv := milli_eq hpositive.1 hvol
  have hma := milli_eq hpositive.2 hcur
  have hvolfits (v : Nat) : v ≤ milli info.constantChargeVoltageMaxUv ↔
      (v : Int) * 1000 ≤ info.constantChargeVoltageMaxUv := by omega
  have hcurfits (c : Nat) : c ≤ (if resDiv = 1 then milli info.constantChargeCurrentMaxUa / 2
      else milli info.constantChargeCurrentMaxUa) ↔
      (deliveredMa ohms c : Int) * 1000 ≤ info.constantChargeCurrentMaxUa := by
    rw [delivered_le_iff hres]
    omega
  have hlowvol : ∀ v ∈ rk816ChrgVolMv, rk816ChrgVolMv.getD 0 0 ≤ v := by decide
  have hlowcur : ∀ c ∈ rk816ChrgCurMa, rk816ChrgCurMa.getD 0 0 ≤ c := by decide
  rw [chargeSelection]
  by_cases hv : milli info.constantChargeVoltageMaxUv < rk816ChrgVolMv.getD 0 0
  · refine .inl ⟨_, if_pos hv, .inl fun v hmem => ?_⟩
    by_contra hle
    have hreach := (hvolfits v).mpr (Int.not_lt.mp hle)
    exact absurd (hlowvol v hmem) (by omega)
  · by_cases hc : (if resDiv = 1 then milli info.constantChargeCurrentMaxUa / 2
        else milli info.constantChargeCurrentMaxUa) < rk816ChrgCurMa.getD 0 0
    · refine .inl ⟨_, (if_neg hv).trans (if_pos hc), .inr fun c hmem => ?_⟩
      by_contra hle
      have hreach := (hcurfits c).mpr (Int.not_lt.mp hle)
      exact absurd (hlowcur c hmem) (by omega)
    · refine .inr ⟨_, (if_neg hv).trans (if_neg hc), volSel_lt _, curSel_lt _, ?_, ?_⟩
      · refine isGreatest_congr (walk_greatest volTable_ascending ⟨_, by decide, Nat.le_of_not_lt hv⟩)
          fun v => and_congr_right fun _ => hvolfits v
      · refine isGreatest_congr (walk_greatest curTable_ascending ⟨_, by decide, Nat.le_of_not_lt hc⟩)
          fun c => and_congr_right fun _ => hcurfits c

/-- The device with some bits of a register replaced. -/
def Device.withBits (d : Device) (reg : Reg) (msk val : UInt8) : Device :=
  { d with regs := Function.update d.regs reg ((d.regs reg &&& ~~~msk) ||| (val &&& msk)) }

theorem regmapUpdateBits_quiet {d : Device} (h : d.faults = []) (reg : Reg) (msk val : UInt8) :
    regmapUpdateBits reg msk val d = (.ok (), d.withBits reg msk val) := by
  rw [regmapUpdateBits, bind_of_ok (access_quiet h)]
  rfl

theorem withBits_of_ne {d : Device} {reg r : Reg} (h : r ≠ reg) (msk val : UInt8) :
    (d.withBits reg msk val).regs r = d.regs r := Function.update_of_ne h _ _

theorem withBits_full (d : Device) (reg : Reg) (val : UInt8) :
    (d.withBits reg (chrgEn ||| chrgVolSelMsk ||| chrgCurSelMsk) val).regs reg = val := by
  have hfull : chrgEn ||| chrgVolSelMsk ||| chrgCurSelMsk = -1 := by decide
  change Function.update d.regs reg _ reg = val
  rw [Function.update_self, hfull]
  simp

/-- What the charger is left with after its set-up. -/
theorem programCharger_quiet {d : Device} (h : d.faults = []) (s : ChargeSelection) :
    ∃ e, programCharger s d = (.ok (), e) ∧ e.regs .chrgCtrl0 = chargeField s.volSel s.curSel ∧
      inputLimitMa (e.regs .usbCtrl) = 450 := by
  let d₁ := d.withBits .chrgCtrl0 (chrgEn ||| chrgVolSelMsk ||| chrgCurSelMsk)
    (chargeField s.volSel s.curSel)
  let d₂ := d₁.withBits .chrgCtrl1 chrgFinishCurMsk
    ((UInt8.ofNat s.finishSel <<< 6) &&& chrgFinishCurMsk)
  let d₃ := d₂.withBits .chrgCtrl2 (chrgTermDigSignal ||| chrgTimerCccvEn) chrgTermDigSignal
  let d₄ := d₃.withBits .supSts (usbVlimitEn ||| usbClimitEn) (usbVlimitEn ||| usbClimitEn)
  let d₅ := d₄.withBits .batCtrl usbSysEn usbSysEn
  let d₆ := d₅.withBits .usbCtrl usbChrgCtEn 0
  obtain ⟨val, hset, hval⟩ := setInputCurrent_quiet (d := d₆) h (by decide : ¬ 450000 / 1000 < 80)
  refine ⟨{ d₆ with regs := Function.update d₆.regs .usbCtrl val }, ?_, ?_, ?_⟩
  · have h₁ : d₁.faults = [] := h
    have h₂ : d₂.faults = [] := h
    have h₃ : d₃.faults = [] := h
    have h₄ : d₄.faults = [] := h
    have h₅ : d₅.faults = [] := h
    rw [programCharger, bind_of_ok (regmapUpdateBits_quiet h _ _ _),
      bind_of_ok (regmapUpdateBits_quiet h₁ _ _ _), bind_of_ok (regmapUpdateBits_quiet h₂ _ _ _),
      bind_of_ok (regmapUpdateBits_quiet h₃ _ _ _), bind_of_ok (regmapUpdateBits_quiet h₄ _ _ _),
      bind_of_ok (regmapUpdateBits_quiet h₅ _ _ _)]
    exact hset
  · change Function.update d₆.regs .usbCtrl val .chrgCtrl0 = _
    rw [Function.update_of_ne (by decide), withBits_of_ne (by decide), withBits_of_ne (by decide),
      withBits_of_ne (by decide), withBits_of_ne (by decide), withBits_of_ne (by decide)]
    exact withBits_full d .chrgCtrl0 _
  · change inputLimitMa (Function.update d₆.regs .usbCtrl val .usbCtrl) = 450
    rw [Function.update_self]
    exact hval.mpr (by decide)

/-- The charger is never programmed above the request: an input limit below the table is refused
and any other rounded down, and so are the voltage and the current of the battery. -/
theorem charger_within_request (d : Device) :
    (∀ limitUa, (limitUa < 80000 → rk816BatSetInputCurrent limitUa d = (.error einval, d)) ∧
      (80000 ≤ limitUa →
        (∃ e, rk816BatSetInputCurrent limitUa d = (.ok (), e) ∧ SelectsInput limitUa d e) ∨
          d.faults ≠ [] ∧
            ∃ code e, rk816BatSetInputCurrent limitUa d = (.error code, e) ∧ e.regs = d.regs)) ∧
    ∀ info ohms, probeResDiv ohms = .ok d.cg.resDiv → probeBatteryInfo info = .ok () →
      info.constantChargeVoltageMaxUv < 2147483648 → info.constantChargeCurrentMaxUa < 2147483648 →
      d.faults = [] →
        (rk816BatInitCharger info d = (.error einval, d) ∧ BelowTables info ohms) ∨
          ∃ e, rk816BatInitCharger info d = (.ok (), e) ∧
            WithinBattery info ohms (chargeVoltageMv (e.regs .chrgCtrl0))
              (chargeCurrentMa (e.regs .chrgCtrl0)) := by
  refine ⟨fun limitUa => ⟨fun hlow => ?_, fun hhigh => ?_⟩, ?_⟩
  · rw [rk816BatSetInputCurrent, if_pos (by omega)]
    rfl
  · rcases setInputCurrent_selects hhigh d with hselects | ⟨code, e, hset, hregs⟩
    · exact .inl hselects
    · refine .inr ⟨fun hquiet => ?_, code, e, hset, hregs⟩
      have hma : ¬ limitUa / 1000 < 80 := by omega
      obtain ⟨val, hok, _⟩ := setInputCurrent_quiet hquiet hma
      rw [hset] at hok
      cases hok
  · intro info ohms hres hinfo hvol hcur hquiet
    have hget : gets (fun d : Device => d.cg.resDiv) d = (.ok d.cg.resDiv, d) := rfl
    rw [rk816BatInitCharger, bind_of_ok hget]
    rcases chargeSelection_spec hinfo hvol hcur hres with
      ⟨message, hselection, hbelow⟩ | ⟨s, hselection, hvolSel, hcurSel, hwithin⟩
    · rw [hselection]
      exact .inl ⟨rfl, hbelow⟩
    · obtain ⟨e, hprogram, hfield, _⟩ := programCharger_quiet hquiet s
      obtain ⟨hvoltage, hcurrent⟩ := chargeField_selects hvolSel hcurSel
      rw [hselection]
      refine .inr ⟨e, hprogram, ?_⟩
      rw [hfield, hvoltage, hcurrent]
      exact hwithin

/-- The tablet's own pack is charged with the largest voltage and current within it. -/
theorem pack_within_request :
    let info : PowerSupplyBatteryInfo := {
      chargeFullDesignUah := 4271000
      constantChargeCurrentMaxUa := 1400000
      constantChargeVoltageMaxUv := 4200000
      chargeTermCurrentUa := 200000 }
    ∃ e, rk816BatInitCharger info (rebooted 60) = (.ok (), e) ∧
      WithinBattery info 20000 (chargeVoltageMv (e.regs .chrgCtrl0))
        (chargeCurrentMa (e.regs .chrgCtrl0)) := by
  intro info
  rcases (charger_within_request (rebooted 60)).2 info 20000 rfl rfl (by decide) (by decide) rfl with
    ⟨_, hlow | hlow⟩ | hprogram
  · exact absurd (hlow 4200 (by decide)) (by decide)
  · exact absurd (hlow 1400 (by decide)) (by decide)
  · exact hprogram

end Taq102.Battery
