import Mathlib.Tactic.Linarith
import Mathlib.Tactic.Ring
import Taq102.Battery.Model

/-! The percentage across a reboot: what is restored at probe, preloaded into the counter and
divided out again by the first poll. -/
namespace Taq102.Battery
open Taq102.Lib Fallible

section Calls
variable {d d' : Device}

theorem access_keeps (h : access d = (.ok (), d')) : d'.regs = d.regs ∧ d'.cg = d.cg := by
  rw [access] at h
  split at h
  · cases h
    exact ⟨rfl, rfl⟩
  · cases (Prod.mk.inj h).2
    exact ⟨rfl, rfl⟩

/-- A call that reads: its value, with the registers and the driver as they were. -/
theorem read_ok {α : Type} {g : Device → α} {v : α}
    (h : (do
      access
      gets g : Drv α) d = (.ok v, d')) (hg : ∀ e : Device, e.regs = d.regs → e.cg = d.cg → g e = g d) :
    v = g d ∧ d'.regs = d.regs ∧ d'.cg = d.cg := by
  obtain ⟨_, e, haccess, hget⟩ := bind_ok h
  obtain ⟨hregs, hcg⟩ := access_keeps haccess
  cases hget
  exact ⟨hg _ hregs hcg, hregs, hcg⟩

theorem regmapRead_ok {reg : Reg} {v : UInt8} (h : regmapRead reg d = (.ok v, d')) :
    v = d.regs reg ∧ d'.regs = d.regs ∧ d'.cg = d.cg :=
  read_ok h fun _ hregs _ => congrFun hregs reg

theorem regmapBulkRead32_ok {reg : Fin 4 → Reg} {v : Nat} (h : regmapBulkRead32 reg d = (.ok v, d')) :
    v = be32 (fun i => d.regs (reg i)) ∧ d'.regs = d.regs ∧ d'.cg = d.cg :=
  read_ok h fun _ hregs _ => by rw [hregs]

theorem regmapWrite_ok {reg : Reg} {val : UInt8} (h : regmapWrite reg val d = (.ok (), d')) :
    d'.regs = Function.update d.regs reg val ∧ d'.cg = d.cg := by
  obtain ⟨_, e, haccess, hupdate⟩ := bind_ok h
  obtain ⟨hregs, hcg⟩ := access_keeps haccess
  cases hupdate
  exact ⟨congrArg (Function.update · reg val) hregs, hcg⟩

theorem regmapBulkWrite32_ok {reg : Fin 4 → Reg} {value : Int}
    (h : regmapBulkWrite32 reg value d = (.ok (), d')) :
    d'.regs = writeBytes d.regs reg (putBe32 value) ∧ d'.cg = d.cg := by
  obtain ⟨_, e, haccess, hupdate⟩ := bind_ok h
  obtain ⟨hregs, hcg⟩ := access_keeps haccess
  cases hupdate
  exact ⟨congrArg (writeBytes · reg (putBe32 value)) hregs, hcg⟩

end Calls

theorem writeBytes_other {regs : Reg → UInt8} {reg : Fin 4 → Reg} {byte : Fin 4 → UInt8} {r : Reg}
    (hr : ∀ i, r ≠ reg i) : writeBytes regs reg byte r = regs r := by
  simp [writeBytes, hr]

theorem writeBytes_self {regs : Reg → UInt8} {reg : Fin 4 → Reg} (hreg : Function.Injective reg)
    {byte : Fin 4 → UInt8} (i : Fin 4) : writeBytes regs reg byte (reg i) = byte i := by
  have hne {j k : Fin 4} (h : j ≠ k) : reg j ≠ reg k := hreg.ne h
  match i with
  | 0 => simp [writeBytes]
  | 1 => simp [writeBytes, hne]
  | 2 => simp [writeBytes, hne]
  | 3 => simp [writeBytes, hne]

theorem be32_putBe32 {value : Int} (hlow : 0 ≤ value) (hhigh : value < 2 ^ 32) :
    (be32 (putBe32 value) : Int) = value := by
  have hmod : value % 2 ^ 32 = value := Int.emod_eq_of_lt hlow hhigh
  have hbyte (i : Fin 4) : (putBe32 value i).toNat = value.toNat / 256 ^ i.val % 256 := by
    rw [putBe32, hmod, UInt8.toNat_ofNat']
  have h3 : (256 : Nat) ^ (3 : Fin 4).val = 16777216 := rfl
  have h2 : (256 : Nat) ^ (2 : Fin 4).val = 65536 := rfl
  have h1 : (256 : Nat) ^ (1 : Fin 4).val = 256 := rfl
  have h0 : (256 : Nat) ^ (0 : Fin 4).val = 1 := rfl
  rw [be32, hbyte 3, hbyte 2, hbyte 1, hbyte 0, h3, h2, h1, h0]
  omega

/-! Probe. -/

/-- The probe takes the saved percentage: no new pack, no long rest and a byte in range. -/
def Restores (d : Device) : Prop :=
  d.regs .ggsts &&& 0x10 = 0 ∧
    (d.regs .nonActTimerCnt = d.regs .offCntSave ∨ (d.regs .nonActTimerCnt).toNat < 30) ∧
    (d.regs .soc).toNat ≤ 100

/-- The full-charge capacity in use after the probe, in mAh. -/
def fccMah (d : Device) : Nat := acceptedFcc d.cg (be32 fun i => d.regs (.newFcc i))

section Probe
variable {d d' : Device}

theorem offMinutes_ok {n : Nat} (h : rk816BatOffMinutes d = (.ok n, d')) :
    n = (if d.regs .nonActTimerCnt ≠ d.regs .offCntSave then (d.regs .nonActTimerCnt).toNat else 0) ∧
      d'.regs = Function.update d.regs .offCntSave (d.regs .nonActTimerCnt) ∧ d'.cg = d.cg := by
  obtain ⟨now, d₁, hnow, h⟩ := bind_ok h
  obtain ⟨last, d₂, hlast, h⟩ := bind_ok h
  obtain ⟨_, d₃, hwrite, h⟩ := bind_ok h
  obtain ⟨rfl, hregs₁, hcg₁⟩ := regmapRead_ok hnow
  obtain ⟨rfl, hregs₂, hcg₂⟩ := regmapRead_ok hlast
  obtain ⟨hregs₃, hcg₃⟩ := regmapWrite_ok hwrite
  cases h
  rw [hregs₁]
  exact ⟨rfl, by rw [hregs₃, hregs₂, hregs₁], by rw [hcg₃, hcg₂, hcg₁]⟩

theorem setCharge_ok {uah : Int} (h : rk816BatSetChargeUah uah d = (.ok (), d')) :
    d'.regs = writeBytes d.regs .gascntCal (putBe32 (rk816ChargeToAdc uah d.cg.resDiv)) ∧
      d'.cg = d.cg := by
  obtain ⟨resDiv, d₁, hget, h⟩ := bind_ok h
  cases hget
  exact regmapBulkWrite32_ok h

theorem saveNvram_ok (h : rk816BatSaveNvram d = (.ok (), d')) :
    (∀ i, d'.regs (.gascntCal i) = d.regs (.gascntCal i)) ∧ d'.cg = d.cg := by
  obtain ⟨cg, d₁, hget, h⟩ := bind_ok h
  cases hget
  obtain ⟨_, d₂, hsoc, h⟩ := bind_ok h
  obtain ⟨_, d₃, hremain, h⟩ := bind_ok h
  obtain ⟨hregs₂, hcg₂⟩ := regmapWrite_ok hsoc
  obtain ⟨hregs₃, hcg₃⟩ := regmapBulkWrite32_ok hremain
  obtain ⟨hregs₄, hcg₄⟩ := regmapBulkWrite32_ok h
  refine ⟨fun i => ?_, by rw [hcg₄, hcg₃, hcg₂]⟩
  rw [hregs₄, writeBytes_other (by simp), hregs₃, writeBytes_other (by simp), hregs₂,
    Function.update_of_ne (by simp)]

/-- The charge that the probe preloads for a restored percentage. -/
def preloadUah (d : Device) : Int := (d.regs .soc).toNat * ((fccMah d : Int) * 1000).tdiv 100

/-- The saved percentage is taken where the probe restores. -/
theorem decideSoc_restores {e : Device} {off : Nat} (hr : Restores d)
    (hoff : off = if d.regs .nonActTimerCnt ≠ d.regs .offCntSave then (d.regs .nonActTimerCnt).toNat
      else 0) :
    decideSoc (d.regs .ggsts) off (d.regs .soc) e =
      (.ok (), { e with cg := { e.cg with soc := (d.regs .soc).toNat } }) := by
  obtain ⟨hpack, hrest, hrange⟩ := hr
  have hshort : ¬ off ≥ rk816OffMinOcvValid := by
    rw [hoff, rk816OffMinOcvValid]
    rcases hrest with hsame | hshort
    · rw [if_neg (not_not.mpr hsame)]
      decide
    · split <;> omega
  have htake : ¬ (decide (d.regs .ggsts &&& 0x10 ≠ 0) = true ∨ off ≥ rk816OffMinOcvValid ∨
      (d.regs .soc).toNat > 100) := by
    rintro (hnew | hlong | hbyte)
    · exact of_decide_eq_true hnew hpack
    · exact hshort hlong
    · omega
  simp only [decideSoc]
  rw [if_neg htake]
  rfl

/-- A probe that restores: the saved percentage, and the counter's value for it. -/
theorem initSoc_restores (h : rk816BatInitSoc d = (.ok (), d')) (hr : Restores d) :
    d'.cg.soc = (d.regs .soc).toNat ∧ d'.cg.fccUah = fccMah d * 1000 ∧
      d'.cg.resDiv = d.cg.resDiv ∧
      ∀ i, d'.regs (.gascntCal i) = putBe32 (rk816ChargeToAdc (preloadUah d) d.cg.resDiv) i := by
  obtain ⟨stored, d₁, hstored, h⟩ := bind_ok h
  obtain ⟨rfl, hregs₁, hcg₁⟩ := regmapBulkRead32_ok hstored
  obtain ⟨_, d₂, hset, h⟩ := bind_ok h
  obtain ⟨hregs₂, hcg₂⟩ : d₂.regs = d₁.regs ∧ d₂.cg = { d₁.cg with fccUah := fccMah d * 1000 } := by
    cases hset
    exact ⟨rfl, by simp only [hcg₁, fccMah]⟩
  obtain ⟨ggsts, d₃, hggsts, h⟩ := bind_ok h
  obtain ⟨rfl, hregs₃, hcg₃⟩ := regmapRead_ok hggsts
  obtain ⟨off, d₄, hoff, h⟩ := bind_ok h
  obtain ⟨hminutes, hregs₄, hcg₄⟩ := offMinutes_ok hoff
  obtain ⟨saved, d₅, hsaved, h⟩ := bind_ok h
  obtain ⟨rfl, hregs₅, hcg₅⟩ := regmapRead_ok hsaved
  have hbefore : d₃.regs = d.regs := by rw [hregs₃, hregs₂, hregs₁]
  have hsoc : d₄.regs .soc = d.regs .soc := by
    rw [hregs₄, Function.update_of_ne (by simp), hbefore]
  have hsts : d₂.regs .ggsts = d.regs .ggsts := by rw [hregs₂, hregs₁]
  rw [hbefore] at hminutes
  obtain ⟨_, d₆, hdecide, h⟩ := bind_ok h
  rw [hsoc, hsts, decideSoc_restores hr hminutes] at hdecide
  obtain ⟨_, d₇, hnow, h⟩ := bind_ok h
  obtain ⟨uah, d₈, hget, h⟩ := bind_ok h
  obtain ⟨_, d₉, hcharge, h⟩ := bind_ok h
  obtain ⟨hregs₉, hcg₉⟩ := setCharge_ok hcharge
  obtain ⟨hcal, hcg'⟩ := saveNvram_ok h
  cases hdecide
  cases hnow
  cases hget
  have hcg : d'.cg = { d.cg with
      fccUah := fccMah d * 1000
      soc := (d.regs .soc).toNat
      chargeNowUah := preloadUah d } := by
    rw [hcg', hcg₉]
    simp only [hcg₅, hcg₄, hcg₃, hcg₂, hcg₁]
    rfl
  refine ⟨by rw [hcg], by rw [hcg], by rw [hcg], fun i => ?_⟩
  rw [hcal i, hregs₉, writeBytes_self (fun _ _ h => Reg.gascntCal.inj h)]
  simp only [hcg₅, hcg₄, hcg₃, hcg₂, hcg₁]
  rfl

end Probe

/-! The next poll. -/

/-- The device at the first poll after a probe: the counter holds what was preloaded, the accesses
succeed and charging has not finished. -/
structure Preloaded (probed polled : Device) : Prop where
  driver : polled.cg = probed.cg
  counter : ∀ i, polled.regs (.gascnt i) = probed.regs (.gascntCal i)
  quiet : polled.faults = []
  charging : statusField (polled.regs .supSts) ≠ chargeFinish

section Poll
variable {d d' : Device}

theorem access_quiet (h : d.faults = []) : access d = (.ok (), d) := by
  rw [access, h]

theorem read_quiet {α : Type} (h : d.faults = []) (g : Device → α) :
    (do
      access
      gets g : Drv α) d = (.ok (g d), d) := by
  rw [bind_of_ok (access_quiet h)]
  rfl

theorem regmapRead_quiet (h : d.faults = []) (reg : Reg) :
    regmapRead reg d = (.ok (d.regs reg), d) := read_quiet h _

theorem regmapRead16be_quiet (h : d.faults = []) (reg : Fin 2 → Reg) :
    regmapRead16be reg d = (.ok (be16 fun i => d.regs (reg i)), d) := read_quiet h _

theorem regmapBulkRead32_quiet (h : d.faults = []) (reg : Fin 4 → Reg) :
    regmapBulkRead32 reg d = (.ok (be32 fun i => d.regs (reg i)), d) := read_quiet h _

theorem readInto_of_ok {α : Type} {x : Drv α} {v : α} (h : x d = (.ok v, d'))
    (store : α → Rk816Charger → Rk816Charger) :
    readInto x store d = (.ok (), { d' with cg := store v d'.cg }) := by
  have hattempt : attempt x d = (.ok (.ok v), d') := by rw [attempt_apply, h]
  rw [readInto, bind_of_ok hattempt]
  rfl

theorem getVolUv_quiet (h : d.faults = []) (reg : Fin 2 → Reg) :
    ∃ v, rk816BatGetVolUv reg d = (.ok v, d) := by
  rw [rk816BatGetVolUv, bind_of_ok (regmapRead16be_quiet h reg)]
  exact ⟨_, rfl⟩

theorem getCurUa_quiet (h : d.faults = []) : ∃ v, rk816BatGetCurUa d = (.ok v, d) := by
  rw [rk816BatGetCurUa, bind_of_ok (regmapRead16be_quiet h _)]
  exact ⟨_, rfl⟩

/-- What reading the supply leaves alone: the registers and the gauge's fields. -/
structure Supplied (d e : Device) : Prop where
  regs : e.regs = d.regs
  faults : e.faults = []
  resDiv : e.cg.resDiv = d.cg.resDiv
  fccUah : e.cg.fccUah = d.cg.fccUah

theorem Supplied.trans {e : Device} (h : Supplied d d') (h' : Supplied d' e) : Supplied d e :=
  ⟨h'.regs.trans h.regs, h'.faults, h'.resDiv.trans h.resDiv, h'.fccUah.trans h.fccUah⟩

theorem readInto_quiet {α : Type} {x : Drv α} (h : d.faults = []) {v : α} (hx : x d = (.ok v, d))
    (store : α → Rk816Charger → Rk816Charger)
    (hstore : (store v d.cg).resDiv = d.cg.resDiv ∧ (store v d.cg).fccUah = d.cg.fccUah) :
    ∃ e, readInto x store d = (.ok (), e) ∧ Supplied d e ∧ e.cg = store v d.cg :=
  ⟨_, readInto_of_ok hx store, ⟨rfl, h, hstore.1, hstore.2⟩, rfl⟩

theorem setPresence (h : d.faults = []) : ∃ e, setCg presence d = (.ok (), e) ∧ Supplied d e ∧
    e.cg.chargeStatus = d.cg.chargeStatus := by
  have hkeeps : (presence d.cg).resDiv = d.cg.resDiv ∧ (presence d.cg).fccUah = d.cg.fccUah ∧
      (presence d.cg).chargeStatus = d.cg.chargeStatus := by
    rw [presence]
    split
    · exact ⟨rfl, rfl, rfl⟩
    · split <;> exact ⟨rfl, rfl, rfl⟩
  exact ⟨_, rfl, ⟨rfl, h, hkeeps.1, hkeeps.2.1⟩, hkeeps.2.2⟩

theorem readSupply_quiet (h : d.faults = []) :
    ∃ e, readSupply d = (.ok (), e) ∧ Supplied d e ∧
      e.cg.chargeStatus = statusField (d.regs .supSts) := by
  obtain ⟨vol, hvol⟩ := getVolUv_quiet h .batVol
  obtain ⟨d₁, h₁, hs₁, _⟩ := readInto_quiet h hvol storeVoltage (by
    rw [storeVoltage]
    split <;> exact ⟨rfl, rfl⟩)
  obtain ⟨cur, hcur⟩ := getCurUa_quiet hs₁.faults
  obtain ⟨d₂, h₂, hs₂, _⟩ := readInto_quiet hs₁.faults hcur storeCurrent ⟨rfl, rfl⟩
  obtain ⟨d₃, h₃, hs₃, hcg₃⟩ :=
    readInto_quiet hs₂.faults (regmapRead_quiet hs₂.faults .supSts) storeStatus ⟨rfl, rfl⟩
  obtain ⟨d₄, h₄, hs₄, hcg₄⟩ :=
    readInto_quiet hs₃.faults (regmapRead_quiet hs₃.faults .vbMon) storePlugged ⟨rfl, rfl⟩
  obtain ⟨d₅, h₅, hs₅, hstatus⟩ := setPresence hs₄.faults
  refine ⟨d₅, ?_, (((hs₁.trans hs₂).trans hs₃).trans hs₄).trans hs₅, ?_⟩
  · rw [readSupply, bind_of_ok h₁, bind_of_ok h₂, bind_of_ok h₃, bind_of_ok h₄, h₅]
  · rw [hstatus, hcg₄]
    change d₃.cg.chargeStatus = _
    rw [hcg₃, hs₂.regs, hs₁.regs]
    rfl

theorem regmapWrite_quiet (h : d.faults = []) (reg : Reg) (val : UInt8) :
    ∃ e, regmapWrite reg val d = (.ok (), e) ∧ e.faults = [] := by
  rw [regmapWrite, bind_of_ok (access_quiet h)]
  exact ⟨_, rfl, h⟩

theorem regmapBulkWrite32_quiet (h : d.faults = []) (reg : Fin 4 → Reg) (value : Int) :
    ∃ e, regmapBulkWrite32 reg value d = (.ok (), e) ∧ e.faults = [] := by
  rw [regmapBulkWrite32, bind_of_ok (access_quiet h)]
  exact ⟨_, rfl, h⟩

theorem saveNvram_quiet (h : d.faults = []) : ∃ e, rk816BatSaveNvram d = (.ok (), e) ∧ e.cg = d.cg := by
  have hget : gets (fun d : Device => d.cg) d = (.ok d.cg, d) := rfl
  obtain ⟨d₁, h₁, hf₁⟩ := regmapWrite_quiet h .soc (UInt8.ofNat (d.cg.soc % 256).toNat)
  obtain ⟨d₂, h₂, hf₂⟩ := regmapBulkWrite32_quiet hf₁ .remainCap (d.cg.chargeNowUah.tdiv 1000)
  obtain ⟨d₃, h₃, _⟩ := regmapBulkWrite32_quiet hf₂ .newFcc (d.cg.fccUah.tdiv 1000)
  have hsave : rk816BatSaveNvram d = (.ok (), d₃) := by
    rw [rk816BatSaveNvram, bind_of_ok hget, bind_of_ok h₁, bind_of_ok h₂, h₃]
  exact ⟨d₃, hsave, (saveNvram_ok hsave).2⟩

theorem readCounter_quiet (h : d.faults = []) (hstatus : d.cg.chargeStatus ≠ chargeFinish)
    (val : Int) : (readCounter val d).2.cg = gauge d.cg val := by
  have hget : gets (fun d : Device => d.cg) d = (.ok d.cg, d) := rfl
  have hsettle : settleCounter val d = (.ok (), { d with cg := gauge d.cg val }) := by
    rw [settleCounter, bind_of_ok hget, if_neg fun hf => hstatus hf.1]
    rfl
  obtain ⟨e, hsave, hcg⟩ := saveNvram_quiet (d := { d with cg := gauge d.cg val }) h
  have hattempt : attempt rk816BatSaveNvram { d with cg := gauge d.cg val } = (.ok (.ok ()), e) := by
    rw [attempt_apply, hsave]
  rw [readCounter, bind_of_ok hsettle, bind_of_ok hattempt]
  exact hcg

/-- A poll that reads the counter while charging has not finished: the percentage is the
quotient. -/
theorem readProps_soc (h : d.faults = []) (hstatus : statusField (d.regs .supSts) ≠ chargeFinish) :
    ∃ cg, (rk816BatReadProps d).2.cg =
        gauge cg (rk816AdcToChargeUah (toS32 (be32 fun i => d.regs (.gascnt i))) d.cg.resDiv) ∧
      cg.fccUah = d.cg.fccUah := by
  obtain ⟨e, hsupply, hs, hcharge⟩ := readSupply_quiet h
  have hcount : rk816BatGetChargeUah e =
      (.ok (rk816AdcToChargeUah (toS32 (be32 fun i => d.regs (.gascnt i))) d.cg.resDiv), e) := by
    rw [rk816BatGetChargeUah, bind_of_ok (regmapBulkRead32_quiet hs.faults .gascnt), ← hs.resDiv,
      ← hs.regs]
    rfl
  have hattempt := attempt_apply (x := rk816BatGetChargeUah) (s := e)
  rw [hcount] at hattempt
  rw [rk816BatReadProps, bind_of_ok hsupply, bind_of_ok hattempt]
  refine ⟨e.cg, readCounter_quiet hs.faults ?_ _, hs.fccUah⟩
  rw [hcharge]
  exact hstatus

end Poll

/-! The arithmetic. -/

/-- Converting a charge to counts and back loses a microampere-hour unless it is a whole number of
counts. -/
theorem charge_of_adc (charge : Nat) {resDiv : Nat} (hdiv : 0 < resDiv) :
    200 ∣ charge * 239 * resDiv ∧ charge * 239 * resDiv / 200 * 200 / (239 * resDiv) = charge ∨
      ¬ 200 ∣ charge * 239 * resDiv ∧
        charge * 239 * resDiv / 200 * 200 / (239 * resDiv) < charge := by
  have hscale : 0 < 239 * resDiv := by omega
  by_cases hwhole : 200 ∣ charge * 239 * resDiv
  · refine .inl ⟨hwhole, ?_⟩
    rw [Nat.div_mul_cancel hwhole, Nat.mul_assoc, Nat.mul_div_cancel _ hscale]
  · refine .inr ⟨hwhole, ?_⟩
    rw [Nat.div_lt_iff_lt_mul hscale]
    have hle : charge * 239 * resDiv / 200 * 200 ≤ charge * 239 * resDiv := Nat.div_mul_le_self _ _
    have hne : charge * 239 * resDiv / 200 * 200 ≠ charge * 239 * resDiv := fun heq =>
      hwhole ⟨_, by rw [Nat.mul_comm 200]; exact heq.symm⟩
    rw [← Nat.mul_assoc]
    omega

/-- A tenth of a milliampere-hour is a whole number of counts for every twentieth. -/
theorem whole_counts_iff {k resDiv : Nat} : 200 ∣ k * 10 * 239 * resDiv ↔ 20 ∣ k * resDiv := by
  have hshape : k * 10 * 239 * resDiv = 10 * (239 * (k * resDiv)) := by ring
  have hcoprime : Nat.Coprime 20 239 := by decide
  rw [hshape, show 200 = 10 * 20 from rfl, Nat.mul_dvd_mul_iff_left (by omega)]
  exact ⟨hcoprime.dvd_of_dvd_mul_left, fun h => h.mul_left 239⟩

/-- The percentage of a charge below the full one. -/
theorem gauge_soc {cg : Rk816Charger} {fcc val : Nat} (hcg : cg.fccUah = fcc * 1000)
    (hval : val ≤ 100 * (fcc * 10)) (hfcc : 0 < fcc) :
    (gauge cg val).soc = (val / (fcc * 10) : Nat) := by
  have hunit : cg.fccUah.tdiv 100 = (fcc * 10 : Nat) := by
    rw [hcg, Int.tdiv_eq_ediv_of_nonneg (by omega)]
    omega
  have hcharge : clamp val 0 cg.fccUah = val := by
    rw [clamp, if_neg (by omega), if_neg (by omega)]
  have hquotient : val / (fcc * 10) ≤ 100 := Nat.div_le_of_le_mul (by rwa [Nat.mul_comm])
  simp only [gauge, hcharge, hunit]
  rw [Int.tdiv_eq_ediv_of_nonneg (Int.natCast_nonneg val), ← Int.natCast_div]
  generalize val / (fcc * 10) = quotient at hquotient
  rw [clamp, if_neg (by omega), if_neg (by omega)]

/-- The percentage that comes back from the counter. -/
theorem gauge_preload (cg : Rk816Charger) {soc fcc : Nat} (resDiv : Nat) (hsoc : soc ≤ 100) (hfcc : 0 < fcc)
    (hdiv : 0 < resDiv) (hcg : cg.fccUah = fcc * 1000)
    (hfit : soc * (fcc * 10) * 239 * resDiv / 200 < 2 ^ 31) :
    (gauge cg (rk816AdcToChargeUah (toS32 (be32 (putBe32
      (rk816ChargeToAdc (soc * ((fcc : Int) * 1000).tdiv 100) resDiv)))) resDiv)).soc = soc ↔
        20 ∣ soc * fcc * resDiv := by
  let charge := soc * (fcc * 10)
  let count := charge * 239 * resDiv / 200
  have hunit : ((fcc : Int) * 1000).tdiv 100 = (fcc * 10 : Nat) := by
    rw [Int.tdiv_eq_ediv_of_nonneg (by omega)]
    omega
  have hcount : rk816ChargeToAdc (soc * ((fcc : Int) * 1000).tdiv 100) resDiv = (count : Nat) := by
    have hproduct : (soc : Int) * (fcc * 10 : Nat) * 239 * resDiv =
        (charge * 239 * resDiv : Nat) := by
      simp only [charge, Nat.cast_mul]
      rfl
    rw [rk816ChargeToAdc, hunit, hproduct, Int.tdiv_eq_ediv_of_nonneg (Int.natCast_nonneg _)]
    rfl
  have hread : toS32 (be32 (putBe32 count)) = (count : Int) := by
    have hsmall : count < 2 ^ 31 := hfit
    generalize count = count at hsmall
    have hbytes : (be32 (putBe32 count) : Int) = count := be32_putBe32 (by omega) (by omega)
    have hsame : be32 (putBe32 count) = count := by exact_mod_cast hbytes
    rw [hsame, toS32, if_pos hsmall]
  have hcharge : rk816AdcToChargeUah count resDiv = (count * 200 / (239 * resDiv) : Nat) := by
    have hproduct : (count : Int) * 200 = (count * 200 : Nat) := by push_cast; rfl
    rw [rk816AdcToChargeUah, hproduct, Int.tdiv_eq_ediv_of_nonneg (Int.natCast_nonneg _)]
    rfl
  have hle : charge ≤ 100 * (fcc * 10) := Nat.mul_le_mul_right _ hsoc
  have hwhole : 200 ∣ charge * 239 * resDiv ↔ 20 ∣ soc * fcc * resDiv := by
    rw [← whole_counts_iff, Nat.mul_assoc soc fcc 10]
  rw [hcount, hread, hcharge]
  rcases charge_of_adc charge hdiv with ⟨hdvd, hback⟩ | ⟨hndvd, hless⟩
  · refine iff_of_true ?_ (hwhole.mp hdvd)
    rw [hback, gauge_soc hcg hle hfcc, Nat.mul_div_cancel _ (by omega)]
  · refine iff_of_false (fun heq => ?_) fun h => hndvd (hwhole.mpr h)
    rw [gauge_soc hcg (hless.le.trans hle) hfcc] at heq
    have hlower := (Nat.div_lt_iff_lt_mul (by omega : 0 < fcc * 10)).mpr hless
    have hsame : count * 200 / (239 * resDiv) / (fcc * 10) = soc := by exact_mod_cast heq
    exact absurd hsame hlower.ne

theorem fccMah_mem {d : Device} (hdesign : 500000 ≤ d.cg.chargeFullDesignUah) :
    0 < fccMah d ∧ fccMah d * 1000 ≤ d.cg.chargeFullDesignUah := by
  rw [fccMah, acceptedFcc, rk816MinFccMah]
  split <;> omega

/-- The first poll after a reboot reports the saved percentage exactly when the charge it stands
for is a whole number of counts. -/
theorem reboot_keeps_percentage {d d₁ d₂ : Device} (hres : d.cg.resDiv = 1 ∨ d.cg.resDiv = 2)
    (hdesign : 500000 ≤ d.cg.chargeFullDesignUah)
    (hfit : rk816ChargeToAdc d.cg.chargeFullDesignUah d.cg.resDiv < 2 ^ 31) (hrest : Restores d)
    (hinit : rk816BatInitSoc d = (.ok (), d₁)) (hpre : Preloaded d₁ d₂) :
    (rk816BatReadProps d₂).2.cg.soc = (d.regs .soc).toNat ↔
      20 ∣ (d.regs .soc).toNat * fccMah d * d.cg.resDiv.toNat := by
  obtain ⟨_, hfcc, hdiv, hcal⟩ := initSoc_restores hinit hrest
  obtain ⟨cg, hsoc, hcg⟩ := readProps_soc hpre.quiet hpre.charging
  obtain ⟨hpos, hle⟩ := fccMah_mem hdesign
  have hnat : (d.cg.resDiv.toNat : Int) = d.cg.resDiv := Int.toNat_of_nonneg (by omega)
  have hbytes : (fun i => d₂.regs (.gascnt i)) =
      putBe32 (rk816ChargeToAdc (preloadUah d) d.cg.resDiv) := by
    funext i
    rw [hpre.counter, hcal]
  have hfull : (d.regs .soc).toNat * (fccMah d * 10) ≤ d.cg.chargeFullDesignUah := by
    have hpercent := Nat.mul_le_mul_right (fccMah d * 10) hrest.2.2
    omega
  have hcounts : (d.regs .soc).toNat * (fccMah d * 10) * 239 * d.cg.resDiv.toNat / 200 < 2 ^ 31 := by
    have hscaled := Nat.mul_le_mul_right (239 * d.cg.resDiv.toNat) hfull
    have hdesigned : d.cg.chargeFullDesignUah * (239 * d.cg.resDiv.toNat) / 200 < 2 ^ 31 := by
      rw [rk816ChargeToAdc, ← hnat, Int.tdiv_eq_ediv_of_nonneg (by positivity), Int.mul_assoc] at hfit
      exact_mod_cast hfit
    rw [Nat.mul_assoc _ 239]
    exact lt_of_le_of_lt (Nat.div_le_div_right hscaled) hdesigned
  have hgauge := gauge_preload cg d.cg.resDiv.toNat hrest.2.2 hpos (by omega)
    (by rw [hcg, hpre.driver, hfcc]) hcounts
  rw [hsoc, hbytes, hpre.driver, hdiv]
  rw [hnat] at hgauge
  exact hgauge

section Board

/-- The pack and the sense resistor of the tablet. -/
def board : Rk816Charger where
  resDiv := 2
  chargeFullDesignUah := 4271000
  ocv2cap _ := 0
  voltageK := 1000
  voltageB := 0
  inputCurrentLimitUa := 1600000
  inputCurrentOverrideUa := 0
  fccUah := 4271000
  chargeNowUah := 0
  voltAvgUv := 0
  curAvgUa := 0
  soc := 0
  chargeStatus := 0
  batteryPresent := true
  pluggedIn := false
  usbOnline := false
  acOnline := false

/-- The tablet at probe, with a percentage saved by the last boot. -/
def rebooted (saved : UInt8) : Device where
  regs
    | .soc => saved
    | .newFcc i => putBe32 4271 i
    | _ => 0
  faults := []
  cg := board

/-- The counter takes over its calibration register. -/
def calibrated (d : Device) : Device :=
  { d with regs := fun
      | .gascnt i => d.regs (.gascntCal i)
      | reg => d.regs reg }

theorem initSoc_rebooted {saved : UInt8}
    (h : (rk816BatInitSoc (rebooted saved)).1.isOk = true) :
    rk816BatInitSoc (rebooted saved) = (.ok (), (rk816BatInitSoc (rebooted saved)).2) := by
  rcases hinit : rk816BatInitSoc (rebooted saved) with ⟨_ | _, d⟩
  · rw [hinit] at h
    cases h
  · rfl

theorem preloaded_calibrated {d : Device} (hfaults : d.faults = [])
    (hstatus : statusField (d.regs .supSts) ≠ chargeFinish) : Preloaded d (calibrated d) :=
  ⟨rfl, fun _ => rfl, hfaults, hstatus⟩

theorem reboot_keeps_sixty :
    (rk816BatReadProps (calibrated (rk816BatInitSoc (rebooted 60)).2)).2.cg.soc = 60 :=
  (reboot_keeps_percentage (.inr rfl) (by decide) (by decide) ⟨by decide, by decide, by decide⟩
    (initSoc_rebooted (by decide +kernel))
    (preloaded_calibrated (by decide +kernel) (by decide +kernel))).mpr (by decide)

/-- Fifty-five percent is restored, preloaded and reported as fifty-four. -/
theorem reboot_loses_percent :
    Restores (rebooted 55) ∧
      ∃ d₁, rk816BatInitSoc (rebooted 55) = (.ok (), d₁) ∧ Preloaded d₁ (calibrated d₁) ∧
        (rk816BatReadProps (calibrated d₁)).2.cg.soc = 54 :=
  ⟨⟨by decide, by decide, by decide⟩, _, initSoc_rebooted (by decide +kernel),
    preloaded_calibrated (by decide +kernel) (by decide +kernel), by decide +kernel⟩

end Board

end Taq102.Battery
