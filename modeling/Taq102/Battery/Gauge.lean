import Taq102.Battery.Supply

/-! The bounds of the fuel gauge, from the probe on, over every run of the driver. -/
namespace Taq102.Battery
open Taq102.Lib Fallible

theorem clamp_mem {l h : Int} (hle : l ≤ h) (x : Int) : l ≤ clamp x l h ∧ clamp x l h ≤ h := by
  rw [clamp]
  split
  · exact ⟨le_rfl, hle⟩
  split
  · exact ⟨hle, le_rfl⟩
  · exact ⟨by omega, by omega⟩

theorem clamp_eq_self {lo hi x : Int} (hlo : lo ≤ x) (hhi : x ≤ hi) : clamp x lo hi = x := by
  rw [clamp, if_neg (by omega), if_neg (by omega)]

/-- The capacity in use, and a charge within it. -/
def Gauged (mah : Nat) (resDiv : Int) (cg : Rk816Charger) : Prop :=
  cg.fccUah = mah * 1000 ∧ cg.resDiv = resDiv ∧ 0 ≤ cg.chargeNowUah ∧
    cg.chargeNowUah ≤ (mah * 1000 : Int)

theorem gauged_gauge {mah : Nat} {resDiv : Int} {cg : Rk816Charger} (h : Gauged mah resDiv cg)
    (val : Int) : Gauged mah resDiv (gauge cg val) := by
  obtain ⟨hfcc, hdiv, _⟩ := h
  have hcharge := clamp_mem (l := 0) (h := cg.fccUah) (by omega) val
  exact ⟨hfcc, hdiv, hcharge.1, hfcc ▸ hcharge.2⟩

/-! The probe. -/

section Probe
variable {d d' : Device}

theorem seedSoc_ok {firstBoot : Bool} (h : seedSoc firstBoot d = (.ok (), d')) :
    0 ≤ d'.cg.soc ∧ d'.cg.soc ≤ 100 := by
  obtain ⟨ocvUv, d₁, _, h⟩ := bind_ok h
  split at h
  · cases h
  obtain ⟨ocvSoc, d₂, _, h⟩ := bind_ok h
  split at h
  · cases h
  obtain ⟨_, d₃, hset, h⟩ := bind_ok h
  have hsoc : 0 ≤ d₃.cg.soc ∧ d₃.cg.soc ≤ 100 := by
    cases hset
    exact clamp_mem (by decide) ocvSoc
  have hkeeps : Preserves (Holding fun _ cg => 0 ≤ cg.soc ∧ cg.soc ≤ 100)
      (if firstBoot = true then regmapUpdateBits .ggsts 0x10 0 else pure ()) :=
    Preserves.ite (preserves_bind (preserves_access (lasting_holding _)) fun _ =>
      preserves_update fun _ h => h) (preserves_pure ())
  have hafter := hkeeps d₃ hsoc
  rw [h] at hafter
  exact hafter

theorem decideSoc_ok {ggsts savedSoc : UInt8} {offMin : Nat}
    (h : decideSoc ggsts offMin savedSoc d = (.ok (), d')) : 0 ≤ d'.cg.soc ∧ d'.cg.soc ≤ 100 := by
  simp only [decideSoc] at h
  split at h
  · exact seedSoc_ok h
  · rename_i htaken
    obtain ⟨_, _, hsaved⟩ : _ ∧ _ ∧ ¬ savedSoc.toNat > 100 := by
      exact ⟨fun hf => htaken (.inl hf), fun hl => htaken (.inr (.inl hl)),
        fun hs => htaken (.inr (.inr hs))⟩
    cases h
    change 0 ≤ (savedSoc.toNat : Int) ∧ (savedSoc.toNat : Int) ≤ 100
    omega

/-- Deciding the percentage keeps the capacity. -/
theorem preserves_decideSoc {Q : Rk816Charger → Prop}
    (hsoc : ∀ (soc : Int) cg, Q cg → Q { cg with soc := soc }) (ggsts savedSoc : UInt8) (offMin : Nat) :
    Preserves (Holding fun _ cg => Q cg) (decideSoc ggsts offMin savedSoc) := by
  have hlasting := lasting_holding fun _ cg => Q cg
  have hseed (firstBoot : Bool) : Preserves (Holding fun _ cg => Q cg) (seedSoc firstBoot) := by
    refine preserves_bind (preserves_getVolUv hlasting _) fun ocvUv => ?_
    refine Preserves.ite (preserves_fail _) ?_
    refine preserves_bind (preserves_gets _) fun ocvSoc => ?_
    refine Preserves.ite (preserves_fail _) ?_
    refine preserves_bind (preserves_setCg fun d h => hsoc _ d.cg h) fun _ => ?_
    exact Preserves.ite (preserves_bind (preserves_access hlasting) fun _ =>
      preserves_update fun _ h => h) (preserves_pure ())
  exact Preserves.ite (hseed _) (preserves_setCg fun d h => hsoc _ d.cg h)

/-- The charge that is preloaded for a percentage is within the capacity. -/
theorem preload_gauged {mah : Nat} {resDiv : Int} (h : preload d = (.ok (), d'))
    (hcg : d.cg.fccUah = mah * 1000 ∧ d.cg.resDiv = resDiv) (hsoc : 0 ≤ d.cg.soc ∧ d.cg.soc ≤ 100) :
    Gauged mah resDiv d'.cg := by
  obtain ⟨_, d₁, hnow, h⟩ := bind_ok h
  obtain ⟨uah, d₂, hget, h⟩ := bind_ok h
  obtain ⟨_, d₃, hcharge, h⟩ := bind_ok h
  obtain ⟨_, hcg₃⟩ := setCharge_ok hcharge
  obtain ⟨_, hcg'⟩ := saveNvram_ok h
  cases hget
  cases hnow
  have hunit : d.cg.fccUah.tdiv 100 = (mah * 10 : Int) := by
    rw [hcg.1, Int.tdiv_eq_ediv_of_nonneg (by positivity)]
    omega
  have hfull : d.cg.soc * (mah * 10 : Int) ≤ 100 * (mah * 10 : Int) :=
    mul_le_mul_of_nonneg_right hsoc.2 (by positivity)
  have hnonneg : 0 ≤ d.cg.soc * (mah * 10 : Int) := mul_nonneg hsoc.1 (by positivity)
  rw [hcg', hcg₃]
  refine ⟨hcg.1, hcg.2, ?_, ?_⟩
  · change 0 ≤ d.cg.soc * d.cg.fccUah.tdiv 100
    rw [hunit]
    exact hnonneg
  · change d.cg.soc * d.cg.fccUah.tdiv 100 ≤ _
    rw [hunit]
    linarith

/-- After the probe: the capacity is the accepted one, and the charge within it. -/
theorem initSoc_gauged (h : rk816BatInitSoc d = (.ok (), d')) :
    Gauged (fccMah d) d.cg.resDiv d'.cg := by
  obtain ⟨stored, d₁, hstored, h⟩ := bind_ok h
  obtain ⟨rfl, _, hcg₁⟩ := regmapBulkRead32_ok hstored
  obtain ⟨_, d₂, hset, h⟩ := bind_ok h
  obtain ⟨ggsts, d₃, hggsts, h⟩ := bind_ok h
  obtain ⟨_, _, hcg₃⟩ := regmapRead_ok hggsts
  obtain ⟨off, d₄, hoff, h⟩ := bind_ok h
  obtain ⟨_, _, hcg₄⟩ := offMinutes_ok hoff
  obtain ⟨saved, d₅, hsaved, h⟩ := bind_ok h
  obtain ⟨_, _, hcg₅⟩ := regmapRead_ok hsaved
  obtain ⟨_, d₆, hdecide, h⟩ := bind_ok h
  have hset₂ : d₂.cg.fccUah = fccMah d * 1000 ∧ d₂.cg.resDiv = d.cg.resDiv := by
    cases hset
    refine ⟨by simp only [hcg₁, fccMah], ?_⟩
    change d₁.cg.resDiv = d.cg.resDiv
    rw [hcg₁]
  have hbefore : d₅.cg.fccUah = fccMah d * 1000 ∧ d₅.cg.resDiv = d.cg.resDiv := by
    rw [hcg₅, hcg₄, hcg₃]
    exact hset₂
  have hkept := preserves_decideSoc
    (Q := fun cg => cg.fccUah = fccMah d * 1000 ∧ cg.resDiv = d.cg.resDiv) (fun _ _ h => h)
    ggsts saved off d₅ hbefore
  rw [hdecide] at hkept
  exact preload_gauged h hkept (decideSoc_ok hdecide)

theorem fccMah_min (hdesign : 500000 ≤ d.cg.chargeFullDesignUah) : 500 ≤ fccMah d := by
  rw [fccMah, acceptedFcc, rk816MinFccMah]
  split <;> omega

end Probe

/-! The poll. -/

section Poll
variable {d : Device} {mah : Nat} {resDiv : Int}

/-- What the poll reads of the counter. -/
def polledCounter (d : Device) : Except Int Int := (rk816BatGetChargeUah (readSupply d).2).1

/-- The device after the poll read the counter. -/
def polled (d : Device) : Device := (rk816BatGetChargeUah (readSupply d).2).2

theorem readProps_eq (d : Device) : rk816BatReadProps d = (match polledCounter d with
    | .error _ => pure ()
    | .ok val => readCounter val) (polled d) := by
  obtain ⟨e, he⟩ := readSupply_ends d
  have hsupply : readSupply d = (.ok (), (readSupply d).2) := by rw [he]
  have hattempt := attempt_apply (x := rk816BatGetChargeUah) (s := (readSupply d).2)
  rw [rk816BatReadProps, bind_of_ok hsupply, bind_of_ok hattempt]
  rfl

/-- Up to there the poll writes no register, and keeps the gauge's fields. -/
theorem polled_keeps (d : Device) : (polled d).regs = d.regs ∧
    (polled d).cg.fccUah = d.cg.fccUah ∧ (polled d).cg.resDiv = d.cg.resDiv ∧
      (polled d).cg.chargeNowUah = d.cg.chargeNowUah := by
  have hlasting := lasting_holding fun regs cg => regs = d.regs ∧ cg.fccUah = d.cg.fccUah ∧
    cg.resDiv = d.cg.resDiv ∧ cg.chargeNowUah = d.cg.chargeNowUah
  have hsupply := preserves_readSupply hlasting
    (fun v e h => by
      rw [storeVoltage]
      split
      · exact h
      · exact h)
    (fun _ _ h => h) (fun _ _ h => h) (fun _ _ h => h)
    (fun e h => by
      rw [presence]
      split
      · exact h
      split
      · exact h
      · exact h)
  exact preserves_getChargeUah hlasting _ (hsupply d ⟨rfl, rfl, rfl, rfl⟩)

theorem saveNvram_keeps (d : Device) : (rk816BatSaveNvram d).2.cg = d.cg ∧
    ∀ i, (rk816BatSaveNvram d).2.regs (.gascntCal i) = d.regs (.gascntCal i) := by
  have hlasting := lasting_holding fun regs cg => cg = d.cg ∧
    ∀ i, regs (.gascntCal i) = d.regs (.gascntCal i)
  refine preserves_saveNvram hlasting (fun reg hsaved e val h => ⟨h.1, fun i => ?_⟩) d
    ⟨rfl, fun _ => rfl⟩
  have hne : Reg.gascntCal i ≠ reg := by
    rintro rfl
    cases hsaved
  exact (Function.update_of_ne hne ..).trans (h.2 i)

theorem setCharge_keeps (uah : Int) (d : Device) : (rk816BatSetChargeUah uah d).2.cg = d.cg :=
  preserves_setCharge (lasting_holding fun _ cg => cg = d.cg) (fun _ _ _ h => h) uah d rfl

/-- After the counter was read the percentage is the quotient of a value within the capacity; the
calibration register is written only at the end of charging, for a counter below the capacity. -/
theorem readCounter_spec (val : Int) (d : Device) :
    (∃ v, (readCounter val d).2.cg = gauge d.cg v) ∧
      (¬ (d.cg.chargeStatus = chargeFinish ∧ val < d.cg.fccUah) →
        ∀ i, (readCounter val d).2.regs (.gascntCal i) = d.regs (.gascntCal i)) := by
  have hget : gets (fun d : Device => d.cg) d = (.ok d.cg, d) := rfl
  by_cases hanchor : d.cg.chargeStatus = chargeFinish ∧ val < d.cg.fccUah
  · refine ⟨⟨d.cg.fccUah, ?_⟩, fun h => absurd hanchor h⟩
    have hattempt := attempt_apply (x := rk816BatSetChargeUah d.cg.fccUah) (s := d)
    have hkept := setCharge_keeps d.cg.fccUah d
    generalize (rk816BatSetChargeUah d.cg.fccUah d).2 = e at hattempt hkept
    have hsettle : settleCounter val d = (.ok (), { e with cg := gauge e.cg e.cg.fccUah }) := by
      rw [settleCounter, bind_of_ok hget, if_pos hanchor, bind_of_ok hattempt]
      rfl
    rw [readCounter, bind_of_ok hsettle, ← hkept]
    exact (saveNvram_keeps _).1
  · have hsettle : settleCounter val d = (.ok (), { d with cg := gauge d.cg val }) := by
      rw [settleCounter, bind_of_ok hget, if_neg hanchor]
      rfl
    obtain ⟨hcg, hregs⟩ := saveNvram_keeps { d with cg := gauge d.cg val }
    rw [readCounter, bind_of_ok hsettle]
    exact ⟨⟨val, hcg⟩, fun _ => hregs⟩

/-- A poll from a state within the bounds ends within them. -/
theorem readProps_gauged (h : Gauged mah resDiv d.cg) :
    Gauged mah resDiv (rk816BatReadProps d).2.cg := by
  obtain ⟨_, hfcc, hdiv, hcharge⟩ := polled_keeps d
  have hpolled : Gauged mah resDiv (polled d).cg := by
    rw [Gauged, hfcc, hdiv, hcharge]
    exact h
  rw [readProps_eq]
  cases hcount : polledCounter d with
  | error e => exact hpolled
  | ok val =>
    obtain ⟨⟨v, hcg⟩, _⟩ := readCounter_spec val (polled d)
    change Gauged mah resDiv (readCounter val (polled d)).2.cg
    rw [hcg]
    exact gauged_gauge hpolled v

/-- The percentage after a poll that read the counter. -/
theorem readProps_percent (hmah : 0 < mah) (h : Gauged mah resDiv d.cg) {val : Int}
    (hcount : polledCounter d = .ok val) :
    (rk816BatReadProps d).2.cg.soc =
      100 * (rk816BatReadProps d).2.cg.chargeNowUah / (rk816BatReadProps d).2.cg.fccUah := by
  obtain ⟨_, hfcc, _⟩ := polled_keeps d
  obtain ⟨⟨v, hcg⟩, _⟩ := readCounter_spec val (polled d)
  have hafter : (rk816BatReadProps d).2.cg = gauge (polled d).cg v := by
    rw [readProps_eq, hcount]
    exact hcg
  have hcapacity : (polled d).cg.fccUah = mah * 1000 := hfcc.trans h.1
  rw [hafter]
  change clamp ((clamp v 0 (polled d).cg.fccUah).tdiv ((polled d).cg.fccUah.tdiv 100)) 0 100 =
    100 * clamp v 0 (polled d).cg.fccUah / (polled d).cg.fccUah
  rw [hcapacity]
  obtain ⟨hlow, hhigh⟩ := clamp_mem (l := 0) (h := (mah * 1000 : Int)) (by positivity) v
  generalize clamp v 0 (mah * 1000 : Int) = charge at hlow hhigh
  have hunit : (mah * 1000 : Int).tdiv 100 = mah * 10 := by
    rw [Int.tdiv_eq_ediv_of_nonneg (by positivity)]
    omega
  have hquotient : 100 * charge / (mah * 1000 : Int) = charge / (mah * 10 : Int) := by
    rw [show (mah * 1000 : Int) = 100 * (mah * 10) by ring]
    exact Int.mul_ediv_mul_of_pos _ _ (by decide)
  rw [hunit, hquotient, Int.tdiv_eq_ediv_of_nonneg hlow]
  refine clamp_eq_self (Int.ediv_nonneg hlow (by positivity)) ?_
  refine Int.ediv_le_of_le_mul (by positivity) ?_
  linarith

/-- A poll that changes the calibration register. -/
theorem readProps_anchors {i : Fin 4}
    (hchanged : (rk816BatReadProps d).2.regs (.gascntCal i) ≠ d.regs (.gascntCal i)) :
    (rk816BatReadProps d).2.cg.chargeStatus = chargeFinish ∧
      ∃ val, polledCounter d = .ok val ∧ val < d.cg.fccUah := by
  obtain ⟨hregs, hfcc, _⟩ := polled_keeps d
  rw [readProps_eq] at hchanged ⊢
  cases hcount : polledCounter d with
  | error e =>
    rw [hcount] at hchanged
    exact absurd (congrFun hregs (.gascntCal i)) hchanged
  | ok val =>
    rw [hcount] at hchanged
    obtain ⟨⟨v, hcg⟩, hkept⟩ := readCounter_spec val (polled d)
    by_cases hanchor : (polled d).cg.chargeStatus = chargeFinish ∧ val < (polled d).cg.fccUah
    · refine ⟨?_, val, rfl, hfcc ▸ hanchor.2⟩
      change (readCounter val (polled d)).2.cg.chargeStatus = chargeFinish
      rw [hcg]
      exact hanchor.1
    · exact absurd ((hkept hanchor i).trans (congrFun hregs (.gascntCal i))) hchanged

end Poll

/-- The conversion of the counter fits a signed 32-bit value. -/
theorem adcToChargeUah_fits {resDiv : Int} (hdiv : resDiv = 1 ∨ resDiv = 2) {count : Nat}
    (hcount : count < 2 ^ 32) :
    -2 ^ 31 ≤ rk816AdcToChargeUah (toS32 count) resDiv ∧
      rk816AdcToChargeUah (toS32 count) resDiv < 2 ^ 31 := by
  have hadc : -2 ^ 31 ≤ toS32 count ∧ toS32 count < 2 ^ 31 := by
    rw [toS32]
    split <;> omega
  have hsign : (239 * resDiv).sign = 1 := Int.sign_eq_one_of_pos (by omega)
  rw [rk816AdcToChargeUah, Int.tdiv_eq_ediv, hsign]
  rcases hdiv with rfl | rfl
  · split <;> omega
  · split <;> omega

/-! The runs. -/

/-- The other contexts leave the gauge's fields alone. -/
theorem gauged_next {mah : Nat} {resDiv : Int} {s : System} (h : Gauged mah resDiv s.device.cg)
    (step : Step) : Gauged mah resDiv (s.next step).device.cg := by
  cases step with
  | monitor => exact readProps_gauged h
  | plugIn => exact h
  | extcon => exact h
  | hardware => exact h
  | bus => exact h
  | plugOut =>
    change Gauged mah resDiv (rk816PlugOutIsr s.device).2.cg
    rw [plugOut_cg]
    exact h
  | cable =>
    rcases cableStep_device s with ⟨c, _, hdevice⟩ | ⟨_, hdevice⟩
    · rw [hdevice, updateCables_cg]
      exact h
    · rw [hdevice]
      exact h
  | setProp limit intval =>
    have hlasting := lasting_holding fun _ cg => Gauged mah resDiv cg
    have hsets : Preserves (Holding fun _ cg => Gauged mah resDiv cg)
        (rk816UsbSetProp limit intval) := by
      refine Preserves.ite (preserves_fail _) ?_
      refine preserves_bind (preserves_read hlasting _) fun reg => Preserves.ite ?_ ?_
      · exact preserves_bind (preserves_setCg fun _ h => h) fun _ => preserves_fail _
      · refine preserves_bind (preserves_setCg fun _ h => h) fun _ => ?_
        refine preserves_bind (preserves_setInputCurrent hlasting (fun _ _ h => h) _) fun _ => ?_
        exact preserves_setCg fun _ h => h
    exact hsets s.device h

/-- What holds of the gauge in every state from the probe on. -/
structure Bounded (design : Nat) (fccUah : Int) (cg : Rk816Charger) : Prop where
  fcc : cg.fccUah = fccUah
  range : 500000 ≤ fccUah ∧ fccUah ≤ design
  divisors : cg.resDiv ≠ 0 ∧ 239 * cg.resDiv ≠ 0 ∧ cg.fccUah.tdiv 100 ≠ 0
  charge : 0 ≤ cg.chargeNowUah ∧ cg.chargeNowUah ≤ cg.fccUah

/-- What holds of a poll. Whatever the chip's registers hold, the calibration register is only
written at the end of charging, with the counter below the full charge. -/
structure PollsWell (d : Device) : Prop where
  fits : ∀ count < 2 ^ 32, -2 ^ 31 ≤ rk816AdcToChargeUah (toS32 count) d.cg.resDiv ∧
    rk816AdcToChargeUah (toS32 count) d.cg.resDiv < 2 ^ 31
  percent : ∀ val, polledCounter d = .ok val → (rk816BatReadProps d).2.cg.soc =
    100 * (rk816BatReadProps d).2.cg.chargeNowUah / (rk816BatReadProps d).2.cg.fccUah
  anchors : ∀ (regs : Reg → UInt8) (i : Fin 4),
    (rk816BatReadProps { d with regs }).2.regs (.gascntCal i) ≠ regs (.gascntCal i) →
      (rk816BatReadProps { d with regs }).2.cg.chargeStatus = chargeFinish ∧
        ∃ val, polledCounter { d with regs } = .ok val ∧ val < d.cg.fccUah

/-- After a probe with any registers and any outcomes of its accesses, in every state that the
contexts of the driver reach: the gauge is within its bounds, and so is a poll from there. -/
theorem gauge_bounded {d d₀ : Device} (hdiv : d.cg.resDiv = 1 ∨ d.cg.resDiv = 2)
    (hdesign : 500000 ≤ d.cg.chargeFullDesignUah) (hinit : rk816BatInitSoc d = (.ok (), d₀))
    {s : System} (hs : s.device = d₀) (steps : List Step) :
    Bounded d.cg.chargeFullDesignUah d₀.cg.fccUah (steps.foldl System.next s).device.cg ∧
      PollsWell (steps.foldl System.next s).device := by
  have hprobed := initSoc_gauged hinit
  have hmin := fccMah_min hdesign
  obtain ⟨_, hdesigned⟩ := fccMah_mem hdesign
  have hrun : Gauged (fccMah d) d.cg.resDiv (steps.foldl System.next s).device.cg := by
    refine (Transition.run_foldl System.next s steps).invariant
      (fun t => Gauged (fccMah d) d.cg.resDiv t.device.cg) (hs ▸ hprobed) ?_
    rintro t step u ht rfl
    exact gauged_next ht step
  generalize (steps.foldl System.next s).device = e at hrun
  obtain ⟨hfcc, hres, hcharge⟩ := hrun
  have hunit : (fccMah d * 1000 : Int).tdiv 100 = fccMah d * 10 := by
    rw [Int.tdiv_eq_ediv_of_nonneg (by positivity)]
    omega
  refine ⟨⟨hfcc.trans hprobed.1.symm, ?_, ⟨by omega, by omega, ?_⟩, ?_⟩, ⟨fun count hcount => ?_,
    fun val hcount => ?_, fun _ _ hchanged => readProps_anchors hchanged⟩⟩
  · rw [hprobed.1]
    omega
  · rw [hfcc, hunit]
    omega
  · rw [hfcc]
    exact hcharge
  · rw [hres]
    exact adcToChargeUah_fits hdiv hcount
  · exact readProps_percent (by omega) ⟨hfcc, hres, hcharge⟩ hcount

section Board

/-- The tablet after a probe that restored sixty percent. -/
def probed : System where
  device := (rk816BatInitSoc (rebooted 60)).2
  extcon _ := 0
  cable := .idle

/-- A computer is plugged in and classified, with a poll whose second access fails. -/
theorem board_bounded :
    Bounded 4271000 4271000 ((.bus [0, -5] :: computer).foldl System.next probed).device.cg ∧
      PollsWell ((.bus [0, -5] :: computer).foldl System.next probed).device := by
  have hfcc : (rk816BatInitSoc (rebooted 60)).2.cg.fccUah = 4271000 := by decide +kernel
  rw [← hfcc]
  exact gauge_bounded (.inr rfl) (by decide) (initSoc_rebooted (by decide +kernel)) (s := probed) rfl
    (.bus [0, -5] :: computer)

end Board

end Taq102.Battery
