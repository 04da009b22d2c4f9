import Taq102.Battery.Frame
import Taq102.Battery.Reboot
import Taq102.Lib.Transition

/-! The presence of a supply, which the plug detection tells, and the cable's classification, which
only refines it. -/
namespace Taq102.Battery
open Taq102.Lib Fallible Transition

/-- A supply is online exactly when one is plugged in. -/
def Tracks (cg : Rk816Charger) : Prop :=
  (cg.usbOnline = true ∨ cg.acOnline = true) ↔ cg.pluggedIn = true

instance (cg : Rk816Charger) : Decidable (Tracks cg) := inferInstanceAs (Decidable (_ ↔ _))

theorem tracks_presence (cg : Rk816Charger) : Tracks (presence cg) := by
  rw [presence]
  split
  · rename_i h
    exact iff_of_true (.inl rfl) h.1
  split
  · rename_i h
    refine iff_of_false ?_ h
    rintro (husb | hac)
    · cases husb
    · cases hac
  · rename_i hnew hplugged
    refine iff_of_true ?_ (not_not.mp hplugged)
    by_contra hoffline
    exact hnew ⟨not_not.mp hplugged, fun husb => hoffline (.inl husb), fun hac => hoffline (.inr hac)⟩

section Poll
variable {d : Device}

theorem readInto_ends {α : Type} (x : Drv α) (store : α → Rk816Charger → Rk816Charger) (d : Device) :
    ∃ e, readInto x store d = (.ok (), e) := by
  have hattempt := attempt_apply (x := x) (s := d)
  rw [readInto, bind_of_ok hattempt]
  rcases (x d).1 with _ | v
  · exact ⟨_, rfl⟩
  · exact ⟨_, rfl⟩

/-- Reading the supply ends with its presence. -/
theorem readSupply_ends (d : Device) :
    ∃ e : Device, readSupply d = (.ok (), { e with cg := presence e.cg }) := by
  obtain ⟨d₁, h₁⟩ := readInto_ends (rk816BatGetVolUv .batVol) storeVoltage d
  obtain ⟨d₂, h₂⟩ := readInto_ends rk816BatGetCurUa storeCurrent d₁
  obtain ⟨d₃, h₃⟩ := readInto_ends (regmapRead .supSts) storeStatus d₂
  obtain ⟨d₄, h₄⟩ := readInto_ends (regmapRead .vbMon) storePlugged d₃
  refine ⟨d₄, ?_⟩
  rw [readSupply, bind_of_ok h₁, bind_of_ok h₂, bind_of_ok h₃, bind_of_ok h₄]
  rfl

theorem tracks_gauge {cg : Rk816Charger} (val : Int) (h : Tracks cg) : Tracks (gauge cg val) := h

/-- After a poll a supply is online exactly when one is plugged in. -/
theorem tracks_readProps (d : Device) : Tracks (rk816BatReadProps d).2.cg := by
  obtain ⟨e, he⟩ := readSupply_ends d
  have hcounter := preserves_counter (lasting_holding fun _ cg => Tracks cg) (fun _ _ _ _ h => h)
    (fun _ _ _ h => h) fun val _ h => tracks_gauge val h
  rw [rk816BatReadProps, bind_of_ok he]
  exact hcounter _ (tracks_presence e.cg)

end Poll

/-! The other contexts. -/

section Sections
variable {d : Device}

theorem setInputCurrent_cg (limitUa : Nat) (d : Device) :
    (rk816BatSetInputCurrent limitUa d).2.cg = d.cg :=
  preserves_setInputCurrent (lasting_holding fun _ cg => cg = d.cg) (fun _ _ h => h) limitUa d rfl

theorem updateCables_cg (c : Classification) (d : Device) :
    (rk816BatUpdateCables c d).2.cg = { d.cg with acOnline := c.dcp, usbOnline := c.sdp || c.cdp } :=
  setInputCurrent_cg _ { d with cg := { d.cg with acOnline := c.dcp, usbOnline := c.sdp || c.cdp } }

/-- The cable work takes the lock with the states it has read, or it reads the next one. -/
theorem cableStep_device (s : System) :
    (∃ c, s.cable = .classified c ∧
      (s.next .cable).device = (rk816BatUpdateCables c s.device).2) ∨
    ((∀ c, s.cable ≠ .classified c) ∧ (s.next .cable).device = s.device) := by
  rw [System.next, System.cableStep]
  cases s.cable with
  | idle => exact .inr ⟨nofun, rfl⟩
  | readSdp sdp => exact .inr ⟨nofun, rfl⟩
  | readDcp sdp dcp => exact .inr ⟨nofun, rfl⟩
  | classified c => exact .inl ⟨c, rfl, rfl⟩

theorem plugOut_cg (d : Device) :
    (rk816PlugOutIsr d).2.cg = { d.cg with inputCurrentOverrideUa := 0 } :=
  setInputCurrent_cg _ { d with cg := { d.cg with inputCurrentOverrideUa := 0 } }

/-- A transfer takes the next outcome. -/
theorem access_eq (d : Device) :
    (d.faults.headD 0 = 0 ∧ access d = (.ok (), { d with faults := d.faults.tail })) ∨
      (d.faults.headD 0 ≠ 0 ∧
        access d = (.error (d.faults.headD 0), { d with faults := d.faults.tail })) := by
  rcases d with ⟨regs, faults, cg⟩
  cases faults with
  | nil => exact .inl ⟨rfl, rfl⟩
  | cons e rest =>
    by_cases he : e = 0
    · subst he
      exact .inl ⟨rfl, rfl⟩
    · refine .inr ⟨he, ?_⟩
      rw [access]
      simp only [if_neg he]
      rfl

/-- A read: it fails with the next outcome, or gives the register. -/
theorem regmapRead_eq (reg : Reg) (d : Device) :
    (d.faults.headD 0 = 0 ∧ regmapRead reg d = (.ok (d.regs reg), { d with faults := d.faults.tail })) ∨
      (d.faults.headD 0 ≠ 0 ∧
        regmapRead reg d = (.error (d.faults.headD 0), { d with faults := d.faults.tail })) := by
  rcases access_eq d with ⟨hok, haccess⟩ | ⟨herror, haccess⟩
  · refine .inl ⟨hok, ?_⟩
    rw [regmapRead, bind_of_ok haccess]
    rfl
  · exact .inr ⟨herror, bind_of_error haccess⟩

/-- `rk816_usb_set_prop` sees a supply, of which the monitor does not know yet. -/
def SeesNew (d : Device) : Prop :=
  d.faults.headD 0 = 0 ∧ d.regs .vbMon &&& 0x40 ≠ 0 ∧ d.cg.pluggedIn = false

/-- What the locked section of `rk816_usb_set_prop` does to the supplies. -/
theorem overrideLimit_online (limitUa : Nat) (d : Device) :
    (overrideLimit limitUa d).2.cg.usbOnline = d.cg.usbOnline ∧
      (overrideLimit limitUa d).2.cg.acOnline = d.cg.acOnline ∧
      ((overrideLimit limitUa d).2.cg.pluggedIn = true ↔ d.cg.pluggedIn = true ∨ SeesNew d) := by
  rw [overrideLimit]
  rcases regmapRead_eq .vbMon d with ⟨hok, hread⟩ | ⟨herror, hread⟩
  · rw [bind_of_ok hread]
    by_cases hclear : d.regs .vbMon &&& 0x40 = 0
    · rw [if_pos hclear]
      exact ⟨rfl, rfl, .inl, fun h => h.elim id fun hnew => absurd hclear hnew.2.1⟩
    · rw [if_neg hclear]
      let plugged : Device :=
        { d with faults := d.faults.tail, cg := { d.cg with pluggedIn := true } }
      have hrest : Preserves (Holding fun _ cg => cg.usbOnline = d.cg.usbOnline ∧
          cg.acOnline = d.cg.acOnline ∧ cg.pluggedIn = true) (do
            rk816BatSetInputCurrent limitUa
            setCg fun cg => { cg with inputCurrentOverrideUa := limitUa }) :=
        preserves_bind (preserves_setInputCurrent (lasting_holding _) (fun _ _ h => h) limitUa)
          fun _ => preserves_setCg fun _ h => h
      obtain ⟨husb, hac, hplugged⟩ := hrest plugged ⟨rfl, rfl, rfl⟩
      refine ⟨husb, hac, iff_of_true hplugged ?_⟩
      rcases hbefore : d.cg.pluggedIn with _ | _
      · exact .inr ⟨hok, hclear, hbefore⟩
      · exact .inl rfl
  · rw [bind_of_error hread]
    exact ⟨rfl, rfl, .inl, fun h => h.elim id fun hnew => absurd hnew.1 herror⟩

/-- A context that goes by extcon alone, or sees a new supply and does not report it. -/
def Misjudges (s : System) : Step → Prop
  | .cable => ∃ c, s.cable = .classified c ∧
      ¬ ((c.sdp = true ∨ c.dcp = true ∨ c.cdp = true) ↔ s.device.cg.pluggedIn = true)
  | .setProp limit intval => limit = true ∧ 0 ≤ intval ∧ SeesNew s.device
  | _ => False

/-- Only such a context leaves the supplies apart from the plug detection. -/
theorem tracks_next {s : System} (h : Tracks s.device.cg) (step : Step) :
    Tracks (s.next step).device.cg ↔ ¬ Misjudges s step := by
  cases step with
  | monitor => exact iff_of_true (tracks_readProps s.device) id
  | plugIn => exact iff_of_true h id
  | extcon => exact iff_of_true h id
  | hardware => exact iff_of_true h id
  | bus => exact iff_of_true h id
  | plugOut =>
    refine iff_of_true ?_ id
    change Tracks (rk816PlugOutIsr s.device).2.cg
    rw [plugOut_cg]
    exact h
  | cable =>
    rcases cableStep_device s with ⟨c, hcable, hdevice⟩ | ⟨hreading, hdevice⟩
    · have hafter : Tracks (s.next .cable).device.cg ↔
          ((c.sdp = true ∨ c.dcp = true ∨ c.cdp = true) ↔ s.device.cg.pluggedIn = true) := by
        rw [hdevice, updateCables_cg, Tracks]
        refine iff_congr ?_ Iff.rfl
        rw [Bool.or_eq_true]
        tauto
      rw [hafter]
      constructor
      · rintro hjudged ⟨c', hc, hwrong⟩
        cases hcable.symm.trans hc
        exact hwrong hjudged
      · intro hall
        by_contra hwrong
        exact hall ⟨c, hcable, hwrong⟩
    · rw [hdevice]
      refine iff_of_true h ?_
      rintro ⟨c, hc, _⟩
      exact hreading c hc
  | setProp limit intval =>
    change Tracks (rk816UsbSetProp limit intval s.device).2.cg ↔ _
    rw [rk816UsbSetProp]
    split
    · rename_i hrefused
      refine iff_of_true h ?_
      rintro ⟨hlimit, hval, _⟩
      rcases hrefused with hother | hnegative
      · exact nomatch hlimit.symm.trans hother
      · omega
    · rename_i hasked
      obtain ⟨hlimit, hval⟩ := not_or.mp hasked
      obtain ⟨husb, hac, hplugged⟩ := overrideLimit_online intval.toNat s.device
      rw [Tracks, husb, hac, hplugged]
      constructor
      · rintro htracks ⟨_, _, hnew⟩
        have honline := htracks.mpr (.inr hnew)
        exact nomatch hnew.2.2.symm.trans (h.mp honline)
      · intro hall
        have hold : ¬ SeesNew s.device := fun hnew =>
          hall ⟨eq_true_of_ne_false hlimit, by omega, hnew⟩
        rw [or_iff_left hold]
        exact h

/-- Throughout a run a supply is online exactly when one is plugged in, if and only if no cable work
takes a classification that disagrees with the plug detection, and no write of the limit sees a
supply before the monitor does. -/
theorem online_tracks_plugged_iff {s : System} (hoff : s.device.cg.pluggedIn = false ∧
    s.device.cg.usbOnline = false ∧ s.device.cg.acOnline = false) (steps : List Step) :
    Throughout System.next (fun s => Tracks s.device.cg) s steps ↔
      ∀ first step rest, steps = first ++ step :: rest →
        ¬ Misjudges (first.foldl System.next s) step := by
  obtain ⟨hplugged, husb, hac⟩ := hoff
  have hstart : Tracks s.device.cg := by
    rw [Tracks, hplugged, husb, hac]
    decide
  exact throughout_iff_admitted (P := fun s : System => Tracks s.device.cg) hstart
    (fun _ step ht => tracks_next ht step) steps

end Sections

section Cables

instance (s : System) (step : Step) : Decidable (Misjudges s step) :=
  match step with
  | .cable =>
    match hcable : s.cable with
    | .classified c =>
      decidable_of_iff (¬ ((c.sdp = true ∨ c.dcp = true ∨ c.cdp = true) ↔
          s.device.cg.pluggedIn = true)) (by
        constructor
        · exact fun hwrong => ⟨c, hcable, hwrong⟩
        · rintro ⟨c', hc, hwrong⟩
          cases hcable.symm.trans hc
          exact hwrong)
    | .idle | .readSdp _ | .readDcp _ _ => isFalse (by
        rintro ⟨c, hc, _⟩
        cases hcable.symm.trans hc)
  | .setProp limit intval =>
    inferInstanceAs (Decidable (limit = true ∧ 0 ≤ intval ∧ _ ∧ _ ∧ _))
  | .monitor | .plugIn | .plugOut | .extcon _ _ | .hardware _ | .bus _ => isFalse id

/-- The tablet after the probe, without a cable. -/
def unplugged : System where
  device := { regs := fun _ => 0, faults := [], cg := board }
  extcon _ := 0
  cable := .idle

/-- The registers with a supply plugged in. -/
def powered : Reg → UInt8
  | .vbMon => 0x40
  | _ => 0

/-- A computer is plugged in, and classified as such after a poll. -/
def computer : List Step :=
  [.hardware powered, .plugIn, .monitor, .extcon .sdp 1, .cable, .cable, .cable, .cable]

theorem computer_tracked : Throughout System.next (fun s => Tracks s.device.cg) unplugged computer := by
  have hadmits : Admits System.next (fun s step => ¬ Misjudges s step) unplugged computer := by
    decide +kernel
  exact (online_tracks_plugged_iff ⟨rfl, rfl, rfl⟩ computer).mpr hadmits.at_split

/-- A supply that extcon cannot classify goes offline although it is plugged in. -/
theorem mute_cable_offline :
    ¬ Tracks ([.hardware powered, .plugIn, .monitor, .cable, .cable, .cable, .cable].foldl
      System.next unplugged).device.cg := by
  decide +kernel

end Cables

end Taq102.Battery
