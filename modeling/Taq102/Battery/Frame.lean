import Taq102.Battery.Charger

/-! What the driver's calls keep of the chip and of the driver, whether their accesses succeed or
fail. -/
namespace Taq102.Battery
open Taq102.Lib Fallible

/-- A property that the outcomes still to come do not matter for. -/
def Lasting (P : Device → Prop) : Prop := ∀ d : Device, P d → P { d with faults := d.faults.tail }

/-- A property of the registers and of the driver. -/
abbrev Holding (Q : (Reg → UInt8) → Rk816Charger → Prop) (d : Device) : Prop := Q d.regs d.cg

theorem lasting_holding (Q : (Reg → UInt8) → Rk816Charger → Prop) : Lasting (Holding Q) :=
  fun _ h => h

/-- The same, where the accesses succeed. -/
abbrev Quiet (Q : (Reg → UInt8) → Rk816Charger → Prop) (d : Device) : Prop :=
  d.faults = [] ∧ Holding Q d

theorem lasting_quiet (Q : (Reg → UInt8) → Rk816Charger → Prop) : Lasting (Quiet Q) :=
  fun _ h => ⟨congrArg List.tail h.1, h.2⟩

/-- The registers of the saved state. -/
def Reg.saved : Reg → Bool
  | .soc | .remainCap _ | .newFcc _ => true
  | _ => false

/-- The property holds whatever is written to the register. -/
def Spares (P : Device → Prop) (reg : Reg) : Prop :=
  ∀ (d : Device) val, P d → P { d with regs := Function.update d.regs reg val }

variable {P : Device → Prop} (hP : Lasting P) {α : Type}
include hP

theorem preserves_access : Preserves P access := by
  intro d h
  have hnext := hP d h
  rw [access]
  split
  · exact h
  · rename_i e rest hfaults
    rw [hfaults] at hnext
    exact hnext

/-- A call that reads keeps everything. -/
theorem preserves_read (g : Device → α) : Preserves P (do
    access
    gets g) :=
  preserves_bind (preserves_access hP) fun _ => preserves_gets g

theorem preserves_write {reg : Reg} {val : UInt8} (hreg : Spares P reg) :
    Preserves P (regmapWrite reg val) :=
  preserves_bind (preserves_access hP) fun _ => preserves_update fun d => hreg d val

omit hP in
theorem writeBytes_preserves {reg : Fin 4 → Reg} (byte : Fin 4 → UInt8)
    (hreg : ∀ i, Spares P (reg i)) {d : Device} (h : P d) :
    P { d with regs := writeBytes d.regs reg byte } := by
  have hall (indices : List (Fin 4)) (regs : Reg → UInt8) (h : P { d with regs := regs }) :
      P { d with regs :=
        indices.foldl (fun regs i => Function.update regs (reg i) (byte i)) regs } := by
    induction indices generalizing regs with
    | nil => exact h
    | cons i rest ih => exact ih _ (hreg i _ (byte i) h)
  exact hall _ d.regs h

theorem preserves_bulkWrite32 {reg : Fin 4 → Reg} {value : Int} (hreg : ∀ i, Spares P (reg i)) :
    Preserves P (regmapBulkWrite32 reg value) :=
  preserves_bind (preserves_access hP) fun _ =>
    preserves_update fun _ h => writeBytes_preserves _ hreg h

omit hP in
theorem preserves_setCg {f : Rk816Charger → Rk816Charger}
    (hf : ∀ d : Device, P d → P { d with cg := f d.cg }) : Preserves P (setCg f) :=
  preserves_update hf

theorem preserves_getVolUv (reg : Fin 2 → Reg) : Preserves P (rk816BatGetVolUv reg) :=
  preserves_bind (preserves_read hP _) fun _ => preserves_gets _

theorem preserves_getCurUa : Preserves P rk816BatGetCurUa :=
  preserves_bind (preserves_read hP _) fun _ => preserves_gets _

theorem preserves_getChargeUah : Preserves P rk816BatGetChargeUah :=
  preserves_bind (preserves_read hP _) fun _ => preserves_gets _

omit hP in
theorem preserves_readInto {x : Drv α} {store : α → Rk816Charger → Rk816Charger}
    (hx : Preserves P x) (hstore : ∀ v (d : Device), P d → P { d with cg := store v d.cg }) :
    Preserves P (readInto x store) := by
  refine preserves_bind (preserves_attempt hx) fun result => ?_
  cases result with
  | error => exact preserves_pure ()
  | ok v => exact preserves_setCg (hstore v)

/-- Reading the supply. -/
theorem preserves_readSupply
    (hvoltage : ∀ v (d : Device), P d → P { d with cg := storeVoltage v d.cg })
    (hcurrent : ∀ v (d : Device), P d → P { d with cg := storeCurrent v d.cg })
    (hstatus : ∀ v (d : Device), P d → P { d with cg := storeStatus v d.cg })
    (hplugged : ∀ v (d : Device), P d → P { d with cg := storePlugged v d.cg })
    (hpresence : ∀ d : Device, P d → P { d with cg := presence d.cg }) :
    Preserves P readSupply := by
  refine preserves_bind (preserves_readInto (preserves_getVolUv hP _) hvoltage) fun _ => ?_
  refine preserves_bind (preserves_readInto (preserves_getCurUa hP) hcurrent) fun _ => ?_
  refine preserves_bind (preserves_readInto (preserves_read hP _) hstatus) fun _ => ?_
  refine preserves_bind (preserves_readInto (preserves_read hP _) hplugged) fun _ => ?_
  exact preserves_setCg hpresence

theorem preserves_setCharge (hreg : ∀ i, Spares P (.gascntCal i)) (uah : Int) :
    Preserves P (rk816BatSetChargeUah uah) :=
  preserves_bind (preserves_gets _) fun _ => preserves_bulkWrite32 hP hreg

/-- Programming the limit does not touch the driver's state. -/
theorem preserves_setInputCurrent (hreg : Spares P .usbCtrl) (limitUa : Nat) :
    Preserves P (rk816BatSetInputCurrent limitUa) := by
  refine Preserves.ite (preserves_fail _) ?_
  exact preserves_bind (preserves_read hP _) fun _ => preserves_write hP hreg

section Counter
variable (hsaved : ∀ reg, reg.saved = true → Spares P reg)
include hsaved

theorem preserves_saveNvram : Preserves P rk816BatSaveNvram := by
  refine preserves_bind (preserves_gets _) fun cg => ?_
  refine preserves_bind (preserves_write hP (hsaved .soc rfl)) fun _ => ?_
  refine preserves_bind (preserves_bulkWrite32 hP fun i => hsaved (.remainCap i) rfl) fun _ => ?_
  exact preserves_bulkWrite32 hP fun i => hsaved (.newFcc i) rfl

variable (hcal : ∀ i, Spares P (.gascntCal i))
  (hgauge : ∀ v (d : Device), P d → P { d with cg := gauge d.cg v })
include hcal hgauge

/-- The part of a poll after the counter was read. -/
theorem preserves_readCounter (val : Int) : Preserves P (readCounter val) := by
  have hsettle : Preserves P (settleCounter val) := by
    refine preserves_bind (preserves_gets _) fun cg => Preserves.ite ?_ ?_
    · refine preserves_bind (preserves_attempt (preserves_setCharge hP hcal _)) fun _ => ?_
      exact preserves_setCg fun d => hgauge d.cg.fccUah d
    · exact preserves_setCg (hgauge val)
  refine preserves_bind hsettle fun _ => ?_
  exact preserves_bind (preserves_attempt (preserves_saveNvram hP hsaved)) fun _ =>
    preserves_pure ()

theorem preserves_counter : Preserves P (do
    match ← attempt rk816BatGetChargeUah with
    | .error _ => pure ()
    | .ok val => readCounter val) := by
  refine preserves_bind (preserves_attempt (preserves_getChargeUah hP)) fun result => ?_
  cases result with
  | error => exact preserves_pure ()
  | ok val => exact preserves_readCounter hP hsaved hcal hgauge val

end Counter

end Taq102.Battery
