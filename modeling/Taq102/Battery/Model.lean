import Mathlib.Algebra.Group.Int.Defs
import Mathlib.Algebra.Group.Nat.Defs
import Mathlib.Logic.Function.Basic
import Taq102.Lib.Fallible

/-! The RK816 fuel gauge of the kernel's battery driver (`rk816_charger.c`): the registers it
reads and writes, the state of charge at probe, and the periodic poll. -/
namespace Taq102.Battery
open Taq102.Lib Fallible

/-- The registers the driver uses; in those of several bytes byte 0 is the least significant. -/
inductive Reg where
  | soc
  | remainCap (i : Fin 4)
  | newFcc (i : Fin 4)
  | offCntSave
  | nonActTimerCnt
  | gascnt (i : Fin 4)
  | gascntCal (i : Fin 4)
  | ggsts
  | supSts
  | usbCtrl
  | chrgCtrl0
  | chrgCtrl1
  | chrgCtrl2
  | batCtrl
  | vbMon
  | batVol (i : Fin 2)
  | batCurAvg (i : Fin 2)
  | batOcv (i : Fin 2)
  deriving DecidableEq, Repr

structure Rk816Charger where
  resDiv : Int
  chargeFullDesignUah : Nat
  ocv2cap : Int → Int
  voltageK : Int
  voltageB : Int
  inputCurrentLimitUa : Nat
  inputCurrentOverrideUa : Nat
  fccUah : Int
  chargeNowUah : Int
  voltAvgUv : Int
  curAvgUa : Int
  soc : Int
  chargeStatus : Nat
  batteryPresent : Bool
  pluggedIn : Bool
  usbOnline : Bool
  acOnline : Bool

/-- The chip, the outcomes of the next register accesses (0 is success, and so are those after the
last), and the driver's state. -/
structure Device where
  regs : Reg → UInt8
  faults : List Int
  cg : Rk816Charger

abbrev Drv := Fallible Device

/-- One transfer on the bus. -/
def access : Drv Unit := fun d => match d.faults with
  | [] => (.ok (), d)
  | e :: rest => (if e = 0 then .ok () else .error e, { d with faults := rest })

def regmapRead (reg : Reg) : Drv UInt8 := do
  access
  gets fun d => d.regs reg

def regmapWrite (reg : Reg) (val : UInt8) : Drv Unit := do
  access
  update fun d => { d with regs := Function.update d.regs reg val }

def regmapUpdateBits (reg : Reg) (mask val : UInt8) : Drv Unit := do
  access
  update fun d =>
    { d with regs := Function.update d.regs reg ((d.regs reg &&& ~~~mask) ||| (val &&& mask)) }

def be16 (byte : Fin 2 → UInt8) : Nat :=
  (byte ⟨1, Nat.one_lt_two⟩).toNat * 256 + (byte ⟨0, Nat.zero_lt_two⟩).toNat

def be32 (byte : Fin 4 → UInt8) : Nat :=
  (byte 3).toNat * 2 ^ 24 + (byte 2).toNat * 2 ^ 16 + (byte 1).toNat * 2 ^ 8 + (byte 0).toNat

/-- `(s32)` of an unsigned value. -/
def toS32 (n : Nat) : Int := if n < 2 ^ 31 then n else (n : Int) - 2 ^ 32

/-- The bytes of a value stored in 32 bits. -/
def putBe32 (value : Int) (i : Fin 4) : UInt8 := UInt8.ofNat ((value % 2 ^ 32).toNat / 256 ^ i.val)

def regmapRead16be (reg : Fin 2 → Reg) : Drv Nat := do
  access
  gets fun d => be16 fun i => d.regs (reg i)

def regmapBulkRead32 (reg : Fin 4 → Reg) : Drv Nat := do
  access
  gets fun d => be32 fun i => d.regs (reg i)

/-- The registers after four bytes were stored. -/
def writeBytes (regs : Reg → UInt8) (reg : Fin 4 → Reg) (byte : Fin 4 → UInt8) : Reg → UInt8 :=
  [3, 2, 1, 0].foldl (fun regs i => Function.update regs (reg i) (byte i)) regs

def regmapBulkWrite32 (reg : Fin 4 → Reg) (value : Int) : Drv Unit := do
  access
  update fun d => { d with regs := writeBytes d.regs reg (putBe32 value) }

def rk816AdcToCurrent (adc resDiv : Int) : Int := (adc * 1506 * 2).tdiv resDiv

def rk816AdcToChargeUah (adc resDiv : Int) : Int := (adc * 200).tdiv (239 * resDiv)

def rk816ChargeToAdc (uah resDiv : Int) : Int := (uah * 239 * resDiv).tdiv 200

def rk816OffMinOcvValid : Nat := 30

def rk816MinFccMah : Nat := 500

/-- `RK816_CHRG_STATUS_MSK`. -/
def statusField (reg : UInt8) : Nat := ((reg &&& 0x70) >>> 4).toNat

/-- `CHARGE_FINISH` in the status field. -/
def chargeFinish : Nat := 4

def clamp (x lo hi : Int) : Int := if x < lo then lo else if hi < x then hi else x

def rk816BatGetVolUv (reg : Fin 2 → Reg) : Drv Int := do
  let adc ← regmapRead16be reg
  gets fun d => ((d.cg.voltageK * adc).tdiv 1000 + d.cg.voltageB) * 1100

/-- `sign_extend32` from bit 11. -/
def signExtend11 (n : Nat) : Int :=
  if n % 4096 < 2048 then (n % 4096 : Nat) else ((n % 4096 : Nat) : Int) - 4096

def rk816BatGetCurUa : Drv Int := do
  let adc ← regmapRead16be .batCurAvg
  gets fun d => rk816AdcToCurrent (signExtend11 adc) d.cg.resDiv

def rk816BatGetChargeUah : Drv Int := do
  let count ← regmapBulkRead32 .gascnt
  gets fun d => rk816AdcToChargeUah (toS32 count) d.cg.resDiv

/-- Preloads the coulomb counter through its calibration register. -/
def rk816BatSetChargeUah (uah : Int) : Drv Unit := do
  let resDiv ← gets fun d => d.cg.resDiv
  regmapBulkWrite32 .gascntCal (rk816ChargeToAdc uah resDiv)

def rk816BatSaveNvram : Drv Unit := do
  let cg ← gets fun d => d.cg
  regmapWrite .soc (UInt8.ofNat (cg.soc % 256).toNat)
  regmapBulkWrite32 .remainCap (cg.chargeNowUah.tdiv 1000)
  regmapBulkWrite32 .newFcc (cg.fccUah.tdiv 1000)

def setCg (f : Rk816Charger → Rk816Charger) : Drv Unit := update fun d => { d with cg := f d.cg }

/-- The supply the plug detection tells of, refined by the classification. -/
def presence (cg : Rk816Charger) : Rk816Charger :=
  if cg.pluggedIn ∧ ¬ cg.usbOnline ∧ ¬ cg.acOnline then { cg with usbOnline := true }
  else if ¬ cg.pluggedIn then
    { cg with usbOnline := false, acOnline := false, inputCurrentOverrideUa := 0 }
  else cg

/-- A reading that is kept as it was when the access fails. -/
def readInto {α : Type} (x : Drv α) (store : α → Rk816Charger → Rk816Charger) : Drv Unit := do
  match ← attempt x with
  | .ok v => setCg (store v)
  | .error _ => pure ()

def storeVoltage (v : Int) (cg : Rk816Charger) : Rk816Charger :=
  if 0 ≤ v then { cg with voltAvgUv := v } else cg

def storeCurrent (v : Int) (cg : Rk816Charger) : Rk816Charger := { cg with curAvgUa := v }

def storeStatus (reg : UInt8) (cg : Rk816Charger) : Rk816Charger :=
  { cg with batteryPresent := reg &&& 0x80 ≠ 0, chargeStatus := statusField reg }

def storePlugged (reg : UInt8) (cg : Rk816Charger) : Rk816Charger :=
  { cg with pluggedIn := reg &&& 0x40 ≠ 0 }

/-- The part of a poll before the counter is read. -/
def readSupply : Drv Unit := do
  readInto (rk816BatGetVolUv .batVol) storeVoltage
  readInto rk816BatGetCurUa storeCurrent
  readInto (regmapRead .supSts) storeStatus
  readInto (regmapRead .vbMon) storePlugged
  setCg presence

/-- The charge and the percentage of a counter value. -/
def gauge (cg : Rk816Charger) (val : Int) : Rk816Charger :=
  let chargeNowUah := clamp val 0 cg.fccUah
  { cg with
    chargeNowUah
    soc := clamp (chargeNowUah.tdiv (cg.fccUah.tdiv 100)) 0 100 }

/-- The charge and the percentage in a poll: at the end of charging the counter is re-anchored. -/
def settleCounter (val : Int) : Drv Unit := do
  let cg ← gets fun d => d.cg
  if cg.chargeStatus = chargeFinish ∧ val < cg.fccUah then do
    let _ ← attempt (rk816BatSetChargeUah cg.fccUah)
    setCg fun cg => gauge cg cg.fccUah
  else setCg fun cg => gauge cg val

def readCounter (val : Int) : Drv Unit := do
  settleCounter val
  let _ ← attempt rk816BatSaveNvram
  pure ()

def rk816BatReadProps : Drv Unit := do
  readSupply
  match ← attempt rk816BatGetChargeUah with
  | .error _ => pure ()
  | .ok val => readCounter val

def rk816BatOffMinutes : Drv Nat := do
  let nowMin ← regmapRead .nonActTimerCnt
  let lastMin ← regmapRead .offCntSave
  regmapWrite .offCntSave nowMin
  pure (if nowMin ≠ lastMin then nowMin.toNat else 0)

/-- The full-charge capacity in use for a stored one, in mAh. -/
def acceptedFcc (cg : Rk816Charger) (stored : Nat) : Nat :=
  if stored < rk816MinFccMah ∨ stored > cg.chargeFullDesignUah / 1000 then
    cg.chargeFullDesignUah / 1000
  else stored

/-- The charge a rested pack has by its open-circuit voltage. -/
def seedSoc (firstBoot : Bool) : Drv Unit := do
  let ocvUv ← rk816BatGetVolUv .batOcv
  if ocvUv < 0 then fail ocvUv
  else do
    let ocvSoc ← gets fun d => d.cg.ocv2cap ocvUv
    if ocvSoc < 0 then fail ocvSoc
    else do
      setCg fun cg => { cg with soc := clamp ocvSoc 0 100 }
      if firstBoot then regmapUpdateBits .ggsts 0x10 0 else pure ()

/-- The percentage at probe: seeded for a new pack, a long rest or a byte out of range, otherwise
the one the last boot saved. -/
def decideSoc (ggsts : UInt8) (offMin : Nat) (savedSoc : UInt8) : Drv Unit :=
  let firstBoot := decide (ggsts &&& 0x10 ≠ 0)
  if firstBoot ∨ offMin ≥ rk816OffMinOcvValid ∨ savedSoc.toNat > 100 then seedSoc firstBoot
  else setCg fun cg => { cg with soc := savedSoc.toNat }

/-- Preloads the counter with the percentage decided on, and saves it. -/
def preload : Drv Unit := do
  setCg fun cg => { cg with chargeNowUah := cg.soc * cg.fccUah.tdiv 100 }
  let uah ← gets fun d => d.cg.chargeNowUah
  rk816BatSetChargeUah uah
  rk816BatSaveNvram

def rk816BatInitSoc : Drv Unit := do
  let stored ← regmapBulkRead32 .newFcc
  setCg fun cg => { cg with fccUah := acceptedFcc cg stored * 1000 }
  let ggsts ← regmapRead .ggsts
  let offMin ← rk816BatOffMinutes
  let savedSoc ← regmapRead .soc
  decideSoc ggsts offMin savedSoc
  preload

end Taq102.Battery
