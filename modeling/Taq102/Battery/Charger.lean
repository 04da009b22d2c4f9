import Taq102.Battery.Model

/-! The charger of the RK816 driver (`rk816_charger.c`): the input current limit, and the contexts
that change it and the supplies. Each section under the lock is one step, and so is each reading of
the cable's classification before it. -/
namespace Taq102.Battery
open Taq102.Lib Fallible

def einval : Int := -22
def enodev : Int := -19

/-- `RK816_USB_INPUT_CUR_MSK`. -/
def inputCurMsk : UInt8 := 0x0f

/-- The input current limits by the value of the field. -/
def rk816InputCurMa : List Nat := [450, 80, 850, 1000, 1250, 1500, 1750, 2000]

/-- The walk over the ascending part of the table. -/
def walkInputCur (limitMa : Nat) : List (Nat × Nat) → Nat → Nat
  | [], sel => sel
  | (ma, i) :: rest, sel => if limitMa < ma then sel else walkInputCur limitMa rest i

def inputSelector (limitMa : Nat) : Nat :=
  if limitMa < 450 then 1
  else if limitMa < 850 then 0
  else walkInputCur limitMa (rk816InputCurMa.zipIdx.drop 2) 2

def regmapWriteBits (reg : Reg) (mask val : UInt8) : Drv Unit := do
  let old ← regmapRead reg
  regmapWrite reg ((old &&& ~~~mask) ||| (val &&& mask))

def rk816BatSetInputCurrent (limitUa : Nat) : Drv Unit :=
  if limitUa / 1000 < 80 then fail einval
  else regmapWriteBits .usbCtrl inputCurMsk (UInt8.ofNat (inputSelector (limitUa / 1000)))

/-- The limit, in mA, that a value of the register selects. -/
def inputLimitMa (reg : UInt8) : Nat := rk816InputCurMa.getD ((reg &&& inputCurMsk).toNat % 8) 0

/-- The locked section of `rk816_usb_set_prop`. -/
def overrideLimit (limitUa : Nat) : Drv Unit := do
  let reg ← regmapRead .vbMon
  if reg &&& 0x40 = 0 then do
    setCg fun cg => { cg with inputCurrentOverrideUa := 0 }
    fail enodev
  else do
    setCg fun cg => { cg with pluggedIn := true }
    rk816BatSetInputCurrent limitUa
    setCg fun cg => { cg with inputCurrentOverrideUa := limitUa }

/-- Writing a property of the "usb" supply; `limit` is whether it is the input current limit. -/
def rk816UsbSetProp (limit : Bool) (intval : Int) : Drv Unit :=
  if limit = false ∨ intval < 0 then fail einval else overrideLimit intval.toNat

/-- The locked section of `rk816_plug_out_isr`. -/
def rk816PlugOutIsr : Drv Unit := do
  setCg fun cg => { cg with inputCurrentOverrideUa := 0 }
  let _ ← attempt (rk816BatSetInputCurrent 450000)
  pure ()

/-- What the cable work read of extcon. -/
structure Classification where
  sdp : Bool
  dcp : Bool
  cdp : Bool
  deriving DecidableEq, Repr

/-- The limit for a port with that classification. -/
def cableLimit (cg : Rk816Charger) (c : Classification) : Nat :=
  if cg.inputCurrentOverrideUa ≠ 0 ∧ cg.pluggedIn then cg.inputCurrentOverrideUa
  else if c.dcp then cg.inputCurrentLimitUa
  else if c.cdp then 1500000
  else 450000

/-- The locked section of `rk816_bat_update_cables`. -/
def rk816BatUpdateCables (c : Classification) : Drv Unit := do
  setCg fun cg => { cg with acOnline := c.dcp, usbOnline := c.sdp || c.cdp }
  let limitUa ← gets fun d => cableLimit d.cg c
  let _ ← attempt (rk816BatSetInputCurrent limitUa)
  pure ()

/-- The extcon states the driver asks for. -/
inductive Cable where
  | sdp
  | dcp
  | cdp
  deriving DecidableEq, Repr

/-- How far the cable work is. -/
inductive CableWork where
  | idle
  | readSdp (sdp : Bool)
  | readDcp (sdp dcp : Bool)
  | classified (c : Classification)
  deriving DecidableEq, Repr

/-- The driver with the chip, the states extcon holds, and the cable work. -/
structure System where
  device : Device
  extcon : Cable → Int
  cable : CableWork

/-- The contexts of the driver, and what changes around it: the states of extcon, the registers of
the chip, and the outcomes of the next accesses. -/
inductive Step where
  | monitor
  | cable
  | setProp (limit : Bool) (intval : Int)
  | plugIn
  | plugOut
  | extcon (cable : Cable) (state : Int)
  | hardware (regs : Reg → UInt8)
  | bus (outcomes : List Int)

/-- One locked section. -/
def System.locked {α : Type} (s : System) (section_ : Drv α) : System :=
  { s with device := (section_ s.device).2 }

/-- The cable work goes on: it reads the three states, then takes the lock. -/
def System.cableStep (s : System) : System :=
  match s.cable with
  | .idle => { s with cable := .readSdp (decide (0 < s.extcon .sdp)) }
  | .readSdp sdp => { s with cable := .readDcp sdp (decide (0 < s.extcon .dcp)) }
  | .readDcp sdp dcp =>
    { s with cable := .classified { sdp, dcp, cdp := decide (0 < s.extcon .cdp) } }
  | .classified c => { s.locked (rk816BatUpdateCables c) with cable := .idle }

/-- One step. Only the driver writes the register of the input limit; the plug-in interrupt asks for
the monitor. -/
def System.next (s : System) : Step → System
  | .monitor => s.locked rk816BatReadProps
  | .cable => s.cableStep
  | .setProp limit intval => s.locked (rk816UsbSetProp limit intval)
  | .plugIn => s
  | .plugOut => s.locked rk816PlugOutIsr
  | .extcon cable state => { s with extcon := Function.update s.extcon cable state }
  | .hardware regs =>
    { s with device := { s.device with
      regs := Function.update regs .usbCtrl (s.device.regs .usbCtrl) } }
  | .bus outcomes => { s with device := { s.device with faults := outcomes } }

end Taq102.Battery
