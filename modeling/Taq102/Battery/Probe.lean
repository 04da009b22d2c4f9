import Taq102.Battery.Charger

/-! The probe of the RK816 driver: what it accepts of the board and the battery, and how it sets up
the charger. -/
namespace Taq102.Battery
open Taq102.Lib Fallible

/-- The end of a probe: its code and what `dev_err_probe` prints. -/
structure ProbeError where
  code : Int
  message : Option String
  deriving DecidableEq, Repr

def refused (message : String) : ProbeError := { code := einval, message := some message }

/-- The values of a battery node that the probe uses. -/
structure PowerSupplyBatteryInfo where
  chargeFullDesignUah : Int
  constantChargeCurrentMaxUa : Int
  constantChargeVoltageMaxUv : Int
  chargeTermCurrentUa : Int
  deriving DecidableEq, Repr

/-- `rockchip,resistor-sense-micro-ohms` as a divisor. -/
def probeResDiv (ofValue : Nat) : Except ProbeError Int :=
  if ofValue ≠ 10000 ∧ ofValue ≠ 20000 then
    .error (refused ("unsupported sense resistor " ++ toString ofValue ++ " uOhm\n"))
  else .ok (if ofValue = 20000 then 2 else 1)

def probeBatteryInfo (info : PowerSupplyBatteryInfo) : Except ProbeError Unit :=
  if info.chargeFullDesignUah < rk816MinFccMah * 1000 ∨ info.constantChargeCurrentMaxUa ≤ 0 ∨
      info.constantChargeVoltageMaxUv ≤ 0 ∨ info.chargeTermCurrentUa ≤ 0 then
    .error (refused ("monitored-battery is missing a required value or its design capacity is below "
      ++ toString rk816MinFccMah ++ " mAh\n"))
  else .ok ()

/-- The charge voltages and currents by the value of the field. -/
def rk816ChrgVolMv : List Nat := [4050, 4100, 4150, 4200, 4250, 4300, 4350]

def rk816ChrgCurMa : List Nat := [1000, 1200, 1400, 1600, 1800, 2000, 2250, 2400]

/-- An `int` of micro units as an `unsigned int` of milli units. -/
def milli (micro : Int) : Nat := (Int.tdiv micro 1000 % 4294967296).toNat

/-- The fields that the charger is set up with. -/
structure ChargeSelection where
  volSel : Nat
  curSel : Nat
  finishSel : Nat
  deriving DecidableEq, Repr

/-- The selections of `rk816_bat_init_charger`. -/
def chargeSelection (info : PowerSupplyBatteryInfo) (resDiv : Int) :
    Except ProbeError ChargeSelection :=
  let chrgVolMv := milli info.constantChargeVoltageMaxUv
  let chrgCurMa := milli info.constantChargeCurrentMaxUa
  let finishMa := milli info.chargeTermCurrentUa
  if chrgVolMv < rk816ChrgVolMv.getD 0 0 then
    .error (refused ("constant-charge-voltage-max " ++ toString chrgVolMv ++
      " mV below the lowest the RK816 can select\n"))
  else
    let volSel := walkInputCur chrgVolMv rk816ChrgVolMv.zipIdx 0
    let chrgCurMa := if resDiv = 1 then chrgCurMa / 2 else chrgCurMa
    if chrgCurMa < rk816ChrgCurMa.getD 0 0 then
      .error (refused ("constant-charge-current-max " ++ toString chrgCurMa ++
        " mA below the lowest the RK816 can select\n"))
    else
      let curSel := walkInputCur chrgCurMa rk816ChrgCurMa.zipIdx 0
      let finishMa := if resDiv = 1 then finishMa / 2 else finishMa
      .ok { volSel := volSel, curSel := curSel, finishSel := min 5 (max 2 (finishMa / 50)) - 2 }

def chrgEn : UInt8 := 0x80

def chrgVolSelMsk : UInt8 := 0x70

def chrgCurSelMsk : UInt8 := 0x0f

def chrgFinishCurMsk : UInt8 := 0xc0

def chrgTermDigSignal : UInt8 := 0x20

def chrgTimerCccvEn : UInt8 := 0x04

def usbVlimitEn : UInt8 := 0x08

def usbClimitEn : UInt8 := 0x04

def usbSysEn : UInt8 := 0x40

def usbChrgCtEn : UInt8 := 0x80

/-- `RK816_CHRG_CTRL(0)` with its three fields. -/
def chargeField (volSel curSel : Nat) : UInt8 :=
  chrgEn ||| ((UInt8.ofNat volSel <<< 4) &&& chrgVolSelMsk) ||| (UInt8.ofNat curSel &&& chrgCurSelMsk)

def programCharger (s : ChargeSelection) : Drv Unit := do
  regmapUpdateBits .chrgCtrl0 (chrgEn ||| chrgVolSelMsk ||| chrgCurSelMsk) (chargeField s.volSel s.curSel)
  regmapUpdateBits .chrgCtrl1 chrgFinishCurMsk ((UInt8.ofNat s.finishSel <<< 6) &&& chrgFinishCurMsk)
  regmapUpdateBits .chrgCtrl2 (chrgTermDigSignal ||| chrgTimerCccvEn) chrgTermDigSignal
  regmapUpdateBits .supSts (usbVlimitEn ||| usbClimitEn) (usbVlimitEn ||| usbClimitEn)
  regmapUpdateBits .batCtrl usbSysEn usbSysEn
  regmapUpdateBits .usbCtrl usbChrgCtEn 0
  rk816BatSetInputCurrent 450000

def rk816BatInitCharger (info : PowerSupplyBatteryInfo) : Drv Unit := do
  let resDiv ← gets fun d => d.cg.resDiv
  match chargeSelection info resDiv with
  | .error e => fail e.code
  | .ok s => programCharger s

end Taq102.Battery
