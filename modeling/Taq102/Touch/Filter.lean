import Taq102.Lib.CFloat

/-! The 1€ filter and the mapping of controller units to screen pixels (`oneeuro.c`,
`touch_flip.c`), over any C floating type. -/
namespace Taq102.Touch
open Taq102.Lib CFloat
variable {F : Type} [CFloat F]

structure OneEuro (F : Type) where
  mincutoff : F
  beta : F
  dcutoff : F
  xPrev : F
  dxPrev : F
  tPrev : F
  started : Bool

/-- Smoothing factor of a first-order low pass, from a cutoff frequency and an interval. -/
def alpha (cutoff dt : F) : F :=
  let tau := lit 1 / (lit 2 * lit 3.14159265358979323846 * cutoff)
  lit 1 / (lit 1 + tau / dt)

def oneeuroInit (mincutoff beta : F) : OneEuro F :=
  { mincutoff, beta, dcutoff := lit 1, xPrev := lit 0, dxPrev := lit 0, tPrev := lit 0,
    started := false }

/-- The filtered value and the filter after one sample. -/
def oneeuroApply (f : OneEuro F) (x t : F) : F × OneEuro F :=
  if !f.started then
    (x, { f with started := true, xPrev := x, dxPrev := lit 0, tPrev := t })
  else
    let dt := t - f.tPrev
    -- a gap is not a velocity
    let dt := if dt ≤ lit 0 ∨ lit 1 < dt then lit 1 / lit 60 else dt
    let dx := (x - f.xPrev) / dt
    let ad := alpha f.dcutoff dt
    let dxHat := ad * dx + (lit 1 - ad) * f.dxPrev
    let cutoff := f.mincutoff + f.beta * CFloat.abs dxHat
    let a := alpha cutoff dt
    let xHat := a * x + (lit 1 - a) * f.xPrev
    (xHat, { f with xPrev := xHat, dxPrev := dxHat, tPrev := t })

inductive TouchAxis where
  | x
  | y
  deriving DecidableEq, Repr

structure TouchFlip (F : Type) where
  width : Int
  height : Int
  scaleX : F
  scaleY : F
  flipX : Bool
  flipY : Bool
  name : String

/-- The configuration and the return value, -1 for an unknown mode. -/
def touchFlipConfigure (width height declaredX declaredY : Int) (mode : Option String) :
    TouchFlip F × Int :=
  let scaleX := if declaredX > 0 then ofInt width / ofInt (declaredX + 1) else lit 1
  let scaleY := if declaredY > 0 then ofInt height / ofInt (declaredY + 1) else lit 1
  match mode with
  | none | some "xy" => (⟨width, height, scaleX, scaleY, true, true, "xy"⟩, 0)
  | some "x" => (⟨width, height, scaleX, scaleY, true, false, "x"⟩, 0)
  | some "y" => (⟨width, height, scaleX, scaleY, false, true, "y"⟩, 0)
  | some "none" => (⟨width, height, scaleX, scaleY, false, false, "none"⟩, 0)
  | some _ => (⟨width, height, scaleX, scaleY, true, true, "xy"⟩, -1)

def touchFlipValue (config : TouchFlip F) (axis : TouchAxis) (value : Int) (flipped : Bool) : Int :=
  let value := lround (ofInt value * (if axis = .x then config.scaleX else config.scaleY))
  if !flipped then value
  else if axis = .x ∧ config.flipX then config.width - value
  else if axis = .y ∧ config.flipY then config.height - value
  else value

end Taq102.Touch
