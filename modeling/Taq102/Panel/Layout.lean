import Mathlib.Data.Int.Notation

/-! The control centre's geometry (`control_center_layout.h`): absolute screen coordinates,
with the panel's origin subtracted by the painter. -/
namespace Taq102.Panel

structure CcRect where
  x : Int
  y : Int
  w : Int
  h : Int
  deriving DecidableEq, Repr

def ccPanel : CcRect := ⟨416, 56, 560, 400⟩
def ccHandle : CcRect := ⟨678, 66, 36, 5⟩
def ccWifi : CcRect := ⟨432, 80, 264, 160⟩
def ccBright : CcRect := ⟨712, 80, 120, 328⟩
def ccAuto : CcRect := ⟨848, 80, 112, 76⟩
def ccOffnow : CcRect := ⟨848, 164, 112, 76⟩
def ccRescue : CcRect := ⟨848, 248, 112, 76⟩
def ccLoader : CcRect := ⟨848, 332, 112, 76⟩
def ccTimer : CcRect := ⟨432, 256, 264, 76⟩
def ccTimerSegment (i : Int) : CcRect := ⟨432 + i * 66, 289, 66, 43⟩
def ccTimerSelection (i : Int) : CcRect := ⟨436 + i * 66, 290, 58, 36⟩
def ccWifiTitle : CcRect := ⟨448, 88, 208, 30⟩
def ccWifiName : CcRect := ⟨448, 124, 232, 34⟩
def ccWifiAddress : CcRect := ⟨448, 166, 232, 26⟩
def ccWifiSignal : CcRect := ⟨448, 202, 232, 26⟩
def ccWifiDot : CcRect := ⟨668, 99, 12, 12⟩
def ccBrightFill : CcRect := ⟨720, 88, 104, 312⟩
def ccBrightLabel : CcRect := ⟨720, 92, 104, 28⟩
def ccBrightValue : CcRect := ⟨720, 204, 104, 66⟩
def ccBrightPercent : CcRect := ⟨720, 274, 104, 28⟩
def ccAutoLabel : CcRect := ⟨860, 104, 64, 28⟩
def ccAutoDot : CcRect := ⟨932, 112, 12, 12⟩
def ccOffLabel : CcRect := ⟨856, 175, 96, 28⟩
def ccOffNow : CcRect := ⟨856, 201, 96, 28⟩
def ccActionLabel (tile : CcRect) : CcRect := ⟨tile.x + 8, tile.y + 24, tile.w - 16, 28⟩
def ccArmedLabel (tile : CcRect) : CcRect := ⟨tile.x + 8, tile.y + 9, tile.w - 16, 28⟩
def ccArmedHint (tile : CcRect) : CcRect := ⟨tile.x + 8, tile.y + 39, tile.w - 16, 28⟩
def ccTimerTitle : CcRect := ⟨448, 262, 232, 26⟩
def ccNote : CcRect := ⟨432, 354, 264, 28⟩
def ccFooter : CcRect := ⟨432, 416, 528, 24⟩
def ccFooterBaseline : Int := 436
def ccCardRadius : Int := 28
def ccTileRadius : Int := 20
def ccFillRadius : Int := 12
def ccSegmentRadius : Int := 12
def ccDotRadius : Int := 6
def ccHandleRadius : Int := 2

end Taq102.Panel
