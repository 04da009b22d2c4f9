import Taq102.Graphics.Canvas
import Taq102.Lib.CString
import Taq102.Panel.Model

/-! The control centre's painter (`control_center_paint.c`): the whole panel, and the update
that repaints the controls whose state has changed. -/
namespace Taq102.Panel.Paint
open Taq102.Lib CFloat
open Taq102.Graphics

def glass : UInt32 := 0xC7141416
def tileColor : UInt32 := 0xEB2A2A2E
def ink : UInt32 := 0xFFF5F5F7
def muted : UInt32 := 0xFF9A9AA0
def amber : UInt32 := 0xFFE08A00

/-- An opened TrueType font. -/
structure TtFont where
  width : CStr → Int
  height : Int
  baseline : Int
  drawFit : Canvas → Int → Int → Int → CStr → UInt32 → Canvas

/-- The faces of the panel; one that is missing leaves its texts to the bitmap glyphs. -/
structure CcFonts where
  title : Option TtFont
  value : Option TtFont
  big : Option TtFont
  label : Option TtFont
  footer : Option TtFont

def noFonts : CcFonts := ⟨none, none, none, none, none⟩

/-- The longest beginning of `value`, at most `count` bytes, that fits the width. -/
def shrink (value : CStr) (w : Int) : Nat → Nat
  | 0 => 0
  | n + 1 => if canvasTextWidth (value.take (n + 1)) 3 > w then shrink value w n else n + 1

/-- The bitmap text that fits a box, with an ellipsis where bytes were dropped. -/
def fitText (value : CStr) (w : Int) : CStr :=
  let count := if 128 ≤ value.length then 127 else value.length
  let count := shrink value w count
  if count < value.length ∧ 3 ≤ count then value.take (count - 3) ++ cstr "..."
  else value.take count

def textX (font : Option TtFont) (r : CcRect) (value : CStr) (centered : Bool) : Int :=
  let width := match font with
    | some font => font.width value
    | none => canvasTextWidth value 3
  let x := r.x - ccPanel.x
  if centered ∧ width < r.w then x + (r.w - width).tdiv 2 else x

/-- The bitmap text drawn alone on an empty canvas of its own. -/
def textMask (r : CcRect) (value : CStr) (color : UInt32) : Canvas :=
  canvasText { w := r.w, h := 15, clipX := 0, clipY := 0, clipW := 0, clipH := 0, px := fun _ => 0 }
    0 0 (fitText value r.w) 3 color

def text (c : Canvas) (font : Option TtFont) (r : CcRect) (value : CStr) (color : UInt32)
    (centered : Bool) (baseline : Int) : Canvas :=
  let x := textX font r value centered
  match font with
  | some font =>
    let y := if baseline ≠ 0 then baseline - ccPanel.y
      else r.y - ccPanel.y + (r.h - font.height).tdiv 2 + font.baseline
    font.drawFit c x y r.w value color
  | none =>
    let mask := textMask r value color
    let y := if baseline ≠ 0 then baseline - ccPanel.y - 15
      else r.y - ccPanel.y + (r.h - 15).tdiv 2
    (pixels 0 0 mask.w mask.h).foldl (fun c p =>
      if mask.px p ≠ 0 then canvasBlend c (x + p.1) (y + p.2) (mask.px p) else c) c

variable {F : Type} (D : Type) [CFloat D]

def rectangle (c : Canvas) (r : CcRect) (radius : Int) (color : UInt32) : Canvas :=
  canvasBlendRoundRect D c (r.x - ccPanel.x) (r.y - ccPanel.y) r.w r.h radius color

def wifiSignal (c : Canvas) (m : CcModel F) (f : CcFonts) : Canvas :=
  text c f.label ccWifiSignal (snprintf 32 (decimal m.levelDbm ++ cstr " dBm")) muted false 0

def wifiName (m : CcModel F) : CStr :=
  match m.wifi with
  | .off => cstr "Off"
  | .starting => cstr "Turning on…"
  | .associating => cstr "Associating…"
  | .connected => if m.ssid ≠ [] then m.ssid else cstr "Connected"
  | .failed => cstr "Failed"

def wifiDetail (m : CcModel F) : CStr :=
  match m.wifi with
  | .off => cstr "Tap to turn on"
  | .starting => m.ssid
  | .associating => m.ssid
  | .connected => m.addr
  | .failed => cstr "Tap to retry"

def wifi (c : Canvas) (m : CcModel F) (f : CcFonts) : Canvas :=
  let c := rectangle D c ccWifi ccTileRadius tileColor
  let c := text c f.title ccWifiTitle (cstr "Wi-Fi") ink false 0
  let c := rectangle D c ccWifiDot ccDotRadius (if m.wifi = .connected then amber else muted)
  let c := text c f.value ccWifiName (wifiName m) ink false 0
  let c := text c f.label ccWifiAddress (wifiDetail m) muted false 0
  if m.wifi = .connected then wifiSignal c m f else c

def brightnessMaximum (m : CcModel F) : Int := if m.brightnessMax < 8 then 8 else m.brightnessMax

def brightnessLevel (m : CcModel F) : Int :=
  if m.brightness < 8 then 8
  else if m.brightness > brightnessMaximum m then brightnessMaximum m
  else m.brightness

/-- The height of the filled part of the slider. -/
def fillHeight (m : CcModel F) : Int :=
  if brightnessMaximum m = 8 then 0
  else
    let part : D := ofInt (brightnessLevel m - 8) / ofInt (brightnessMaximum m - 8)
    trunc (part * ofInt ccBrightFill.h)

def brightness (c : Canvas) (m : CcModel F) (f : CcFonts) : Canvas :=
  let c := rectangle D c ccBright ccTileRadius tileColor
  let height := fillHeight D m
  let fill := { ccBrightFill with y := ccBrightFill.y + (ccBrightFill.h - height), h := height }
  let c := if height ≠ 0 then
      rectangle D c fill (if height < ccFillRadius * 2 then height.tdiv 2 else ccFillRadius) amber
    else c
  let c := text c f.label ccBrightLabel (cstr "Brightness") ink true 0
  let percent : D := ofInt (brightnessLevel m) * lit 100 / ofInt (brightnessMaximum m) + lit 0.5
  let c := text c f.big ccBrightValue (snprintf 16 (decimal (trunc percent))) ink true 0
  text c f.label ccBrightPercent (cstr "%") ink true 0

def action (c : Canvas) (tile : CcRect) (label : CStr) (armed : Bool) (f : CcFonts) : Canvas :=
  let c := rectangle D c tile ccTileRadius (if armed then amber else tileColor)
  let c := text c f.label (if armed then ccArmedLabel tile else ccActionLabel tile) label ink true 0
  if armed then text c f.label (ccArmedHint tile) (cstr "Tap again") ink true 0 else c

def paintAuto (c : Canvas) (m : CcModel F) (f : CcFonts) : Canvas :=
  let c := rectangle D c ccAuto ccTileRadius (if m.autoOn ≠ 0 then amber else tileColor)
  let c := text c f.label ccAutoLabel (cstr "Auto") ink false 0
  rectangle D c ccAutoDot ccDotRadius (if m.autoOn ≠ 0 then ink else muted)

def timerLabel : Fin 4 → CStr
  | 0 => cstr "1"
  | 1 => cstr "5"
  | 2 => cstr "15"
  | 3 => cstr "never"

def paintTimer (c : Canvas) (m : CcModel F) (f : CcFonts) : Canvas :=
  let c := rectangle D c ccTimer ccTileRadius tileColor
  let c := text c f.label ccTimerTitle (cstr "Screen off after") muted false 0
  (List.finRange 4).foldl (fun c i =>
    let c := if m.sleepMinutes = timerMinutes i then
        rectangle D c (ccTimerSelection i.val) ccSegmentRadius amber
      else c
    text c f.label (ccTimerSelection i.val) (timerLabel i) ink true 0) c

def paintFooter (c : Canvas) (m : CcModel F) (f : CcFonts) : Canvas :=
  let footer := snprintf 256 (decimal m.cap ++ cstr " % · " ++ m.battWord ++ cstr " · " ++ m.build ++
    cstr " · " ++ m.kernel)
  text c f.footer ccFooter footer muted false ccFooterBaseline

def paintNote (c : Canvas) (m : CcModel F) (f : CcFonts) : Canvas :=
  if m.note ≠ [] then text c f.footer ccNote m.note amber false 0 else c

def paintOff (c : Canvas) (f : CcFonts) : Canvas :=
  let c := rectangle D c ccOffnow ccTileRadius tileColor
  let c := text c f.label ccOffLabel (cstr "Screen off") ink true 0
  text c f.label ccOffNow (cstr "now") muted true 0

def paintActions (c : Canvas) (m : CcModel F) (f : CcFonts) : Canvas :=
  let c := action D c ccRescue (cstr "Rescue") (m.armed = 1) f
  action D c ccLoader (cstr "Loader") (m.armed = 2) f

def clear (c : Canvas) : Canvas :=
  (pixels 0 0 c.w c.h).foldl (fun c p => c.set p 0) c

/-- The fonts in use; without any, every face is missing. -/
def faces (fonts : Option CcFonts) : CcFonts := fonts.getD noFonts

def ccPaint (c : Canvas) (m : CcModel F) (fonts : Option CcFonts) : Canvas :=
  if c.w ≤ 0 ∨ c.h ≤ 0 then c
  else
    let f := faces fonts
    let c := clear c
    let c := rectangle D c ccPanel ccCardRadius glass
    let c := rectangle D c ccHandle ccHandleRadius muted
    let c := wifi D c m f
    let c := brightness D c m f
    let c := paintAuto D c m f
    let c := paintOff D c f
    let c := paintActions D c m f
    let c := paintTimer D c m f
    let c := paintNote c m f
    paintFooter c m f

/-- The rectangle a repaint has damaged so far, grown by another. -/
def damage (dirty r : CcRect) : CcRect :=
  if dirty.w = 0 then r
  else
    let right := if r.x + r.w > dirty.x + dirty.w then r.x + r.w else dirty.x + dirty.w
    let bottom := if r.y + r.h > dirty.y + dirty.h then r.y + r.h else dirty.y + dirty.h
    let x := if r.x < dirty.x then r.x else dirty.x
    let y := if r.y < dirty.y then r.y else dirty.y
    ⟨x, y, right - x, bottom - y⟩

/-- Uniform glass where a control was. -/
def restoreGlass (c : Canvas) (r : CcRect) : Canvas :=
  let x := r.x - ccPanel.x
  let y := r.y - ccPanel.y
  let c := (boxPixels c.toCanvasSize x y r.w r.h).foldl (fun c p => c.set p 0) c
  canvasBlendRect c x y r.w r.h glass

/-- A canvas being updated: its pixels, the damage and the return value. -/
structure Update where
  canvas : Canvas
  dirty : CcRect
  changed : Int

/-- Restores the glass under a control. -/
def Update.restore (u : Update) (r : CcRect) : Update :=
  { u with canvas := restoreGlass u.canvas r, dirty := damage u.dirty r }

/-- Paints over the restored glass. -/
def Update.paint (u : Update) (paint : Canvas → Canvas) : Update :=
  { u with canvas := paint u.canvas, changed := 1 }

/-- Only the signal of a connection: the tile's own colour is put back under it. -/
def paintSignal (c : Canvas) (m : CcModel F) (f : CcFonts) : Canvas :=
  let c := canvasBlendRect c (ccWifiSignal.x - ccPanel.x) (ccWifiSignal.y - ccPanel.y)
    ccWifiSignal.w ccWifiSignal.h tileColor
  wifiSignal c m f

def updateBrightness (u : Update) (m old : CcModel F) (f : CcFonts) : Update :=
  if m.brightness ≠ old.brightness ∨ m.brightnessMax ≠ old.brightnessMax then
    (u.restore ccBright).paint fun c => brightness D c m f
  else u

def updateAuto (u : Update) (m old : CcModel F) (f : CcFonts) : Update :=
  if m.autoOn ≠ old.autoOn then (u.restore ccAuto).paint fun c => paintAuto D c m f else u

def updateWifi (u : Update) (m old : CcModel F) (f : CcFonts) : Update :=
  if m.wifi ≠ old.wifi ∨ m.ssid ≠ old.ssid ∨ m.addr ≠ old.addr then
    (u.restore ccWifi).paint fun c => wifi D c m f
  else if m.wifi = .connected ∧ m.levelDbm ≠ old.levelDbm then
    (u.restore ccWifiSignal).paint fun c => paintSignal c m f
  else u

def updateActions (u : Update) (m old : CcModel F) (f : CcFonts) : Update :=
  if m.armed ≠ old.armed then
    ((u.restore ccRescue).restore ccLoader).paint fun c => paintActions D c m f
  else u

def updateTimer (u : Update) (m old : CcModel F) (f : CcFonts) : Update :=
  if m.sleepMinutes ≠ old.sleepMinutes then
    (u.restore ccTimer).paint fun c => paintTimer D c m f
  else u

def updateNote (u : Update) (m old : CcModel F) (f : CcFonts) : Update :=
  if m.note ≠ old.note then (u.restore ccNote).paint fun c => paintNote c m f else u

def updateFooter (u : Update) (m old : CcModel F) (f : CcFonts) : Update :=
  if m.cap ≠ old.cap ∨ m.battWord ≠ old.battWord ∨ m.build ≠ old.build ∨ m.kernel ≠ old.kernel then
    (u.restore ccFooter).paint fun c => paintFooter c m f
  else u

def ccPaintUpdate (c : Canvas) (m : CcModel F) (previous : Option (CcModel F))
    (fonts : Option CcFonts) : Update :=
  match previous with
  | none => { canvas := ccPaint D c m fonts, dirty := ccPanel, changed := 1 }
  | some old =>
    let f := faces fonts
    let u : Update := { canvas := c, dirty := ⟨0, 0, 0, 0⟩, changed := 0 }
    let u := updateBrightness D u m old f
    let u := updateAuto D u m old f
    let u := updateWifi D u m old f
    let u := updateActions D u m old f
    let u := updateTimer D u m old f
    let u := updateNote u m old f
    updateFooter u m old f

end Taq102.Panel.Paint
