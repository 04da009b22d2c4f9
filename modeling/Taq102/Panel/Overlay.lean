import Taq102.Panel.Paint

/-! The panel's texture (`control_overlay.c`): painted whole once, then kept up to date with the
rectangles that the updates damage. -/
namespace Taq102.Panel.Overlay
open Taq102.Lib
open Taq102.Graphics
open Paint

structure Rgba where
  r : UInt8
  g : UInt8
  b : UInt8
  a : UInt8
  deriving DecidableEq, Repr

def rgba (p : UInt32) : Rgba :=
  ⟨(p >>> 16).toUInt8, (p >>> 8).toUInt8, p.toUInt8, (p >>> 24).toUInt8⟩

abbrev Texture := Int × Int → Rgba

/-- Copies a rectangle of the canvas to the same place of the texture. -/
def uploadRegion (tex : Texture) (c : Canvas) (x y w h : Int) : Texture :=
  (pixels x y (x + w) (y + h)).foldl (fun tex p => Function.update tex p (rgba (c.px p))) tex

structure ControlOverlay (F : Type) where
  panel : Canvas
  panelTex : Texture
  painted : CcModel F

variable {F : Type} (D : Type) [CFloat D]

/-- The first drawing: the whole panel is painted and uploaded. -/
def prepare (panel : Canvas) (tex : Texture) (m : CcModel F) (fonts : Option CcFonts) :
    ControlOverlay F :=
  let panel := ccPaint D panel m fonts
  { panel, panelTex := uploadRegion tex panel 0 0 panel.w panel.h, painted := m }

/-- A later drawing of a changed model: only the damage is uploaded. -/
def update (fonts : Option CcFonts) (o : ControlOverlay F) (m : CcModel F) : ControlOverlay F :=
  let u := ccPaintUpdate D o.panel m (some o.painted) fonts
  let panelTex :=
    if u.changed ≠ 0 then
      uploadRegion o.panelTex u.canvas (u.dirty.x - ccPanel.x) (u.dirty.y - ccPanel.y) u.dirty.w
        u.dirty.h
    else o.panelTex
  { panel := u.canvas, panelTex, painted := m }

end Taq102.Panel.Overlay
