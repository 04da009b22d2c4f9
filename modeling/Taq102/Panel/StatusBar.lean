import Taq102.Graphics.Averaging
import Taq102.Graphics.Solid
import Taq102.Lib.CMath
import Taq102.Panel.Draw
import Taq102.Runtime.Status
import Taq102.Text.Fit

/-! The status bar (`statusbar.c`): the Wi-Fi fan, the percentage and the battery, painted at four times
their size and averaged down onto a canvas. -/
namespace Taq102.Panel.StatusBar
open Taq102.Lib CFloat Transition
open Taq102.Graphics Taq102.Runtime Taq102.Text

structure Style where
  bar : UInt32
  hollow : UInt32
  ink : UInt32
  dim : UInt32
  pale : UInt32
  charge : UInt32
  low : UInt32
  fontPath : Option String

/-- The bar's font, its path and whether it is closed at exit, with all that is open. -/
structure BarFont (F : Type) where
  font : Option Nat
  path : Option String
  cleanupRegistered : Bool
  store : FontStore F

/-- The outcomes of the calls made while the bar is painted. -/
structure BarWorld (F : Type) where
  allocates : Bool
  registers : Bool
  copies : Bool
  opened : OpenWorld F

/-- The charging bolt in a unit box. -/
def bolt : List (ℚ × ℚ) := [
  (62 / 100, 0), (20 / 100, 52 / 100), (45 / 100, 52 / 100),
  (38 / 100, 1), (80 / 100, 46 / 100), (55 / 100, 46 / 100)]

section Icons
variable {F : Type} [CFloat F]

/-- The crossings of a ray to the left. -/
def inBolt (x y : F) : Bool :=
  (List.range 6).foldl (fun (inside : Bool) i =>
    let corner (k : Nat) : F × F := (lit (bolt.getD k (0, 0)).1, lit (bolt.getD k (0, 0)).2)
    let (xi, yi) := corner i
    let (xj, yj) := corner ((i + 5) % 6)
    if decide (y < yi) ≠ decide (y < yj) ∧ x < (xj - xi) * (y - yi) / (yj - yi) + xi then !inside
    else inside) false

variable [CMath F]

/-- The arc a distance from the apex lies in, none between the arcs; 0 is the dot. -/
def ringOf (unit thick r : F) : Option Int :=
  if r ≤ unit * lit (55 / 100) then some 0
  else ([1, 2, 3] : List Int).foldl (fun ring k =>
    if r ≤ unit * (ofInt k + lit (1 / 2)) ∧ unit * (ofInt k + lit (1 / 2)) - thick < r then some k
    else ring) none

/-- A pixel of the fan; without a link it is struck through. -/
def fanPixel (ax ay size bars : Int) (sty : Style) (x y : Int) : Option UInt32 :=
  let unit : F := ofInt size / lit 4
  let thick : F := unit * lit (45 / 100)
  let slashed := bars ≤ 0
  let sx : F := ofInt ax
  let sy : F := ofInt ay - ofInt size / lit 2
  let half : F := thick * lit (1 / 2)
  let gap : F := thick
  let dx : F := ofInt (x - ax)
  let dy : F := ofInt (ay - y)
  let sd : F :=
    if slashed then CFloat.abs (((ofInt x - sx) - (ofInt y - sy)) * lit (70710678 / 100000000)) else lit 0
  if slashed ∧ sd ≤ half then some sty.ink
  else if dy < lit 0 ∨ dy * lit (143 / 100) < CFloat.abs dx then none
  else match ringOf unit thick (CMath.sqrt (dx * dx + dy * dy)) with
    | none => none
    | some ring =>
      if slashed ∧ sd ≤ half + gap then none
      else some (if slashed then sty.dim else if ring ≤ bars then sty.ink else sty.dim)

variable (F) in
def wifiFan (c : Canvas) (ax ay size bars : Int) (sty : Style) : Canvas :=
  (pixels (ax - size) (ay - size) (ax + size + 1) (ay + 1)).foldl (fun c p =>
    match fanPixel (F := F) ax ay size bars sty p.1 p.2 with
    | some col => canvasPut c p.1 p.2 col
    | none => c) c

variable (F) in
omit [CMath F] in
/-- The outline, the charge as a fill where it is known, and the bolt. -/
def batteryIcon (c : Canvas) (x y w h cap : Int) (charging known : Bool) (sty : Style) : Canvas :=
  let r := h.tdiv 3
  let line := if h.tdiv 10 > 1 then h.tdiv 10 else 1
  let gap := line
  let innerR := if r - line > 0 then r - line else 1
  let c := canvasRoundRect F c x y w h r sty.ink
  let c := canvasRoundRect F c (x + line) (y + line) (w - 2 * line) (h - 2 * line) innerR sty.hollow
  let c := canvasFillRect c (x + w) (y + h.tdiv 3) (line + 1) (h.tdiv 3) sty.ink
  let innerW := w - 2 * (line + gap)
  let innerH := h - 2 * (line + gap)
  let share := if cap < 0 then 0 else if cap > 100 then 100 else cap
  let fillW := if known then (innerW * share).tdiv 100 else 0
  let col := if charging then sty.charge else if cap ≤ 20 then sty.low else sty.ink
  let c :=
    if fillW > 0 then canvasRoundRect F c (x + line + gap) (y + line + gap) fillW innerH innerR col else c
  if charging ∧ known then
    let bh := (innerH * 6).tdiv 7
    let bw := (bh * 3).tdiv 5
    let bh := if bh < 1 then 1 else bh
    let bw := if bw < 1 then 1 else bw
    let bx := x + w.tdiv 2 - bw.tdiv 2
    let by_ := y + h.tdiv 2 - bh.tdiv 2
    (pixels 0 0 bw bh).foldl (fun c p =>
      if inBolt ((ofInt p.1 + lit (1 / 2) : F) / ofInt bw) ((ofInt p.2 + lit (1 / 2) : F) / ofInt bh) then
        canvasPut c (bx + p.1) (by_ + p.2) sty.pale
      else c) c
  else c

end Icons

section Bar
variable {F : Type} [CFloat F] [CMath F] [CRound F]

def fontBaseline (f : Font F) : Int := trunc (CRound.ceil (ofInt f.face.ascent * f.scale))

def fontHeight (f : Font F) : Int := fontBaseline f - trunc (CRound.floor (ofInt f.face.descent * f.scale))

def canvasText7Width (str : List UInt8) (s : Int) : Int := str.length * 6 * s - s

/-- The font of a path stays open until another path is asked for. -/
def getBarFont (b : BarFont F) (w : BarWorld F) (path : Option String) : Option Nat × BarFont F :=
  match path with
  | none => (none, b)
  | some path =>
    if b.path = some path then (b.font, b)
    else if b.cleanupRegistered = false ∧ w.registers = false then (none, b)
    else
      let store := fontClose b.store b.font
      if w.copies = false then (none, { font := none, path := none, cleanupRegistered := true, store })
      else
        let opened := fontOpen store w.opened (some path) (18 * 4)
        (opened.1, { font := opened.1, path := some path, cleanupRegistered := true, store := opened.2 })

def percentText (st : Status) : CStr := snprintf 8 (if st.haveBatt then decimal st.cap ++ [37] else cstr "--%")

/-- The percentage to the left of a column: in the font, else in the 5x7 face, or in the 3x5 face that
has a dash. Also answers with its own left column. -/
def drawPercent (w : BarWorld F) (b : BarFont F) (c : Canvas) (st : Status) (sty : Style) (s right : Int) :
    Option (BarFont F × Canvas × Int) :=
  let barH := 12 * s
  let pct := percentText st
  match getBarFont b w sty.fontPath with
  | (some a, b) => do
    let f := b.store.font a
    let width ← fontWidth f (pct ++ [0])
    let right := right - (2 * s + width)
    let baseline := (barH - fontHeight f).tdiv 2 + fontBaseline f
    let drawn ← drawText b.store a c right baseline (pct ++ [0]) sty.ink 0 c.w
    some ({ b with store := drawn.1 }, drawn.2, right)
  | (none, b) =>
    if st.haveBatt then
      let right := right - (2 * s + canvasText7Width pct s)
      some (b, canvasText7 c right ((barH - 7 * s).tdiv 2) pct s sty.ink, right)
    else
      let right := right - (2 * s + canvasTextWidth pct s)
      some (b, canvasText c right ((barH - 5 * s).tdiv 2) pct s sty.ink, right)

def paintAt (w : BarWorld F) (b : BarFont F) (c : Canvas) (st : Status) (sty : Style) (s : Int) :
    Option (BarFont F × Canvas) := do
  let barH := 12 * s
  let margin := 12 * s
  let c := canvasFillRect c 0 0 c.w barH sty.bar
  let iconH := 5 * s
  let iconW := 11 * s
  let y := (barH - iconH).tdiv 2
  let right := c.w - margin - iconW - s - 1
  let c := batteryIcon F c right y iconW iconH st.cap st.plugged st.haveBatt sty
  let (b, c, right) ← drawPercent w b c st sty s right
  some (b, wifiFan F c (right - (3 * s + iconH)) (y + iconH) iconH (statusWifiBars st) sty)

/-- The transparent canvas of four times the size that the bar is painted on. -/
def enlarged (w rows : Int) : Canvas :=
  { w := w * ss, h := rows * ss, clipX := 0, clipY := 0, clipW := 0, clipH := 0, px := fun _ => 0 }

def statusbarPaint (w : BarWorld F) (b : BarFont F) (c : Canvas) (st : Status) (sty : Style) :
    Option (BarFont F × Canvas) :=
  let rows := if statusbarHeight c.w > c.h then c.h else statusbarHeight c.w
  if w.allocates = false then some (b, c)
  else do
    let (b, big) ← paintAt w b (enlarged c.w rows) st sty (c.w.tdiv 256 * ss)
    some (b, downsample c big rows)

end Bar

/-! What keeps full alpha. -/

structure Style.Solid (sty : Style) : Prop where
  bar : alphaOf sty.bar = 255
  hollow : alphaOf sty.hollow = 255
  ink : alphaOf sty.ink = 255
  dim : alphaOf sty.dim = 255
  pale : alphaOf sty.pale = 255
  charge : alphaOf sty.charge = 255
  low : alphaOf sty.low = 255

section Solid
variable {F : Type} [CFloat F] {sty : Style}

theorem fanPixel_color [CMath F] {ax ay size bars x y : Int} {col : UInt32}
    (h : fanPixel (F := F) ax ay size bars sty x y = some col) : col = sty.ink ∨ col = sty.dim := by
  unfold fanPixel at h
  extract_lets unit thick slashed sx sy half gap dx dy sd at h
  clear_value sd
  split at h
  · exact .inl (Option.some.inj h).symm
  split at h
  · cases h
  split at h
  · cases h
  split at h
  · cases h
  · have hcol := Option.some.inj h
    split at hcol
    · exact .inr hcol.symm
    · split at hcol
      · exact .inl hcol.symm
      · exact .inr hcol.symm

theorem wifiFan_keepsSolid [CMath F] (hink : alphaOf sty.ink = 255) (hdim : alphaOf sty.dim = 255)
    (ax ay size bars : Int) : KeepsSolid fun c => wifiFan F c ax ay size bars sty := by
  refine KeepsSolid.composes.foldl (fun p => ?_) _
  cases hpixel : fanPixel (F := F) ax ay size bars sty p.1 p.2 with
  | none => exact .id
  | some col =>
    refine keepsSolid_put ?_ p.1 p.2
    rcases fanPixel_color hpixel with rfl | rfl
    · exact hink
    · exact hdim

theorem batteryIcon_keepsSolid (h : sty.Solid) (x y w height cap : Int) (charging known : Bool) :
    KeepsSolid fun c => batteryIcon F c x y w height cap charging known sty := by
  have hcol : alphaOf (if charging then sty.charge else if cap ≤ 20 then sty.low else sty.ink) = 255 := by
    split
    · exact h.charge
    · split
      · exact h.low
      · exact h.ink
  have houtline := (keepsSolid_spans h.ink).roundRect F
  have hhollow := (keepsSolid_spans h.hollow).roundRect F
  have hnub := (keepsSolid_spans h.ink).fillRect
  have hfill := (keepsSolid_spans hcol).roundRect F
  have hbolt := keepsSolid_put h.pale
  unfold batteryIcon
  dsimp only
  refine KeepsSolid.comp ?_ (KeepsSolid.composes.ite (KeepsSolid.composes.foldl
    (fun p => KeepsSolid.composes.ite (hbolt _ _)) _))
  refine KeepsSolid.comp ?_ (KeepsSolid.composes.ite (hfill _ _ _ _ _))
  exact ((houtline _ _ _ _ _).comp (hhollow _ _ _ _ _)).comp (hnub _ _ _ _)

/-- A glyph is blended. -/
theorem drawMask_keepsSolid (g : Glyph) (x y : Int) (col : UInt32) (left right : Int) :
    KeepsSolid fun c => drawMask c g x y col left right := by
  refine KeepsSolid.composes.foldl (fun p => ?_) _
  refine KeepsSolid.guarded (q := fun c => y + g.yoff + p.2 < 0 ∨ c.h ≤ y + g.yoff + p.2) ?_
  refine KeepsSolid.guarded (q := fun c => x + g.xoff + p.1 < 0 ∨ c.w ≤ x + g.xoff + p.1 ∨
    x + g.xoff + p.1 < left ∨ right ≤ x + g.xoff + p.1) ?_
  exact keepsSolid_blend _ _ _

theorem drawLoop_keepsSolid (st : FontStore F) (a : Nat) (pen y : Int) (col : UInt32) (left right : Int)
    (visited : List (Nat × Memory)) :
    KeepsSolid fun c => (drawLoop st a c pen y col left right visited).2 := by
  induction visited generalizing st pen with
  | nil => exact .id
  | cons next visited ih =>
    obtain ⟨cp, rest⟩ := next
    have hglyph : KeepsSolid fun c =>
        drawCp c ((lookup st a cp).2.font a) (lookup st a cp).1 cp pen y col left right := by
      unfold drawCp
      cases (lookup st a cp).1 with
      | none => exact .id
      | some g => exact drawMask_keepsSolid g _ y col left right
    exact hglyph.comp (ih _ _)

/-- A text that ends has its code points. -/
theorem codePoints_total {text : Memory} (h : 0 ∈ text) : ∃ visited, codePoints text = some visited := by
  obtain ⟨s, beyond, rfl, hs⟩ := List.eq_append_cons_of_mem h
  obtain ⟨visited, hvisited, _⟩ := visits_string hs beyond
  exact ⟨visited, hvisited⟩

theorem fontWidth_total (f : Font F) {text : Memory} (h : 0 ∈ text) :
    ∃ width, fontWidth f text = some width := by
  obtain ⟨visited, hvisited⟩ := codePoints_total h
  exact ⟨_, by rw [fontWidth, hvisited, Option.map_some]⟩

theorem drawText_total (st : FontStore F) (a : Nat) (c : Canvas) (x y : Int) {text : Memory} (h : 0 ∈ text)
    (col : UInt32) (left right : Int) :
    ∃ st' f, KeepsSolid f ∧ drawText st a c x y text col left right = some (st', f c) := by
  obtain ⟨visited, hvisited⟩ := codePoints_total h
  refine ⟨(drawLoop st a c x y col left right visited).1, _,
    drawLoop_keepsSolid st a x y col left right visited, ?_⟩
  rw [drawText, hvisited, Option.map_some]

variable [CRound F]

/-- The percentage is drawn, in the ink. -/
theorem drawPercent_spec (w : BarWorld F) (b : BarFont F) (c : Canvas) (st : Status) (sty : Style)
    (s right : Int) : ∃ b' c' right', drawPercent w b c st sty s right = some (b', c', right') ∧
      (alphaOf sty.ink = 255 → ∀ p, alphaOf (c.px p) = 255 → alphaOf (c'.px p) = 255) := by
  have hends : 0 ∈ percentText st ++ [0] := List.mem_append_right _ (List.mem_singleton_self 0)
  unfold drawPercent
  dsimp only
  split
  · rename_i a b' _
    obtain ⟨width, hwidth⟩ := fontWidth_total (b'.store.font a) hends
    obtain ⟨store, f, hf, hdrawn⟩ := drawText_total b'.store a c (right - (2 * s + width))
      ((12 * s - fontHeight (b'.store.font a)).tdiv 2 + fontBaseline (b'.store.font a)) hends sty.ink 0 c.w
    simp only [hwidth, hdrawn, Option.bind_eq_bind, Option.bind_some]
    exact ⟨_, _, _, rfl, fun _ p => hf.solid c p⟩
  · rename_i b' _
    split
    · exact ⟨_, _, _, rfl, fun hink p => ((keepsSolid_spans hink).text7 _ _ _ s).solid c p⟩
    · exact ⟨_, _, _, rfl, fun hink p => ((keepsSolid_spans hink).text _ _ _ s).solid c p⟩

variable [CMath F]

theorem paintAt_spec (w : BarWorld F) (b : BarFont F) (c : Canvas) (st : Status) (sty : Style) (s : Int) :
    ∃ b' c', paintAt w b c st sty s = some (b', c') ∧ (sty.Solid → ∀ p,
      alphaOf ((canvasFillRect c 0 0 c.w (12 * s) sty.bar).px p) = 255 → alphaOf (c'.px p) = 255) := by
  unfold paintAt
  dsimp only
  generalize canvasFillRect c 0 0 c.w (12 * s) sty.bar = strip
  generalize strip.w - 12 * s - 11 * s - s - 1 = right
  obtain ⟨b', c', right', hdrawn, hink⟩ := drawPercent_spec w b
    (batteryIcon F strip right ((12 * s - 5 * s).tdiv 2) (11 * s) (5 * s) st.cap st.plugged st.haveBatt sty)
    st sty s right
  rw [hdrawn]
  refine ⟨_, _, rfl, fun h p hp => ?_⟩
  have hbattery := (batteryIcon_keepsSolid (F := F) h right ((12 * s - 5 * s).tdiv 2) (11 * s) (5 * s) st.cap
    st.plugged st.haveBatt).solid strip p hp
  exact (wifiFan_keepsSolid (F := F) h.ink h.dim _ _ _ _).solid c' p (hink h.ink p hbattery)

end Solid

/-- The pixels of a block are on the enlarged canvas. -/
theorem block_enlarged {z : CanvasSize} {rows : Int} {p : Int × Int} (hcolumn : 0 ≤ p.1 ∧ p.1 < z.w)
    (hrow : 0 ≤ p.2 ∧ p.2 < rows) {q : UInt32} {big : Canvas} (hq : q ∈ block big p.1 p.2) :
    ∃ i, (0 ≤ i.1 ∧ i.1 < (enlarged z.w rows).w ∧ 0 ≤ i.2 ∧ i.2 < (enlarged z.w rows).h) ∧ q = big.px i := by
  obtain ⟨k, hk, rfl⟩ := List.mem_map.mp hq
  have hcell := mem_pixels.mp hk
  simp only [ss] at hcell ⊢
  refine ⟨_, ?_, rfl⟩
  dsimp only [enlarged, ss]
  omega

section Painting
variable {F : Type} [CFloat F] [CMath F] [CRound F]

/-- The rows of the bar on a canvas. -/
def barRows (z : CanvasSize) : Int := if statusbarHeight z.w > z.h then z.h else statusbarHeight z.w

/-- What the bar shows is painted apart from the canvas, and laid over it. -/
theorem statusbarPaint_eq {w : BarWorld F} (hmem : w.allocates = true) (b : BarFont F) (z : CanvasSize)
    (st : Status) (sty : Style) : ∃ b' big,
      paintAt w b (enlarged z.w (barRows z)) st sty (z.w.tdiv 256 * ss) = some (b', big) ∧
      ∀ px, statusbarPaint w b ⟨z, px⟩ st sty = some (b', ⟨z, fun p =>
        if p.2 < barRows z ∧ canvasVisible z p.1 p.2 = true then canvasOver (px p) (averaged big p)
        else px p⟩) := by
  obtain ⟨b', big, hpainted, _⟩ := paintAt_spec w b (enlarged z.w (barRows z)) st sty (z.w.tdiv 256 * ss)
  refine ⟨b', big, hpainted, fun px => ?_⟩
  have hneg : ¬ w.allocates = false := by rw [hmem]; exact Bool.noConfusion
  unfold statusbarPaint
  dsimp only
  rw [if_neg hneg]
  change (paintAt w b (enlarged z.w (barRows z)) st sty (z.w.tdiv 256 * ss)).bind _ = _
  rw [hpainted, ← downsample_eq]
  rfl

/-- The bar keeps a canvas of full alpha so, whether or not there is memory for it. -/
theorem statusbarPaint_solid (w : BarWorld F) (b : BarFont F) {c : Canvas} (h : Solid c) (st : Status)
    (sty : Style) : ∃ b' c', statusbarPaint w b c st sty = some (b', c') ∧
      c'.toCanvasSize = c.toCanvasSize ∧ Solid c' := by
  cases hmem : w.allocates with
  | false => exact ⟨b, c, if_pos hmem, rfl, h⟩
  | true =>
    obtain ⟨b', big, _, hlaid⟩ := statusbarPaint_eq hmem b c.toCanvasSize st sty
    refine ⟨b', _, hlaid c.px, rfl, fun p hp => ?_⟩
    dsimp only
    split
    · exact canvasOver_solid (h p hp) _
    · exact h p hp

/-- In colours of full alpha no pixel of the bar lets anything through. -/
theorem paintAt_solid {w : BarWorld F} {b b' : BarFont F} {z : CanvasSize} {st : Status} {sty : Style}
    (h : sty.Solid) {big : Canvas}
    (hpainted : paintAt w b (enlarged z.w (barRows z)) st sty (z.w.tdiv 256 * ss) = some (b', big))
    {p : Int × Int} (hrow : p.2 < barRows z) (hvisible : canvasVisible z p.1 p.2 = true) :
    alphaOf (averaged big p) = 255 := by
  obtain ⟨b₁, big₁, hpainted₁, hsolid⟩ :=
    paintAt_spec w b (enlarged z.w (barRows z)) st sty (z.w.tdiv 256 * ss)
  obtain ⟨rfl, rfl⟩ := Prod.mk.inj (Option.some.inj (hpainted.symm.trans hpainted₁))
  have hon := canvasVisible_on hvisible
  have hheight : barRows z ≤ 12 * z.w.tdiv 256 := by
    unfold barRows statusbarHeight
    split <;> omega
  have hfilled : Solid (canvasFillRect (enlarged z.w (barRows z)) 0 0 (enlarged z.w (barRows z)).w
      (12 * (z.w.tdiv 256 * ss)) sty.bar) := by
    refine solid_filled h.bar le_rfl ?_ _
    dsimp only [ss]
    omega
  have hsize := ((keepsSolid_spans h.bar).fillRect 0 0 (enlarged z.w (barRows z)).w
    (12 * (z.w.tdiv 256 * ss))).size (enlarged z.w (barRows z))
  refine averaged_solid fun q hq => ?_
  obtain ⟨i, hi, rfl⟩ := block_enlarged ⟨hon.1, hon.2.1⟩ ⟨hon.2.2.1, hrow⟩ hq
  rw [← hsize] at hi
  exact hsolid h i (hfilled i hi)

/-- The bar is painted apart from the canvas and laid over it: only its own rows change, a canvas of full
alpha stays so, and in colours of full alpha nothing of what the canvas held shows through. Without memory
nothing is painted. -/
theorem status_bar_painted (w : BarWorld F) (b : BarFont F) (c : Canvas) (st : Status) (sty : Style) :
    ∃ b' c', statusbarPaint w b c st sty = some (b', c') ∧ c'.toCanvasSize = c.toCanvasSize ∧
      (∀ p, statusbarHeight c.w ≤ p.2 → c'.px p = c.px p) ∧ (Solid c → Solid c') ∧
      (w.allocates = false → c' = c) ∧
      (w.allocates = true → ∃ big, paintAt w b (enlarged c.w (barRows c.toCanvasSize)) st sty
          (c.w.tdiv 256 * ss) = some (b', big) ∧
        ∀ p, p.2 < statusbarHeight c.w → canvasVisible c.toCanvasSize p.1 p.2 = true →
          c'.px p = canvasOver (c.px p) (averaged big p) ∧
            (sty.Solid → alphaOf (averaged big p) = 255 ∧ c'.px p = averaged big p)) := by
  cases hmem : w.allocates with
  | false =>
    refine ⟨b, c, if_pos hmem, rfl, fun _ _ => rfl, fun h => h, fun _ => rfl, nofun⟩
  | true =>
    obtain ⟨b', big, hpainted, hlaid⟩ := statusbarPaint_eq hmem b c.toCanvasSize st sty
    refine ⟨b', _, hlaid c.px, rfl, fun p hp => ?_, fun hsolid => ?_, nofun, fun _ => ⟨big, hpainted, ?_⟩⟩
    · refine if_neg fun hin => ?_
      have hrow := hin.1
      unfold barRows at hrow
      split at hrow <;> omega
    · obtain ⟨_, c', hpaint, _, hkept⟩ := statusbarPaint_solid w b hsolid st sty
      obtain ⟨_, rfl⟩ := Prod.mk.inj (Option.some.inj ((hlaid c.px).symm.trans hpaint))
      exact hkept
    · intro p hp hvisible
      have hon := canvasVisible_on hvisible
      have hrow : p.2 < barRows c.toCanvasSize := by
        unfold barRows
        split <;> omega
      have hover : (if p.2 < barRows c.toCanvasSize ∧ canvasVisible c.toCanvasSize p.1 p.2 = true then
          canvasOver (c.px p) (averaged big p) else c.px p) = canvasOver (c.px p) (averaged big p) :=
        if_pos ⟨hrow, hvisible⟩
      refine ⟨hover, fun h => ?_⟩
      have halpha := paintAt_solid h hpainted hrow hvisible
      refine ⟨halpha, hover.trans ?_⟩
      rw [canvasOver_special (.inr (.inl halpha)), if_neg (by omega)]

end Painting

/-! The bar's font is open whenever it is drawn with. -/

section Live
variable {F : Type} [CFloat F] {b : BarFont F} {w : BarWorld F}

structure BarFont.Live (b : BarFont F) : Prop where
  kept : b.store.Kept
  font : ∀ a, b.font = some a → a ∈ b.store.fonts

/-- A new font gets an address that no open font has, and the faces are sound. -/
structure BarWorld.Fair (w : BarWorld F) (b : BarFont F) : Prop where
  fresh : ∀ a, w.opened.allocated = some a → a ∉ (fontClose b.store b.font).fonts
  sound : ∀ file face, w.opened.initFont file = some face → face.Sound

theorem fontOpen_mem {st : FontStore F} {w : OpenWorld F} {path : Option String} {px : Int} {a : Nat}
    (h : (fontOpen st w path px).1 = some a) : a ∈ (fontOpen st w path px).2.fonts := by
  unfold fontOpen at h ⊢
  split at h
  · cases h
  rename_i hpath
  split at h
  · cases h
  rename_i hopened
  rw [if_neg hpath, if_neg hopened]
  split at h
  · obtain rfl := Option.some.inj h
    exact List.mem_cons_self
  · cases h

/-- The font answered is open, and the one remembered. -/
theorem getBarFont_live (h : b.Live) (hw : w.Fair b) (path : Option String) :
    (getBarFont b w path).2.Live ∧
      ∀ a, (getBarFont b w path).1 = some a → a ∈ (getBarFont b w path).2.store.fonts := by
  have hclosed := fontClose_kept h.kept h.font
  unfold getBarFont
  cases path with
  | none => exact ⟨h, nofun⟩
  | some path =>
    dsimp only
    split
    · exact ⟨h, h.font⟩
    split
    · exact ⟨h, nofun⟩
    split
    · exact ⟨⟨hclosed, nofun⟩, nofun⟩
    · have hopened := fontOpen_kept hclosed hw.fresh hw.sound (some path) (18 * 4)
      exact ⟨⟨hopened, fun a ha => fontOpen_mem ha⟩, fun a ha => fontOpen_mem ha⟩

/-- Drawing a text keeps every font open, and the caches sound. -/
theorem drawLoop_kept {st : FontStore F} (h : st.Kept) {a : Nat} (ha : a ∈ st.fonts) (c : Canvas) (pen y : Int)
    (col : UInt32) (left right : Int) (visited : List (Nat × Memory)) :
    (drawLoop st a c pen y col left right visited).1.Kept ∧
      (drawLoop st a c pen y col left right visited).1.fonts = st.fonts := by
  induction visited generalizing st c pen with
  | nil => exact ⟨h, rfl⟩
  | cons next visited ih =>
    obtain ⟨cp, rest⟩ := next
    obtain ⟨hkept, hsame, _⟩ := lookup_kept h ha cp
    have hrest := ih hkept (hsame.1 ▸ ha) (drawCp c ((lookup st a cp).2.font a) (lookup st a cp).1 cp pen y col
      left right) (pen + advanceCp ((lookup st a cp).2.font a) cp)
    exact ⟨hrest.1, hrest.2.trans hsame.1⟩

theorem call_fonts {st : FontStore F} (h : st.Kept) {call : FontCall F} (hcall : CallOk st call) {a : Nat}
    (ha : a ∈ st.fonts) (hopen : call ≠ .closeFont (some a)) : a ∈ (st.call call).fonts := by
  cases call with
  | openFont w path px =>
    change a ∈ (fontOpen st w path px).2.fonts
    unfold fontOpen
    split
    · exact ha
    split
    · exact ha
    split
    · exact List.mem_cons_of_mem _ ha
    · exact ha
  | closeFont closed =>
    cases closed with
    | none => exact ha
    | some closed =>
      exact (List.mem_erase_of_ne fun heq => hopen (by rw [heq])).mpr ha
  | lookup used cp =>
    have hsame := (lookup_kept h hcall cp).2.1
    change a ∈ (lookup st used cp).2.fonts
    rw [hsame.1]
    exact ha

variable [CRound F]

theorem drawPercent_live (h : b.Live) (hw : w.Fair b) {c c' : Canvas} {st : Status} {sty : Style}
    {s right right' : Int} {b' : BarFont F}
    (hdrawn : drawPercent w b c st sty s right = some (b', c', right')) : b'.Live := by
  obtain ⟨hlive, hopen⟩ := getBarFont_live h hw sty.fontPath
  unfold drawPercent at hdrawn
  dsimp only at hdrawn
  split at hdrawn
  · rename_i a b₁ hgot
    rw [hgot] at hlive hopen
    have hends : 0 ∈ percentText st ++ [0] := List.mem_append_right _ (List.mem_singleton_self 0)
    obtain ⟨visited, hvisited⟩ := codePoints_total hends
    simp only [fontWidth, drawText, hvisited, Option.map_some, Option.bind_eq_bind, Option.bind_some] at hdrawn
    obtain ⟨rfl, -⟩ := Prod.mk.inj (Option.some.inj hdrawn)
    obtain ⟨hkept, hfonts⟩ := drawLoop_kept hlive.kept (hopen a rfl) c _ _ sty.ink 0 c.w visited
    exact ⟨hkept, fun a' ha' => hfonts.symm ▸ hlive.font a' ha'⟩
  · rename_i b₁ hgot
    rw [hgot] at hlive
    split at hdrawn
    · obtain ⟨rfl, -⟩ := Prod.mk.inj (Option.some.inj hdrawn)
      exact hlive
    · obtain ⟨rfl, -⟩ := Prod.mk.inj (Option.some.inj hdrawn)
      exact hlive

variable [CMath F]

theorem statusbarPaint_live (h : b.Live) (hw : w.Fair b) {c c' : Canvas} {st : Status} {sty : Style}
    {b' : BarFont F} (hpaint : statusbarPaint w b c st sty = some (b', c')) : b'.Live := by
  unfold statusbarPaint paintAt at hpaint
  dsimp only at hpaint
  split at hpaint
  · obtain ⟨rfl, -⟩ := Prod.mk.inj (Option.some.inj hpaint)
    exact h
  · obtain ⟨painted, hpainted, hlaid⟩ := Option.bind_eq_some_iff.mp hpaint
    obtain ⟨drawn, hdrawn, hfan⟩ := Option.bind_eq_some_iff.mp hpainted
    obtain rfl := Option.some.inj hfan
    obtain ⟨rfl, -⟩ := Prod.mk.inj (Option.some.inj hlaid)
    exact drawPercent_live h hw hdrawn

/-- What happens to the fonts: a bar is painted, or others open, draw with and close theirs. -/
inductive BarCall (F : Type) where
  | paint (w : BarWorld F) (c : Canvas) (st : Status) (sty : Style)
  | other (call : FontCall F)

def BarFont.call (b : BarFont F) : BarCall F → Option (BarFont F)
  | .paint w c st sty => (statusbarPaint w b c st sty).map Prod.fst
  | .other call => some { b with store := b.store.call call }

/-- The others do not close the bar's font. -/
def BarFont.Admits (b : BarFont F) : BarCall F → Prop
  | .paint w _ _ _ => w.Fair b
  | .other call => CallOk b.store call ∧ ∀ a, b.font = some a → call ≠ .closeFont (some a)

theorem BarFont.Live.call (h : b.Live) {call : BarCall F} (hcall : b.Admits call) {b' : BarFont F}
    (hnext : b.call call = some b') : b'.Live := by
  cases call with
  | paint w c st sty =>
    obtain ⟨painted, hpaint, rfl⟩ := Option.map_eq_some_iff.mp hnext
    exact statusbarPaint_live h hcall hpaint
  | other call =>
    obtain rfl := Option.some.inj hnext
    exact ⟨call_kept h.kept hcall.1, fun a ha => call_fonts h.kept hcall.1 (h.font a ha) (hcall.2 a ha)⟩

/-- However paintings of bars and the uses of other fonts follow on each other, the font that the next bar is
drawn with is open, and the masks of all fonts stay within the limit. -/
theorem bar_font_open (font : Nat → Font F) {calls : List (BarCall F)} {b : BarFont F}
    (hrun : Run (Guarded (Enabled BarFont.call) BarFont.Admits)
      { font := none, path := none, cleanupRegistered := false, store := .start font } calls b) :
    b.store.held ≤ 2 * 1024 * 1024 ∧ (∀ a, b.font = some a → a ∈ b.store.fonts) ∧
      ∀ (w : BarWorld F) (path : Option String), w.Fair b →
        ∀ a, (getBarFont b w path).1 = some a → a ∈ (getBarFont b w path).2.store.fonts := by
  have hlive : b.Live := hrun.invariant BarFont.Live ⟨start_kept font, nofun⟩
    fun _ _ _ hb hstep => hb.call hstep.1 hstep.2
  exact ⟨hlive.kept.bounded, hlive.font, fun w path hw => (getBarFont_live hlive hw path).2⟩

end Live

/-- A face of empty glyphs. -/
def blankFace : Face ℝ :=
  { findGlyphIndex := fun _ => 0
    codepointAdvance := fun _ => 0
    codepointBitmapBox := fun _ _ _ => ⟨0, 0, 0, 0⟩
    codepointBitmap := fun _ _ _ => ⟨none, 0, 0, 0, 0⟩
    ascent := 1
    descent := 0
    scaleForPixelHeight := fun px => px }

/-- No font is open. -/
noncomputable def noFont : BarFont ℝ where
  font := none
  path := none
  cleanupRegistered := false
  store := .start fun _ => ⟨blankFace, 1, 0, fun _ => .zero⟩

/-- There is memory, and no file to open. -/
def noFile : BarWorld ℝ := ⟨true, true, true, ⟨false, none, 0, false, false, [], fun _ => none⟩⟩

/-- There is a file with a face. -/
def faceFile : BarWorld ℝ :=
  { noFile with opened :=
      ⟨true, some 4096, 28, true, true, [0, 1, 0, 0, 0, 1] ++ List.replicate 22 0, fun _ => some blankFace⟩ }

theorem faceFile_fair : faceFile.Fair noFont := by
  refine ⟨fun _ _ => List.not_mem_nil, fun _ face hface => ?_⟩
  obtain rfl := Option.some.inj hface
  exact fun _ _ => ⟨rfl, rfl, fun hne => absurd rfl hne⟩

def interStyle : Style :=
  ⟨0, 0, 0xffffffff, 0x66ffffff, 0xffffffff, 0xFF34C759, 0xFFFF3B30, some "Inter-SemiBold.ttf"⟩

/-- The first bar opens the face. -/
theorem first_bar_font_open : ∃ b : BarFont ℝ,
    noFont.call (.paint faceFile ⟨⟨1024, 12, 0, 0, 0, 0⟩, fun _ => 0⟩ clearedStatus interStyle) = some b ∧
      ∀ a, b.font = some a → a ∈ b.store.fonts := by
  obtain ⟨b, big, _, hlaid⟩ :=
    statusbarPaint_eq (w := faceFile) rfl noFont ⟨1024, 12, 0, 0, 0, 0⟩ clearedStatus interStyle
  have hcall : noFont.call (.paint faceFile ⟨⟨1024, 12, 0, 0, 0, 0⟩, fun _ => 0⟩ clearedStatus interStyle) =
      some b := congrArg (Option.map Prod.fst) (hlaid fun _ => 0)
  have hrun : Run (Guarded (Enabled BarFont.call) BarFont.Admits) noFont
      [.paint faceFile ⟨⟨1024, 12, 0, 0, 0, 0⟩, fun _ => 0⟩ clearedStatus interStyle] b :=
    .single ⟨faceFile_fair, hcall⟩
  exact ⟨b, hcall, (bar_font_open (fun _ => ⟨blankFace, 1, 0, fun _ => .zero⟩) hrun).2.1⟩

end Taq102.Panel.StatusBar
