import Mathlib.Algebra.BigOperators.Fin
import Taq102.Lib.CFloat
import Taq102.Lib.Probe
import Taq102.Lib.Transition

/-! The glyph cache of the fonts (`font_open`, `font_close` and `lookup` of `font.c`): a table for
each open font, and one budget for the masks of all of them. -/
namespace Taq102.Text
open Taq102.Lib CFloat Probe Transition

def slotCount : Nat := 512

/-- 2 MiB. A `size_t` is 32 bits wide on the tablet. -/
def cacheLimit : UInt32 := 2 * 1024 * 1024

/-- The bytes of a bitmap: an object in memory, so no longer than a `size_t` can say. -/
structure Mask where
  bytes : List UInt8
  fits : bytes.length < UInt32.size

structure Bitmap where
  mask : Option Mask
  w : Int
  h : Int
  xoff : Int
  yoff : Int

structure Box where
  x0 : Int
  y0 : Int
  x1 : Int
  y1 : Int

/-- What the font library answers for a face (`stbtt_fontinfo`). -/
structure Face (F : Type) where
  findGlyphIndex : Int → Int
  codepointAdvance : Int → Int
  codepointBitmapBox : Int → F → F → Box
  codepointBitmap : F → F → Int → Bitmap
  ascent : Int
  descent : Int
  scaleForPixelHeight : F → F

structure Glyph where
  cp : Int
  used : Bool
  w : Int
  h : Int
  xoff : Int
  yoff : Int
  advance : Int
  mask : Option Mask

/-- A slot after `memset`. -/
def Glyph.zero : Glyph :=
  { cp := 0, used := false, w := 0, h := 0, xoff := 0, yoff := 0, advance := 0, mask := none }

structure Font (F : Type) where
  face : Face F
  scale : F
  digitAdvance : Int
  slots : Fin slotCount → Glyph

/-- The open fonts by address, newest first, and the bytes of all their masks. -/
structure FontStore (F : Type) where
  fonts : List Nat
  font : Nat → Font F
  cacheTotal : UInt32

variable {F : Type}

/-- The bytes of a glyph as the code counts them. -/
def Glyph.size (g : Glyph) : UInt32 := UInt32.ofInt g.w * UInt32.ofInt g.h

def FontStore.setFont (st : FontStore F) (a : Nat) (f : Font F) : FontStore F :=
  { st with font := Function.update st.font a f }

def Font.setSlot (f : Font F) (slot : Fin slotCount) (g : Glyph) : Font F :=
  { f with slots := Function.update f.slots slot g }

/-- One slot of the loop of `clear_cache`. -/
def release (total : UInt32) (g : Glyph) : UInt32 :=
  if g.mask.isSome then total - g.size else total

/-- The total after the loop of `clear_cache`. -/
def releaseAll (slots : Fin slotCount → Glyph) (total : UInt32) : UInt32 :=
  (List.finRange slotCount).foldl (fun total i => release total (slots i)) total

def clearCache (st : FontStore F) (a : Nat) : FontStore F :=
  let f := st.font a
  { st.setFont a { f with slots := fun _ => .zero } with
    cacheTotal := releaseAll f.slots st.cacheTotal }

/-- The outcomes of the calls made while a font is opened. -/
structure OpenWorld (F : Type) where
  opened : Bool
  allocated : Option Nat
  length : Int
  rewound : Bool
  buffer : Bool
  contents : List UInt8
  initFont : List UInt8 → Option (Face F)

/-- The code point whose glyph is drawn for a code point. -/
def faceCp (f : Font F) (cp : Int) : Int :=
  if f.face.findGlyphIndex cp ≠ 0 then cp
  else if f.face.findGlyphIndex 0xfffd ≠ 0 then 0xfffd
  else 63

/-- The first slot a code point is looked for in. -/
def home (cp : Int) : Fin slotCount :=
  ⟨(UInt32.ofInt cp * 2654435761).toNat % slotCount, Nat.mod_lt _ (Nat.succ_pos _)⟩

/-- The code points in a font's table. -/
def Font.key (f : Font F) (slot : Fin slotCount) : Option Int :=
  if (f.slots slot).used then some (f.slots slot).cp else none

def fontClose (st : FontStore F) (a : Option Nat) : FontStore F :=
  match a with
  | none => st
  | some a => clearCache { st with fonts := st.fonts.erase a } a

section Lookup
variable [CFloat F]

/-- A horizontal advance in pixels. -/
def scaledAdvance (f : Font F) (cp : Int) : Int := lround (ofInt (f.face.codepointAdvance cp) * f.scale)

/-- The font that `font_open` fills in, unless the file is no usable face. -/
def loadFont (w : OpenWorld F) (px : Int) : Option (Font F) :=
  if w.length < 12 ∨ w.rewound = false then none
  else if w.buffer = false ∨ w.contents.length ≠ w.length then none
  else
    let tables := (w.contents.getD 4 0).toNat * 256 + (w.contents.getD 5 0).toNat
    if tables = 0 ∨ 12 + 16 * (tables : Int) > w.length then none
    else (w.initFont w.contents).bind fun face =>
      if face.ascent ≤ face.descent then none
      else
        let f : Font F :=
          { face, scale := face.scaleForPixelHeight (ofInt px), digitAdvance := 0, slots := fun _ => .zero }
        some { f with digitAdvance := scaledAdvance f 48 }

/-- The address of the opened font, if any. -/
def fontOpen (st : FontStore F) (w : OpenWorld F) (path : Option String) (px : Int) :
    Option Nat × FontStore F :=
  if path = none ∨ px ≤ 0 ∨ 4096 < px then (none, st)
  else if w.opened = false then (none, st)
  else match w.allocated, loadFont w px with
    | some a, some f => (some a, { st.setFont a f with fonts := a :: st.fonts })
    | _, _ => (none, st)

/-- The glyph rendered into a slot of the table. -/
def fillSlot (st : FontStore F) (a : Nat) (cp : Int) (slot : Fin slotCount) (bytes : UInt32) :
    Option Glyph × FontStore F :=
  let f := st.font a
  let b := f.face.codepointBitmap f.scale f.scale cp
  let g : Glyph := { f.slots slot with mask := b.mask, w := b.w, h := b.h, xoff := b.xoff, yoff := b.yoff }
  if bytes ≠ 0 ∧ g.mask.isNone then (none, st.setFont a (f.setSlot slot g))
  else
    let g : Glyph := { g with advance := scaledAdvance f cp, cp, used := true }
    let st := st.setFont a (f.setSlot slot g)
    (some g, { st with cacheTotal := if g.mask.isSome then st.cacheTotal + g.size else st.cacheTotal })

/-- The glyph rendered where the search found room, or into a cleared table when the masks of all
fonts would not fit with it. -/
def renderInto (st : FontStore F) (a : Nat) (cp : Int) (slot : Fin slotCount) :
    Option Glyph × FontStore F :=
  let f := st.font a
  let box := f.face.codepointBitmapBox cp f.scale f.scale
  let bytes := UInt32.ofInt (box.x1 - box.x0) * UInt32.ofInt (box.y1 - box.y0)
  if cacheLimit < bytes then (none, st)
  else if cacheLimit < st.cacheTotal + bytes then
    fillSlot (st.fonts.foldl clearCache st) a cp (home cp) bytes
  else fillSlot st a cp slot bytes

/-- The cached glyph of a code point, none when its bitmap is too large to cache. -/
def lookup (st : FontStore F) (a : Nat) (cp : Int) : Option Glyph × FontStore F :=
  let f := st.font a
  let cp := faceCp f cp
  match search f.key cp slotCount (home cp) with
  | .hit slot => (some (f.slots slot), st)
  | .gap slot => renderInto st a cp slot
  | .full slot => renderInto (clearCache st a) a cp slot

/-- The glyph of a code point, rendered anew. -/
def glyphOf (f : Font F) (cp : Int) : Glyph :=
  let b := f.face.codepointBitmap f.scale f.scale cp
  { cp, used := true, w := b.w, h := b.h, xoff := b.xoff, yoff := b.yoff,
    advance := scaledAdvance f cp, mask := b.mask }

end Lookup

/-- What the font library promises: a bitmap has the size of its box, and is there when it has
any bytes. -/
def Face.Sound (face : Face F) : Prop :=
  ∀ (cp : Int) (scale : F),
    let box := face.codepointBitmapBox cp scale scale
    let b := face.codepointBitmap scale scale cp
    b.w = box.x1 - box.x0 ∧ b.h = box.y1 - box.y0 ∧
      (b.w * b.h ≠ 0 → ∃ m, b.mask = some m ∧ (m.bytes.length : Int) = b.w * b.h)

/-- The bytes a slot holds. -/
def Glyph.held (g : Glyph) : Nat := if g.mask.isSome then (g.w * g.h).toNat else 0

def Font.held (f : Font F) : Nat := ∑ i, (f.slots i).held

def FontStore.held (st : FontStore F) : Nat := (st.fonts.map fun a => (st.font a).held).sum

def Glyph.Sized (g : Glyph) : Prop := 0 ≤ g.w * g.h ∧ g.w * g.h < UInt32.size

def Font.emptied (f : Font F) : Font F := { f with slots := fun _ => .zero }

theorem Glyph.size_toNat {g : Glyph} (h : g.Sized) : g.size.toNat = (g.w * g.h).toNat := by
  have hmod : g.w * g.h % 2 ^ 32 = g.w * g.h := Int.emod_eq_of_lt h.1 h.2
  have hlt : (g.w * g.h).toNat < 2 ^ 32 := by
    have hsize := h.2
    unfold UInt32.size at hsize
    omega
  rw [Glyph.size, ← UInt32.ofInt_mul, UInt32.ofInt, hmod]
  exact UInt32.toNat_ofNat_of_lt hlt

theorem release_toNat {total : UInt32} {g : Glyph} (hsized : g.mask.isSome = true → g.Sized)
    (hheld : g.held ≤ total.toNat) : (release total g).toNat = total.toNat - g.held := by
  unfold release Glyph.held at *
  split_ifs at hheld ⊢ with hmask
  · rw [← g.size_toNat (hsized hmask)] at hheld ⊢
    exact UInt32.toNat_sub_of_le _ _ (UInt32.le_iff_toNat_le.mpr hheld)
  · rfl

/-- The loop of `clear_cache` takes the bytes of every slot off the total. -/
theorem foldl_release {glyphs : List Glyph} {total : UInt32}
    (hsized : ∀ g ∈ glyphs, g.mask.isSome = true → g.Sized)
    (hheld : (glyphs.map Glyph.held).sum ≤ total.toNat) :
    (glyphs.foldl release total).toNat = total.toNat - (glyphs.map Glyph.held).sum := by
  induction glyphs generalizing total with
  | nil => rfl
  | cons g glyphs ih =>
    rw [List.map_cons, List.sum_cons] at hheld
    have hstep : (release total g).toNat = total.toNat - g.held :=
      release_toNat (hsized g List.mem_cons_self) (by omega)
    rw [List.foldl_cons, ih (fun g' hg' => hsized g' (List.mem_cons_of_mem g hg')) (by omega), hstep,
      List.map_cons, List.sum_cons]
    omega

theorem Font.held_eq (f : Font F) :
    f.held = (((List.finRange slotCount).map f.slots).map Glyph.held).sum := by
  rw [Font.held, Fin.sum_univ_def, List.map_map]
  rfl

theorem Font.emptied_held (f : Font F) : f.emptied.held = 0 :=
  Finset.sum_eq_zero fun _ _ => rfl

theorem FontStore.setFont_font (st : FontStore F) (a b : Nat) (f : Font F) :
    (st.setFont a f).font b = if b = a then f else st.font b :=
  Function.update_apply _ _ _ _

theorem Font.setSlot_slots (f : Font F) (slot i : Fin slotCount) (g : Glyph) :
    (f.setSlot slot g).slots i = if i = slot then g else f.slots i :=
  Function.update_apply _ _ _ _

theorem clearCache_font (st : FontStore F) (a b : Nat) :
    (clearCache st a).font b = if b = a then (st.font a).emptied else st.font b :=
  Function.update_apply _ _ _ _

theorem clearCache_cacheTotal (st : FontStore F) (a : Nat) :
    (clearCache st a).cacheTotal = releaseAll (st.font a).slots st.cacheTotal := by
  simp only [clearCache]

theorem clearCache_total {st : FontStore F} {a : Nat}
    (hsized : ∀ i, ((st.font a).slots i).mask.isSome = true → ((st.font a).slots i).Sized)
    (hheld : (st.font a).held ≤ st.cacheTotal.toNat) :
    (clearCache st a).cacheTotal.toNat = st.cacheTotal.toNat - (st.font a).held := by
  have hglyphs : ∀ g ∈ (List.finRange slotCount).map (st.font a).slots,
      g.mask.isSome = true → g.Sized := by
    intro g hg
    obtain ⟨i, _, rfl⟩ := List.mem_map.mp hg
    exact hsized i
  rw [Font.held_eq] at hheld
  rw [clearCache_cacheTotal, Font.held_eq, ← foldl_release hglyphs hheld, List.foldl_map, releaseAll]

/-- Replacing one open font changes what is held by what that font holds. -/
theorem sum_held_update {fonts : List Nat} (hnodup : fonts.Nodup) {a : Nat} (ha : a ∈ fonts)
    (font : Nat → Font F) (f : Font F) :
    (fonts.map fun b => (Function.update font a f b).held).sum + (font a).held =
      (fonts.map fun b => (font b).held).sum + f.held := by
  induction fonts with
  | nil => cases ha
  | cons b fonts ih =>
    obtain ⟨hb, hrest⟩ := List.nodup_cons.mp hnodup
    simp only [List.map_cons, List.sum_cons]
    by_cases heq : a = b
    · subst heq
      have hsame : (fonts.map fun b => (Function.update font a f b).held) =
          fonts.map fun b => (font b).held := by
        refine List.map_congr_left fun c hc => ?_
        rw [Function.update_of_ne (ne_of_mem_of_not_mem hc hb)]
      rw [hsame, Function.update_self]
      omega
    · have hmem := ih hrest ((List.mem_cons.mp ha).resolve_left heq)
      rw [Function.update_of_ne (Ne.symm heq)]
      omega

@[simp] theorem clearCache_fonts (st : FontStore F) (a : Nat) : (clearCache st a).fonts = st.fonts := rfl

theorem Font.emptied_key (f : Font F) (slot : Fin slotCount) : f.emptied.key slot = none := rfl

/-- The bytes counted for a glyph before it is rendered are those of its bitmap. -/
theorem Face.Sound.glyph [CFloat F] {f : Font F} (h : f.face.Sound) (cp : Int) :
    (glyphOf f cp).Sized ∧
      UInt32.ofInt ((f.face.codepointBitmapBox cp f.scale f.scale).x1 -
          (f.face.codepointBitmapBox cp f.scale f.scale).x0) *
        UInt32.ofInt ((f.face.codepointBitmapBox cp f.scale f.scale).y1 -
          (f.face.codepointBitmapBox cp f.scale f.scale).y0) = (glyphOf f cp).size ∧
      ((glyphOf f cp).size ≠ 0 → (glyphOf f cp).mask.isSome = true) := by
  obtain ⟨hw, hh, hmask⟩ := h cp f.scale
  have hsize : (glyphOf f cp).Sized := by
    by_cases hzero : (glyphOf f cp).w * (glyphOf f cp).h = 0
    · unfold Glyph.Sized
      rw [hzero]
      exact ⟨le_rfl, by decide⟩
    · obtain ⟨m, _, hbytes⟩ := hmask hzero
      have hfits := m.fits
      unfold Glyph.Sized
      change 0 ≤ (f.face.codepointBitmap f.scale f.scale cp).w *
          (f.face.codepointBitmap f.scale f.scale cp).h ∧
        (f.face.codepointBitmap f.scale f.scale cp).w *
          (f.face.codepointBitmap f.scale f.scale cp).h < _
      omega
  refine ⟨hsize, ?_, fun hne => ?_⟩
  · rw [Glyph.size, ← hw, ← hh]
    rfl
  · by_contra hnone
    refine hne ?_
    have hzero : (glyphOf f cp).w * (glyphOf f cp).h = 0 := by
      by_contra hpos
      obtain ⟨m, hm, _⟩ := hmask hpos
      exact hnone (congrArg Option.isSome hm)
    rw [Glyph.size, ← UInt32.ofInt_mul, hzero]
    rfl

theorem FontStore.held_setFont {st : FontStore F} (h : st.fonts.Nodup) {a : Nat} (ha : a ∈ st.fonts)
    (f : Font F) : (st.setFont a f).held + (st.font a).held = st.held + f.held :=
  sum_held_update h ha st.font f

theorem clearCache_held {st : FontStore F} (hnodup : st.fonts.Nodup) {a : Nat} (ha : a ∈ st.fonts) :
    (clearCache st a).held + (st.font a).held = st.held := by
  have hsum := FontStore.held_setFont hnodup ha (st.font a).emptied
  have hsame : (clearCache st a).held = (st.setFont a (st.font a).emptied).held := by
    simp only [FontStore.held, clearCache, FontStore.setFont, Font.emptied]
  rw [hsame, hsum, Font.emptied_held, Nat.add_zero]

/-- The same fonts are open, with the same faces. -/
def SameFaces (st st' : FontStore F) : Prop :=
  st'.fonts = st.fonts ∧ ∀ b, (st'.font b).emptied = (st.font b).emptied

theorem SameFaces.refl (st : FontStore F) : SameFaces st st := ⟨rfl, fun _ => rfl⟩

theorem SameFaces.trans {st st' st'' : FontStore F} (h : SameFaces st st') (h' : SameFaces st' st'') :
    SameFaces st st'' :=
  ⟨h'.1.trans h.1, fun b => (h'.2 b).trans (h.2 b)⟩

theorem SameFaces.clear (st : FontStore F) (a : Nat) : SameFaces st (clearCache st a) := by
  refine ⟨rfl, fun b => ?_⟩
  rw [clearCache_font]
  split_ifs with hb
  · rw [hb]
    rfl
  · rfl

theorem SameFaces.clearEach (st : FontStore F) (fonts : List Nat) :
    SameFaces st (fonts.foldl clearCache st) := by
  induction fonts generalizing st with
  | nil => exact .refl st
  | cons a fonts ih => exact (SameFaces.clear st a).trans (ih (clearCache st a))

theorem SameFaces.setSlot (st : FontStore F) (a : Nat) (slot : Fin slotCount) (g : Glyph) :
    SameFaces st (st.setFont a ((st.font a).setSlot slot g)) := by
  refine ⟨rfl, fun b => ?_⟩
  rw [FontStore.setFont_font]
  split_ifs with hb
  · rw [hb]
    rfl
  · rfl

theorem SameFaces.faceCp {st st' : FontStore F} (h : SameFaces st st') (a : Nat) (cp : Int) :
    Text.faceCp (st'.font a) cp = Text.faceCp (st.font a) cp := by
  calc
    _ = Text.faceCp (st'.font a).emptied cp := rfl
    _ = Text.faceCp (st.font a).emptied cp := by rw [h.2 a]
    _ = _ := rfl

theorem Font.held_setSlot (f : Font F) (slot : Fin slotCount) (g : Glyph) :
    (f.setSlot slot g).held + (f.slots slot).held = f.held + g.held := by
  have hrest : ∑ i ∈ Finset.univ.erase slot, ((f.setSlot slot g).slots i).held =
      ∑ i ∈ Finset.univ.erase slot, (f.slots i).held := by
    refine Finset.sum_congr rfl fun i hi => ?_
    rw [Font.setSlot_slots, if_neg (Finset.ne_of_mem_erase hi)]
  have hself : ((f.setSlot slot g).slots slot).held = g.held := by
    rw [Font.setSlot_slots, if_pos rfl]
  rw [Font.held, Font.held, ← Finset.add_sum_erase _ _ (Finset.mem_univ slot), hrest, hself,
    ← Finset.add_sum_erase _ (fun i => (f.slots i).held) (Finset.mem_univ slot)]
  omega

theorem Font.key_setSlot (f : Font F) (slot : Fin slotCount) {g : Glyph} (hg : g.used = true) :
    (f.setSlot slot g).key = Function.update f.key slot (some g.cp) := by
  funext i
  rw [Font.key, Font.setSlot_slots, Function.update_apply]
  by_cases hi : i = slot
  · rw [if_pos hi, if_pos hi, if_pos hg]
  · rw [if_neg hi, if_neg hi]
    rfl

theorem Font.key_free {f : Font F} {slot : Fin slotCount} (h : f.key slot = none) :
    (f.slots slot).used = false := by
  cases hused : (f.slots slot).used with
  | false => rfl
  | true =>
    rw [Font.key, if_pos hused] at h
    cases h

theorem Font.key_used {f : Font F} {slot : Fin slotCount} {cp : Int} (h : f.key slot = some cp) :
    (f.slots slot).used = true ∧ (f.slots slot).cp = cp := by
  unfold Font.key at h
  split_ifs at h with hused
  exact ⟨hused, Option.some.inj h⟩

theorem fontClose_some (st : FontStore F) (a : Nat) :
    fontClose st (some a) = clearCache { st with fonts := st.fonts.erase a } a := rfl

/-- The calls on the fonts. -/
inductive FontCall (F : Type) where
  | openFont (w : OpenWorld F) (path : Option String) (px : Int)
  | closeFont (a : Option Nat)
  | lookup (a : Nat) (cp : Int)

/-- New fonts get an address that no open font has, and only open fonts are used. -/
def CallOk (st : FontStore F) : FontCall F → Prop
  | .openFont w _ _ => (∀ a, w.allocated = some a → a ∉ st.fonts) ∧
      ∀ file face, w.initFont file = some face → face.Sound
  | .closeFont a => ∀ b, a = some b → b ∈ st.fonts
  | .lookup a _ => a ∈ st.fonts

/-- Before any font is open. -/
def FontStore.start (font : Nat → Font F) : FontStore F := { fonts := [], font, cacheTotal := 0 }

section Kept
variable [CFloat F]

/-- A table in which every glyph is found and is its code point's own. -/
structure Font.Kept (f : Font F) : Prop where
  sound : f.face.Sound
  probed : Probed home f.key
  own : ∀ i, (f.slots i).used = true → f.slots i = glyphOf f (f.slots i).cp
  free : ∀ i, (f.slots i).used = false → (f.slots i).mask = none

structure FontStore.Kept (st : FontStore F) : Prop where
  distinct : st.fonts.Nodup
  fonts : ∀ a ∈ st.fonts, (st.font a).Kept
  total : st.cacheTotal.toNat = st.held
  bounded : st.held ≤ cacheLimit.toNat

theorem Font.Kept.zeroed {f : Font F} (hzero : f.slots = fun _ => .zero) (h : f.face.Sound) :
    f.Kept := by
  have hfree (i : Fin slotCount) : f.slots i = .zero := congrFun hzero i
  refine ⟨h, probed_empty fun i => ?_, fun i hi => ?_, fun i _ => ?_⟩
  · rw [Font.key, hfree]
    rfl
  · rw [hfree] at hi
    cases hi
  · rw [hfree]
    rfl

theorem Font.Kept.sized {f : Font F} (h : f.Kept) (i : Fin slotCount)
    (hmask : (f.slots i).mask.isSome = true) : (f.slots i).Sized := by
  cases hused : (f.slots i).used with
  | false =>
    rw [h.free i hused] at hmask
    cases hmask
  | true =>
    rw [h.own i hused]
    exact (h.sound.glyph _).1

theorem FontStore.Kept.clear {st : FontStore F} (h : st.Kept) {a : Nat} (ha : a ∈ st.fonts) :
    (clearCache st a).Kept := by
  have hheld := clearCache_held h.distinct ha
  refine ⟨h.distinct, fun b hb => ?_, ?_, ?_⟩
  · rw [clearCache_font]
    split_ifs
    · exact .zeroed rfl (h.fonts a ha).sound
    · exact h.fonts b hb
  · have htotal := h.total
    rw [clearCache_total (h.fonts a ha).sized (by omega)]
    omega
  · have hbound := h.bounded
    omega

/-- Clearing fonts one after the other. -/
theorem FontStore.Kept.clearEach {st : FontStore F} (h : st.Kept) {fonts : List Nat}
    (hfonts : ∀ a ∈ fonts, a ∈ st.fonts) :
    (fonts.foldl clearCache st).Kept ∧ (fonts.foldl clearCache st).fonts = st.fonts ∧
      ∀ b, (fonts.foldl clearCache st).font b = if b ∈ fonts then (st.font b).emptied else st.font b := by
  induction fonts generalizing st with
  | nil => exact ⟨h, rfl, fun b => (if_neg List.not_mem_nil).symm⟩
  | cons a fonts ih =>
    have ha := hfonts a List.mem_cons_self
    obtain ⟨hkept, hsame, hfont⟩ := ih (h.clear ha) fun b hb => hfonts b (List.mem_cons_of_mem a hb)
    refine ⟨hkept, hsame, fun b => ?_⟩
    rw [List.foldl_cons, hfont, clearCache_font]
    by_cases hba : b = a
    · subst hba
      rw [if_pos rfl, if_pos List.mem_cons_self]
      split_ifs <;> rfl
    · rw [if_neg hba]
      by_cases hb : b ∈ fonts
      · rw [if_pos hb, if_pos (List.mem_cons_of_mem a hb)]
      · rw [if_neg hb, if_neg fun hmem => hb ((List.mem_cons.mp hmem).resolve_left hba)]

/-- An eviction leaves every font open and nothing held. -/
theorem FontStore.Kept.evict {st : FontStore F} (h : st.Kept) :
    (st.fonts.foldl clearCache st).Kept ∧ (st.fonts.foldl clearCache st).fonts = st.fonts ∧
      (st.fonts.foldl clearCache st).held = 0 ∧
      ∀ a ∈ st.fonts, (st.fonts.foldl clearCache st).font a = (st.font a).emptied := by
  obtain ⟨hkept, hsame, hfont⟩ := h.clearEach fun a ha => ha
  have hempty : ∀ a ∈ st.fonts, (st.fonts.foldl clearCache st).font a = (st.font a).emptied :=
    fun a ha => (hfont a).trans (if_pos ha)
  refine ⟨hkept, hsame, ?_, hempty⟩
  rw [FontStore.held, hsame]
  refine List.sum_eq_zero fun n hn => ?_
  obtain ⟨a, ha, rfl⟩ := List.mem_map.mp hn
  rw [hempty a ha, Font.emptied_held]

/-- What is rendered for a code point depends on the face and its scale only. -/
theorem SameFaces.glyphOf {st st' : FontStore F} (h : SameFaces st st') (a : Nat) (cp : Int) :
    Text.glyphOf (st'.font a) cp = Text.glyphOf (st.font a) cp := by
  calc
    _ = Text.glyphOf (st'.font a).emptied cp := rfl
    _ = Text.glyphOf (st.font a).emptied cp := by rw [h.2 a]
    _ = _ := rfl

theorem Font.Kept.free_held {f : Font F} (h : f.Kept) {slot : Fin slotCount} (hfree : f.key slot = none) :
    (f.slots slot).held = 0 := by
  rw [Glyph.held, h.free slot (f.key_free hfree)]
  rfl

/-- A glyph put where the search found room. -/
theorem Font.Kept.insert {f : Font F} (h : f.Kept) {cp : Int} {slot : Fin slotCount}
    (hgap : search f.key cp slotCount (home cp) = .gap slot) :
    (f.setSlot slot (glyphOf f cp)).Kept where
  sound := h.sound
  probed := by
    rw [f.key_setSlot slot rfl]
    exact h.probed.insert hgap
  own i hi := by
    by_cases heq : i = slot
    · rw [heq, Font.setSlot_slots, if_pos rfl]
      rfl
    · rw [Font.setSlot_slots, if_neg heq] at hi ⊢
      exact h.own i hi
  free i hi := by
    by_cases heq : i = slot
    · rw [heq, Font.setSlot_slots, if_pos rfl] at hi
      cases hi
    · rw [Font.setSlot_slots, if_neg heq] at hi ⊢
      exact h.free i hi

/-- Rendering into a free slot, with room for the mask. -/
theorem fillSlot_kept {st : FontStore F} (h : st.Kept) {a : Nat} (ha : a ∈ st.fonts) {cp : Int}
    {slot : Fin slotCount} (hgap : search (st.font a).key cp slotCount (home cp) = .gap slot)
    (hroom : st.held + (glyphOf (st.font a) cp).size.toNat ≤ cacheLimit.toNat) :
    (fillSlot st a cp slot (glyphOf (st.font a) cp).size).2.Kept ∧
      SameFaces st (fillSlot st a cp slot (glyphOf (st.font a) cp).size).2 ∧
      (fillSlot st a cp slot (glyphOf (st.font a) cp).size).1 = some (glyphOf (st.font a) cp) := by
  obtain ⟨hsized, _, hmask⟩ := (h.fonts a ha).sound.glyph cp
  have hfill : fillSlot st a cp slot (glyphOf (st.font a) cp).size =
      (some (glyphOf (st.font a) cp),
        { st.setFont a ((st.font a).setSlot slot (glyphOf (st.font a) cp)) with
          cacheTotal := if (glyphOf (st.font a) cp).mask.isSome then
            st.cacheTotal + (glyphOf (st.font a) cp).size else st.cacheTotal }) := by
    rw [fillSlot]
    refine if_neg fun hlost => ?_
    have hsome := hmask hlost.1
    have hnone : (glyphOf (st.font a) cp).mask.isNone = true := hlost.2
    rw [Option.isNone_iff_eq_none] at hnone
    rw [hnone] at hsome
    cases hsome
  rw [hfill]
  have hslot := Font.held_setSlot (st.font a) slot (glyphOf (st.font a) cp)
  have hfont := FontStore.held_setFont h.distinct ha
    ((st.font a).setSlot slot (glyphOf (st.font a) cp))
  have hfree := (h.fonts a ha).free_held (search_gap_empty hgap)
  have hheld : (glyphOf (st.font a) cp).held =
      if (glyphOf (st.font a) cp).mask.isSome then (glyphOf (st.font a) cp).size.toNat else 0 := by
    rw [Glyph.held, Glyph.size_toNat hsized]
  have hle : (glyphOf (st.font a) cp).held ≤ (glyphOf (st.font a) cp).size.toNat := by
    rw [hheld]
    split_ifs <;> omega
  refine ⟨⟨h.distinct, fun b hb => ?_, ?_, ?_⟩, SameFaces.setSlot st a slot _, rfl⟩
  · change ((st.setFont a _).font b).Kept
    rw [FontStore.setFont_font]
    split_ifs
    · exact (h.fonts a ha).insert hgap
    · exact h.fonts b hb
  · change (if _ then _ else _ : UInt32).toNat = (st.setFont a _).held
    have htotal := h.total
    have hlimit : cacheLimit.toNat < 2 ^ 32 := cacheLimit.toNat_lt
    split_ifs at hheld ⊢
    · rw [UInt32.toNat_add, Nat.mod_eq_of_lt (by omega)]
      omega
    · omega
  · change (st.setFont a _).held ≤ _
    omega

theorem renderInto_kept {st : FontStore F} (h : st.Kept) {a : Nat} (ha : a ∈ st.fonts) {cp : Int}
    {slot : Fin slotCount} (hgap : search (st.font a).key cp slotCount (home cp) = .gap slot) :
    (renderInto st a cp slot).2.Kept ∧ SameFaces st (renderInto st a cp slot).2 ∧
      (renderInto st a cp slot).1 = if (glyphOf (st.font a) cp).size ≤ cacheLimit then
        some (glyphOf (st.font a) cp) else none := by
  obtain ⟨hsized, hbytes, _⟩ := (h.fonts a ha).sound.glyph cp
  simp only [renderInto, hbytes]
  by_cases hbig : cacheLimit < (glyphOf (st.font a) cp).size
  · rw [if_pos hbig, if_neg (UInt32.not_le.mpr hbig)]
    exact ⟨h, .refl st, rfl⟩
  have hsmall : (glyphOf (st.font a) cp).size ≤ cacheLimit := UInt32.not_lt.mp hbig
  have hfits : (glyphOf (st.font a) cp).size.toNat ≤ cacheLimit.toNat := UInt32.le_iff_toNat_le.mp hsmall
  rw [if_neg hbig, if_pos hsmall]
  by_cases hevicts : cacheLimit < st.cacheTotal + (glyphOf (st.font a) cp).size
  · obtain ⟨hkept, hfonts, hheld, hempty⟩ := h.evict
    have hsame := SameFaces.clearEach st st.fonts
    have hroom := search_empty (k := cp) (st.font a).emptied_key (home cp)
    rw [if_pos hevicts, ← hsame.glyphOf a cp]
    rw [← hempty a ha] at hroom
    rw [← hsame.glyphOf a cp] at hfits
    obtain ⟨hnew, hfaces, hglyph⟩ := fillSlot_kept hkept (hfonts.symm ▸ ha) hroom (by omega)
    exact ⟨hnew, hsame.trans hfaces, hglyph⟩
  · have hle : st.cacheTotal + (glyphOf (st.font a) cp).size ≤ cacheLimit := UInt32.not_lt.mp hevicts
    have hsum := UInt32.le_iff_toNat_le.mp hle
    have hlimit : cacheLimit.toNat = 2097152 := rfl
    have htotal := h.total
    have hbound := h.bounded
    rw [UInt32.toNat_add, Nat.mod_eq_of_lt (by omega)] at hsum
    rw [if_neg hevicts]
    exact fillSlot_kept h ha hgap (by omega)

/-- Every lookup keeps the tables, and answers with the glyph that would be rendered anew. -/
theorem lookup_kept {st : FontStore F} (h : st.Kept) {a : Nat} (ha : a ∈ st.fonts) (cp : Int) :
    (lookup st a cp).2.Kept ∧ SameFaces st (lookup st a cp).2 ∧
      ((glyphOf (st.font a) (faceCp (st.font a) cp)).size ≤ cacheLimit →
        (lookup st a cp).1 = some (glyphOf (st.font a) (faceCp (st.font a) cp))) := by
  unfold lookup
  simp only
  generalize faceCp (st.font a) cp = cp
  split
  · rename_i slot hfound
    refine ⟨h, .refl st, fun _ => ?_⟩
    obtain ⟨hused, hcp⟩ := Font.key_used (search_hit_key hfound)
    rw [(h.fonts a ha).own slot hused, hcp]
  · rename_i slot hgap
    obtain ⟨hkept, hsame, hglyph⟩ := renderInto_kept h ha hgap
    exact ⟨hkept, hsame, fun hfits => hglyph.trans (if_pos hfits)⟩
  · rename_i slot hfull
    -- the search went once around, so it ends where it began
    obtain rfl : slot = home cp := (search_full hfull).trans (next_iterate_all (home cp))
    have hempty : (clearCache st a).font a = (st.font a).emptied := by rw [clearCache_font, if_pos rfl]
    have hgap : search ((clearCache st a).font a).key cp slotCount (home cp) = .gap (home cp) := by
      rw [hempty]
      exact search_empty (st.font a).emptied_key _
    have hsame := SameFaces.clear st a
    obtain ⟨hkept, hfaces, hglyph⟩ := renderInto_kept (h.clear ha) (a := a) ha hgap
    rw [hsame.glyphOf a cp] at hglyph
    exact ⟨hkept, hsame.trans hfaces, fun hfits => hglyph.trans (if_pos hfits)⟩

theorem loadFont_kept {w : OpenWorld F} {px : Int} {f : Font F}
    (hw : ∀ file face, w.initFont file = some face → face.Sound) (h : loadFont w px = some f) :
    f.Kept ∧ f.held = 0 := by
  unfold loadFont at h
  simp only at h
  split_ifs at h
  obtain ⟨face, hface, hloaded⟩ := Option.bind_eq_some_iff.mp h
  split_ifs at hloaded
  cases hloaded
  exact ⟨.zeroed rfl (hw _ face hface), Finset.sum_eq_zero fun _ _ => rfl⟩

/-- An opened font starts with an empty table at an address of its own. -/
theorem fontOpen_kept {st : FontStore F} (h : st.Kept) {w : OpenWorld F}
    (hfresh : ∀ a, w.allocated = some a → a ∉ st.fonts)
    (hw : ∀ file face, w.initFont file = some face → face.Sound) (path : Option String) (px : Int) :
    (fontOpen st w path px).2.Kept := by
  unfold fontOpen
  split_ifs
  · exact h
  · exact h
  split
  · rename_i a f haddress hload
    obtain ⟨hkept, hheld⟩ := loadFont_kept hw hload
    have hnew := hfresh a haddress
    have hsame : ∀ b ∈ st.fonts, (st.setFont a f).font b = st.font b := fun b hb => by
      rw [FontStore.setFont_font, if_neg (ne_of_mem_of_not_mem hb hnew)]
    have hself : (st.setFont a f).font a = f := by rw [FontStore.setFont_font, if_pos rfl]
    have hsum : (FontStore.mk (a :: st.fonts) (st.setFont a f).font st.cacheTotal).held = st.held := by
      unfold FontStore.held
      simp only [List.map_cons, List.sum_cons]
      rw [hself, hheld, Nat.zero_add, List.map_congr_left fun b hb => by rw [hsame b hb]]
    refine ⟨List.nodup_cons.mpr ⟨hnew, h.distinct⟩, ?_, ?_, ?_⟩
    · refine List.forall_mem_cons.mpr ⟨?_, fun b hb => ?_⟩
      · change ((st.setFont a f).font a).Kept
        rw [hself]
        exact hkept
      · change ((st.setFont a f).font b).Kept
        rw [hsame b hb]
        exact h.fonts b hb
    · exact h.total.trans hsum.symm
    · exact hsum.trans_le h.bounded
  · exact h

/-- A closed font takes its masks with it. -/
theorem fontClose_kept {st : FontStore F} (h : st.Kept) {a : Option Nat}
    (ha : ∀ b, a = some b → b ∈ st.fonts) : (fontClose st a).Kept := by
  cases a with
  | none => exact h
  | some a =>
    have hmem := ha a rfl
    have hother : ∀ b ∈ st.fonts.erase a, (clearCache { st with fonts := st.fonts.erase a } a).font b =
        st.font b := fun b hb => by
      rw [clearCache_font, if_neg fun heq => List.Nodup.not_mem_erase h.distinct (heq ▸ hb)]
    have hsum : (clearCache { st with fonts := st.fonts.erase a } a).held + (st.font a).held =
        st.held := by
      unfold FontStore.held
      rw [clearCache_fonts, List.map_congr_left fun b hb => by rw [hother b hb], Nat.add_comm]
      exact List.sum_map_erase (fun b => (st.font b).held) hmem
    have htotal := h.total
    have hbound := h.bounded
    have hle : (st.font a).held ≤ st.cacheTotal.toNat := by omega
    have hrest : (clearCache { st with fonts := st.fonts.erase a } a).cacheTotal.toNat =
        st.cacheTotal.toNat - (st.font a).held := clearCache_total (h.fonts a hmem).sized hle
    rw [fontClose_some]
    refine ⟨h.distinct.erase a, fun b hb => ?_, ?_, ?_⟩
    · rw [hother b hb]
      exact h.fonts b (List.mem_of_mem_erase hb)
    · rw [hrest]
      omega
    · omega

def FontStore.call (st : FontStore F) : FontCall F → FontStore F
  | .openFont w path px => (fontOpen st w path px).2
  | .closeFont a => fontClose st a
  | .lookup a cp => (lookup st a cp).2

theorem call_kept {st : FontStore F} (h : st.Kept) {c : FontCall F} (hc : CallOk st c) :
    (st.call c).Kept := by
  cases c with
  | openFont w path px => exact fontOpen_kept h hc.1 hc.2 path px
  | closeFont a => exact fontClose_kept h hc
  | lookup a cp => exact (lookup_kept h hc cp).1

theorem start_kept (font : Nat → Font F) : (FontStore.start font).Kept where
  distinct := List.nodup_nil
  fonts _ ha := absurd ha List.not_mem_nil
  total := rfl
  bounded := Nat.zero_le _

/-- Over every history of fonts opened, closed and asked for glyphs, the total is what the open
fonts hold and within the limit, no font holds a code point twice, and every glyph whose bitmap
can be cached is the one that would be rendered anew. -/
theorem glyph_cache_sound (font : Nat → Font F) (calls : List (FontCall F)) (st : FontStore F)
    (h : Run (Guarded (Fires FontStore.call) CallOk) (FontStore.start font) calls st) :
    st.cacheTotal.toNat = st.held ∧ st.held ≤ 2 * 1024 * 1024 ∧
      ∀ a ∈ st.fonts,
        (∀ i j, ((st.font a).slots i).used = true → ((st.font a).slots j).used = true →
          ((st.font a).slots i).cp = ((st.font a).slots j).cp → i = j) ∧
        ∀ cp, (glyphOf (st.font a) (faceCp (st.font a) cp)).w *
            (glyphOf (st.font a) (faceCp (st.font a) cp)).h ≤ 2 * 1024 * 1024 →
          (lookup st a cp).1 = some (glyphOf (st.font a) (faceCp (st.font a) cp)) := by
  have hkept : st.Kept := h.invariant FontStore.Kept (start_kept font) fun t c u ht hu => by
    rw [hu.2]
    exact call_kept ht hu.1
  refine ⟨hkept.total, hkept.bounded, fun a ha => ⟨fun i j hi hj hcp => ?_, fun cp hsize => ?_⟩⟩
  · have hki : (st.font a).key i = some ((st.font a).slots i).cp := if_pos hi
    have hkj : (st.font a).key j = some ((st.font a).slots i).cp := by
      rw [hcp]
      exact if_pos hj
    exact (hkept.fonts a ha).probed.injective hki hkj
  · have hsized := ((hkept.fonts a ha).sound.glyph (faceCp (st.font a) cp)).1
    refine (lookup_kept hkept ha cp).2.2 (UInt32.le_iff_toNat_le.mpr ?_)
    rw [Glyph.size_toNat hsized]
    exact Int.toNat_le.mpr hsize

end Kept

/-- A face of one-pixel glyphs. -/
def dotFace : Face ℚ :=
  { findGlyphIndex := fun _ => 1
    codepointAdvance := fun _ => 2
    codepointBitmapBox := fun _ _ _ => ⟨0, -1, 1, 0⟩
    codepointBitmap := fun _ _ _ => ⟨some ⟨[255], by decide⟩, 1, 1, 0, -1⟩
    ascent := 1
    descent := 0
    scaleForPixelHeight := fun _ => 1 }

def dotWorld : OpenWorld ℚ :=
  { opened := true
    allocated := some 4096
    length := 28
    rewound := true
    buffer := true
    contents := [0, 1, 0, 0, 0, 1] ++ List.replicate 22 0
    initFont := fun _ => some dotFace }

def dotStart : FontStore ℚ := .start fun _ => ⟨dotFace, 1, 2, fun _ => .zero⟩

def dotCalls : List (FontCall ℚ) := [.openFont dotWorld (some "face.ttf") 12, .lookup 4096 65]

theorem dotFace_sound : dotFace.Sound :=
  fun _ _ => ⟨rfl, rfl, fun _ => ⟨⟨[255], by decide⟩, rfl, rfl⟩⟩

/-- A font is opened and asked for a letter twice. -/
theorem dot_cache_sound : ∃ st : FontStore ℚ, st.fonts = [4096] ∧
    (lookup st 4096 65).1 = some (glyphOf (st.font 4096) 65) := by
  have hopen : CallOk dotStart (.openFont dotWorld (some "face.ttf") 12) := by
    refine ⟨fun _ _ => List.not_mem_nil, fun _ face hface => ?_⟩
    cases hface
    exact dotFace_sound
  have hrun : Run (Guarded (Fires FontStore.call) CallOk) dotStart dotCalls
      (dotCalls.foldl FontStore.call dotStart) :=
    run_guarded_foldl ⟨hopen, List.mem_singleton.mpr rfl, trivial⟩
  exact ⟨_, rfl, ((glyph_cache_sound _ _ _ hrun).2.2 4096 (List.mem_singleton.mpr rfl)).2 65 (by decide)⟩

end Taq102.Text
