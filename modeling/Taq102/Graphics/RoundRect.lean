import Mathlib.Tactic.Linarith
import Mathlib.Tactic.Ring
import Taq102.Graphics.Region

/-! The antialiased rounded rectangle as it is drawn, with its table of corner coverages, and the
plain renderer that counts the subpixels of every pixel. -/
namespace Taq102.Graphics
open Taq102.Lib CFloat

/-- How many of the 4x4 subpixels of a pixel a test accepts. -/
def subpixels (test : Nat → Nat → Bool) : Nat :=
  ((List.range 4).map fun (sy : Nat) => (List.range 4).countP fun (sx : Nat) => test sx sy).sum

section Subpixels
variable {test test' : Nat → Nat → Bool}

theorem subpixels_congr (h : ∀ sx < 4, ∀ sy < 4, test sx sy = test' sx sy) :
    subpixels test = subpixels test' := by
  refine congrArg List.sum (List.map_congr_left fun sy hsy => List.countP_congr fun sx hsx => ?_)
  rw [h sx (List.mem_range.mp hsx) sy (List.mem_range.mp hsy)]

theorem subpixels_full (h : ∀ sx < 4, ∀ sy < 4, test sx sy = true) : subpixels test = 16 :=
  have hall : subpixels test = subpixels fun _ _ => true := subpixels_congr h
  hall.trans (by decide)

/-- A row of subpixels counted from the other end. -/
theorem countP_mirrored (p : Nat → Bool) :
    (List.range 4).countP (fun s => p (3 - s)) = (List.range 4).countP p := by
  have hmap : (List.range 4).map (fun s => 3 - s) = (List.range 4).reverse := by decide
  have hmirror : (List.range 4).countP (p ∘ fun s => 3 - s) = _ := (List.countP_map ..).symm
  exact hmirror.trans (by rw [hmap, List.countP_reverse])

theorem subpixels_mirrored_x (test : Nat → Nat → Bool) :
    subpixels (fun sx sy => test (3 - sx) sy) = subpixels test :=
  congrArg List.sum (List.map_congr_left fun sy _ => countP_mirrored fun sx => test sx sy)

theorem subpixels_mirrored_y (test : Nat → Nat → Bool) :
    subpixels (fun sx sy => test sx (3 - sy)) = subpixels test := by
  have hmap : (List.range 4).map (fun s => 3 - s) = (List.range 4).reverse := by decide
  have hrows : (List.range 4).map (fun sy => (List.range 4).countP fun sx => test sx (3 - sy)) =
      ((List.range 4).map fun sy => (List.range 4).countP fun sx => test sx sy).reverse := by
    rw [← List.map_reverse, ← hmap, List.map_map]
    rfl
  rw [subpixels, hrows, List.sum_reverse]
  rfl

theorem subpixels_le (test : Nat → Nat → Bool) : subpixels test ≤ 16 := by
  let row (sy : Nat) : Nat := (List.range 4).countP fun sx => test sx sy
  have hrow (sy : Nat) : row sy ≤ 4 := List.countP_le_length
  have hsum : subpixels test = row 0 + (row 1 + (row 2 + (row 3 + 0))) := rfl
  have h0 := hrow 0
  have h1 := hrow 1
  have h2 := hrow 2
  have h3 := hrow 3
  omega

end Subpixels

/-- The point lies at most `r` from the rectangle that is `r` smaller on every side. -/
def Within (w h r : Int) (px py : ℚ) : Prop :=
  ∃ u v : ℚ, (r ≤ u ∧ u ≤ w - r) ∧ (r ≤ v ∧ v ≤ h - r) ∧
    (px - u) * (px - u) + (py - v) * (py - v) ≤ r * r

/-- The point of an interval nearest to a point. -/
def nearest (lo hi t : ℚ) : ℚ := if t < lo then lo else if hi < t then hi else t

section Distance
variable {lo hi t u : ℚ}

theorem nearest_mem (h : lo ≤ hi) : lo ≤ nearest lo hi t ∧ nearest lo hi t ≤ hi := by
  rw [nearest]
  split
  · exact ⟨le_refl lo, h⟩
  rename_i hlo
  split
  · exact ⟨h, le_refl hi⟩
  · rename_i hhi
    exact ⟨not_lt.mp hlo, not_lt.mp hhi⟩

theorem nearest_le (hu : lo ≤ u ∧ u ≤ hi) :
    (t - nearest lo hi t) * (t - nearest lo hi t) ≤ (t - u) * (t - u) := by
  rw [nearest]
  split
  · nlinarith
  split
  · nlinarith
  · rw [sub_self, mul_zero]
    exact mul_self_nonneg (t - u)

end Distance

theorem within_iff {w h r : Int} {px py : ℚ} : Within w h r px py ↔
    (2 * r ≤ w ∧ 2 * r ≤ h) ∧
      (px - nearest r (w - r) px) * (px - nearest r (w - r) px) +
        (py - nearest r (h - r) py) * (py - nearest r (h - r) py) ≤ (r * r : ℚ) := by
  have hside (n : Int) : 2 * r ≤ n ↔ (r : ℚ) ≤ n - r := by
    rw [le_sub_iff_add_le, ← two_mul]
    exact_mod_cast Iff.rfl
  constructor
  · rintro ⟨u, v, hu, hv, hnear⟩
    refine ⟨⟨(hside w).mpr (hu.1.trans hu.2), (hside h).mpr (hv.1.trans hv.2)⟩, ?_⟩
    exact (add_le_add (nearest_le hu) (nearest_le hv)).trans hnear
  · rintro ⟨⟨hw, hh⟩, hnear⟩
    exact ⟨_, _, nearest_mem ((hside w).mp hw), nearest_mem ((hside h).mp hh), hnear⟩

instance (w h r : Int) (px py : ℚ) : Decidable (Within w h r px py) :=
  decidable_of_iff _ within_iff.symm

/-- The middle of a subpixel of the pixel at `c`. -/
def centre (c : Int) (s : Nat) : ℚ := c + (s + 1 / 2) / 4

/-- The subpixels of a pixel inside the rounded rectangle. -/
def plainCoverage (x y w h r i j : Int) : Nat :=
  subpixels fun sx sy => decide (Within w h r (centre (i - x) sx) (centre (j - y) sy))

/-- Each visible pixel of the rectangle is blended with the colour scaled to its coverage. -/
def plainRoundRect (c : Canvas) (x y w h r : Int) (col : UInt32) : Canvas :=
  let src (p : Int × Int) := coveredColor col (plainCoverage x y w h (clampRadius w h r) p.1 p.2)
  { c with px := fun p => blended c.toCanvasSize x y w h src p (c.px p) }

/-- Eight times the distance of a subpixel from the inner side, with its sign. -/
def offset (w r c : Int) (s : Nat) : Int :=
  if c < r then (c - r) * 8 + s * 2 + 1
  else if c < w - r then 0
  else (c - (w - r)) * 8 + s * 2 + 1

/-- The offset the table is built with, for the pixel its corner is mirrored to. -/
def tableOffset (w r c : Int) (s : Nat) : Int :=
  ((if r ≤ c then w - 1 - c else c) - r) * 8 + s * 2 + 1

section Coverage
variable {w h r c cx cy : Int} {s : Nat}

theorem centre_offset (w r c : Int) (hs : s < 4) :
    centre c s - nearest r (w - r) (centre c s) = offset w r c s / 8 := by
  have hlow : (0 : ℚ) < (s + 1 / 2) / 4 := by positivity
  have hhigh : ((s : ℚ) + 1 / 2) / 4 < 1 := by
    have hle : (s : ℚ) ≤ 3 := by exact_mod_cast Nat.le_of_lt_succ hs
    linarith
  rw [offset]
  split
  · rename_i hleft
    have hin : (c : ℚ) + 1 ≤ r := by exact_mod_cast hleft
    have hnear : nearest r (w - r) (centre c s) = r := if_pos (by rw [centre]; linarith)
    rw [hnear, centre]
    push_cast
    ring
  rename_i hleft
  have hright : (r : ℚ) ≤ c := by exact_mod_cast not_lt.mp hleft
  have hnot : ¬ centre c s < r := by
    rw [centre]
    linarith
  split
  · rename_i hmiddle
    have hin : (c : ℚ) + 1 ≤ w - r := by exact_mod_cast hmiddle
    have hnear : nearest r (w - r) (centre c s) = centre c s :=
      (if_neg hnot).trans (if_neg (by rw [centre]; linarith))
    rw [hnear, sub_self, Int.cast_zero, zero_div]
  · rename_i hmiddle
    have hout : ((w - r : Int) : ℚ) ≤ c := by exact_mod_cast not_lt.mp hmiddle
    push_cast at hout
    have hnear : nearest r (w - r) (centre c s) = w - r :=
      (if_neg hnot).trans (if_pos (by rw [centre]; linarith))
    rw [hnear, centre]
    push_cast
    ring

/-- A subpixel is inside the rounded rectangle by its two offsets. -/
theorem within_offset {sx sy : Nat} (hw : 2 * r ≤ w) (hh : 2 * r ≤ h) (hsx : sx < 4) (hsy : sy < 4) :
    Within w h r (centre cx sx) (centre cy sy) ↔
      offset w r cx sx * offset w r cx sx + offset h r cy sy * offset h r cy sy ≤ r * r * 64 := by
  obtain ⟨dx, hdx⟩ : ∃ dx, dx = offset w r cx sx := ⟨_, rfl⟩
  obtain ⟨dy, hdy⟩ : ∃ dy, dy = offset h r cy sy := ⟨_, rfl⟩
  have hscale : (dx / 8 * (dx / 8) + dy / 8 * (dy / 8) : ℚ) = (dx * dx + dy * dy) / 64 := by ring
  rw [within_iff, centre_offset w r cx hsx, centre_offset h r cy hsy, ← hdx, ← hdy, hscale,
    div_le_iff₀ (by norm_num)]
  constructor
  · rintro ⟨-, hnear⟩
    exact_mod_cast hnear
  · intro hnear
    exact ⟨⟨hw, hh⟩, by exact_mod_cast hnear⟩

theorem offset_middle (hlow : r ≤ c) (hhigh : c < w - r) : offset w r c s = 0 := by
  rw [offset, if_neg (not_lt.mpr hlow), if_pos hhigh]

/-- No subpixel of the rectangle is farther than the radius from the inner side. -/
theorem offset_le (hlow : 0 ≤ c) (hhigh : c < w) (hr : 0 ≤ r) (hs : s < 4) :
    offset w r c s * offset w r c s ≤ r * r * 64 := by
  have hbound : -(8 * r) ≤ offset w r c s ∧ offset w r c s ≤ 8 * r := by
    rw [offset]
    split
    · omega
    split <;> omega
  nlinarith

/-- A corner's table is read straight on one side and mirrored on the other. -/
theorem offset_corner (hcorner : ¬ (r ≤ c ∧ c < w - r)) :
    (∀ s < 4, offset w r c s * offset w r c s = tableOffset w r c s * tableOffset w r c s) ∨
      ∀ s < 4, offset w r c s * offset w r c s =
        tableOffset w r c (3 - s) * tableOffset w r c (3 - s) := by
  by_cases hleft : c < r
  · refine .inl fun s _ => ?_
    rw [tableOffset, if_neg (not_le.mpr hleft), offset, if_pos hleft]
  · refine .inr fun s hs => ?_
    have hright : w - r ≤ c := by omega
    have hmirror : tableOffset w r c (3 - s) = -offset w r c s := by
      rw [tableOffset, if_pos (not_lt.mp hleft), offset, if_neg hleft, if_neg (not_lt.mpr hright)]
      omega
    rw [hmirror, neg_mul_neg]

/-- A corner pixel has the coverage the table gives it. -/
theorem coverage_corner (hx : ¬ (r ≤ cx ∧ cx < w - r)) (hy : ¬ (r ≤ cy ∧ cy < h - r))
    (hw : 2 * r ≤ w) (hh : 2 * r ≤ h) :
    (subpixels fun sx sy => decide (Within w h r (centre cx sx) (centre cy sy))) =
      cornerCoverage r (if r ≤ cx then w - 1 - cx else cx) (if r ≤ cy then h - 1 - cy else cy) := by
  let test (dx dy : Int) : Bool := decide (dx + dy ≤ r * r * 64)
  let tx (s : Nat) : Int := tableOffset w r cx s * tableOffset w r cx s
  let ty (s : Nat) : Int := tableOffset h r cy s * tableOffset h r cy s
  have hinside : (subpixels fun sx sy => decide (Within w h r (centre cx sx) (centre cy sy))) =
      subpixels fun sx sy => test (offset w r cx sx * offset w r cx sx)
        (offset h r cy sy * offset h r cy sy) :=
    subpixels_congr fun sx hsx sy hsy => decide_eq_decide.mpr (within_offset hw hh hsx hsy)
  rw [hinside]
  change _ = subpixels fun sx sy => test (tx sx) (ty sy)
  rcases offset_corner hx with hcolumns | hcolumns <;> rcases offset_corner hy with hrows | hrows
  · exact subpixels_congr fun sx hsx sy hsy => by rw [hcolumns sx hsx, hrows sy hsy]
  · refine Eq.trans ?_ (subpixels_mirrored_y fun sx sy => test (tx sx) (ty sy))
    exact subpixels_congr fun sx hsx sy hsy => by rw [hcolumns sx hsx, hrows sy hsy]
  · refine Eq.trans ?_ (subpixels_mirrored_x fun sx sy => test (tx sx) (ty sy))
    exact subpixels_congr fun sx hsx sy hsy => by rw [hcolumns sx hsx, hrows sy hsy]
  · refine Eq.trans ?_ (subpixels_mirrored_x fun sx sy => test (tx sx) (ty sy))
    refine Eq.trans ?_ (subpixels_mirrored_y fun sx sy => test (tx (3 - sx)) (ty sy))
    exact subpixels_congr fun sx hsx sy hsy => by rw [hcolumns sx hsx, hrows sy hsy]

/-- The code's coverage of a pixel of the rectangle is the plain one. -/
theorem roundCoverage_plain (D : Type) [CFloat D] {x y i j : Int} (hr : 0 ≤ r) (hsmall : r ≤ 64)
    (hw : 2 * r ≤ w) (hh : 2 * r ≤ h) (hx : x ≤ i ∧ i < x + w) (hy : y ≤ j ∧ j < y + h) :
    roundCoverage D x y w h r i j = plainCoverage x y w h r i j := by
  rw [roundCoverage, plainCoverage]
  split
  · rename_i hside
    refine (subpixels_full fun sx hsx sy hsy => decide_eq_true ?_).symm
    rw [within_offset hw hh hsx hsy]
    rcases hside with hcolumn | hrow
    · rw [offset_middle (by omega) (by omega), mul_zero, zero_add]
      exact offset_le (by omega) (by omega) hr hsy
    · rw [offset_middle (w := h) (by omega) (by omega), mul_zero, add_zero]
      exact offset_le (by omega) (by omega) hr hsx
  · rename_i hcorner
    have hcolumn : ¬ (r ≤ i - x ∧ i - x < w - r) := by omega
    have hrow : ¬ (r ≤ j - y ∧ j - y < h - r) := by omega
    exact (coverage_corner hcolumn hrow hw hh).symm

end Coverage

/-- The table of corner coverages by radius and by row and column, and the radii it holds. -/
structure CornerTable where
  ready : Int → Bool
  masks : Int → Int → UInt8

def CornerTable.zero : CornerTable := { ready := fun _ => false, masks := fun _ _ => 0 }

def CornerTable.fill (t : CornerTable) (r : Int) : CornerTable :=
  { ready := Function.update t.ready r true
    masks := Function.update t.masks r ((pixels 0 0 r r).foldl
      (fun mask p => Function.update mask (p.2 * r + p.1) (UInt8.ofNat (cornerCoverage r p.1 p.2)))
      (t.masks r)) }

/-- `corner_coverage`, which fills the table for a radius when it is first needed. -/
def CornerTable.coverage (t : CornerTable) (r x y : Int) : Nat × CornerTable :=
  let t := if t.ready r then t else t.fill r
  ((t.masks r (y * r + x)).toNat, t)

/-- What the table holds is right. -/
def CornerTable.Sound (t : CornerTable) : Prop :=
  ∀ r, t.ready r = true → ∀ x y, 0 ≤ x ∧ x < r → 0 ≤ y ∧ y < r →
    (t.masks r (y * r + x)).toNat = cornerCoverage r x y

section Table
variable {t : CornerTable} {r x y : Int}

theorem index_inj {i j i' j' : Int} (hi : 0 ≤ i ∧ i < r) (hi' : 0 ≤ i' ∧ i' < r)
    (h : j * r + i = j' * r + i') : j = j' ∧ i = i' := by
  have hdiff : (j - j') * r = i' - i := by linarith
  have hrow : j = j' := by
    rcases lt_trichotomy j j' with hlt | heq | hgt
    · nlinarith
    · exact heq
    · nlinarith
  rw [hrow] at h
  exact ⟨hrow, by linarith⟩

/-- Filling the table writes every entry of a corner once. -/
theorem CornerTable.Sound.fill (h : t.Sound) (r : Int) : (t.fill r).Sound := by
  intro radius hready i j hi hj
  rw [CornerTable.fill] at hready ⊢
  dsimp only at hready ⊢
  by_cases hr : radius = r
  · subst hr
    have hin : (i, j) ∈ pixels 0 0 radius radius := mem_pixels.mpr ⟨hi.1, hi.2, hj.1, hj.2⟩
    have hwrite := Sweep.foldl_write (fun p : Int × Int => p.2 * radius + p.1)
      (fun p : Int × Int => UInt8.ofNat (cornerCoverage radius p.1 p.2)) hin ?_ (t.masks radius)
    · rw [Function.update_self, hwrite]
      have hsmall : cornerCoverage radius i j ≤ 16 := subpixels_le _
      exact UInt8.toNat_ofNat_of_lt' (hsmall.trans_lt (by decide))
    · intro p hp hkey
      obtain ⟨h1, h2, -, -⟩ := mem_pixels.mp hp
      obtain ⟨hrow, hcolumn⟩ := index_inj ⟨h1, h2⟩ hi hkey
      rw [hrow, hcolumn]
  · rw [Function.update_of_ne hr] at hready ⊢
    exact h radius hready i j hi hj

theorem CornerTable.Sound.coverage (h : t.Sound) (hx : 0 ≤ x ∧ x < r) (hy : 0 ≤ y ∧ y < r) :
    (t.coverage r x y).1 = cornerCoverage r x y ∧ (t.coverage r x y).2.Sound := by
  rw [CornerTable.coverage]
  dsimp only
  split
  · rename_i hready
    exact ⟨h r hready x y hx hy, h⟩
  · have hready : (t.fill r).ready r = true := Function.update_self ..
    exact ⟨h.fill r r hready x y hx hy, h.fill r⟩

end Table

section Draw
variable (D : Type) [CFloat D]

/-- One pixel of a rounded rectangle, its coverage taken from the table where there is one. -/
def blendRoundPixel (x y w h r : Int) (col : UInt32) (state : CornerTable × BlendCache × Canvas)
    (p : Int × Int) : CornerTable × BlendCache × Canvas :=
  let inside : Nat × CornerTable :=
    if (x + r ≤ p.1 ∧ p.1 < x + w - r) ∨ (y + r ≤ p.2 ∧ p.2 < y + h - r) then (16, state.1)
    else if r ≤ 64 then
      let cx := p.1 - x
      let cy := p.2 - y
      state.1.coverage r (if r ≤ cx then w - 1 - cx else cx) (if r ≤ cy then h - 1 - cy else cy)
    else (largeCoverage D x y w h r p.1 p.2, state.1)
  (inside.2, blendCached (fun _ => coveredColor col inside.1) state.2 p)

/-- `canvas_blend_round_rect` with the table the calls before it have left. -/
def drawRoundRect (t : CornerTable) (c : Canvas) (x y w h r : Int) (col : UInt32) :
    CornerTable × Canvas :=
  if w ≤ 0 ∨ h ≤ 0 then (t, c)
  else
    let r := clampRadius w h r
    let drawn := (boxPixels c.toCanvasSize x y w h).foldl (blendRoundPixel D x y w h r col)
      (t, { lastSrc := 0, lastDst := 0, lastResult := 0, cached := false }, c)
    (drawn.1, drawn.2.2)

/-- The tables the program can have. -/
inductive CornerTable.Reached : CornerTable → Prop
  | start : Reached .zero
  | drawn {t : CornerTable} (c : Canvas) (x y w h r : Int) (col : UInt32) :
      Reached t → Reached (drawRoundRect D t c x y w h r col).1

variable {t : CornerTable} {x y w h r : Int} {col : UInt32}

theorem blendCached_covered {n : Nat} {p : Int × Int} (hn : roundCoverage D x y w h r p.1 p.2 = n)
    (state : BlendCache × Canvas) : blendCached (fun _ => coveredColor col n) state p =
      blendCached (fun p => coveredColor col (roundCoverage D x y w h r p.1 p.2)) state p := by
  rw [blendCached, blendCached, hn]

/-- The table gives each pixel the coverage of its formula, and stays right. -/
theorem blendRoundPixel_eq (ht : t.Sound) {p : Int × Int} (hp : p ∈ box x y w h)
    (state : BlendCache × Canvas) :
    (blendRoundPixel D x y w h r col (t, state) p).1.Sound ∧
      (blendRoundPixel D x y w h r col (t, state) p).2 =
        blendCached (fun p => coveredColor col (roundCoverage D x y w h r p.1 p.2)) state p := by
  have hin := mem_box.mp hp
  by_cases hside : (x + r ≤ p.1 ∧ p.1 < x + w - r) ∨ (y + r ≤ p.2 ∧ p.2 < y + h - r)
  · have hfull : roundCoverage D x y w h r p.1 p.2 = 16 := if_pos hside
    rw [blendRoundPixel, if_pos hside]
    exact ⟨ht, blendCached_covered D hfull state⟩
  by_cases hsmall : r ≤ 64
  · have hx : 0 ≤ (if r ≤ p.1 - x then w - 1 - (p.1 - x) else p.1 - x) ∧
        (if r ≤ p.1 - x then w - 1 - (p.1 - x) else p.1 - x) < r := by
      split <;> omega
    have hy : 0 ≤ (if r ≤ p.2 - y then h - 1 - (p.2 - y) else p.2 - y) ∧
        (if r ≤ p.2 - y then h - 1 - (p.2 - y) else p.2 - y) < r := by
      split <;> omega
    obtain ⟨hcoverage, hsound⟩ := ht.coverage hx hy
    have hcorner : roundCoverage D x y w h r p.1 p.2 = _ := (if_neg hside).trans (if_pos hsmall)
    rw [blendRoundPixel, if_neg hside, if_pos hsmall]
    exact ⟨hsound, blendCached_covered D (hcorner.trans hcoverage.symm) state⟩
  · have hlarge : roundCoverage D x y w h r p.1 p.2 = largeCoverage D x y w h r p.1 p.2 :=
      (if_neg hside).trans (if_neg hsmall)
    rw [blendRoundPixel, if_neg hside, if_neg hsmall]
    exact ⟨ht, blendCached_covered D hlarge state⟩

theorem foldl_blendRoundPixel (ht : t.Sound) {l : List (Int × Int)} (hl : ∀ p ∈ l, p ∈ box x y w h)
    (state : BlendCache × Canvas) :
    (l.foldl (blendRoundPixel D x y w h r col) (t, state)).1.Sound ∧
      (l.foldl (blendRoundPixel D x y w h r col) (t, state)).2 =
        l.foldl (blendCached fun p => coveredColor col (roundCoverage D x y w h r p.1 p.2)) state := by
  induction l generalizing t state with
  | nil => exact ⟨ht, rfl⟩
  | cons p rest ih =>
    obtain ⟨htable, hstate⟩ := blendRoundPixel_eq D (r := r) ht (hl p List.mem_cons_self) state
    rw [List.foldl_cons, List.foldl_cons, ← hstate]
    exact ih htable (fun q hq => hl q (List.mem_cons_of_mem p hq)) _

/-- With a table that is right the rounded rectangle is drawn by the formula. -/
theorem drawRoundRect_eq (ht : t.Sound) (c : Canvas) (x y w h r : Int) (col : UInt32) :
    (drawRoundRect D t c x y w h r col).1.Sound ∧
      (drawRoundRect D t c x y w h r col).2 = canvasBlendRoundRect D c x y w h r col := by
  rw [drawRoundRect, canvasBlendRoundRect]
  split
  · exact ⟨ht, rfl⟩
  · have hbox : ∀ p ∈ boxPixels c.toCanvasSize x y w h, p ∈ box x y w h := fun p hp =>
      (mem_boxPixels.mp hp).1
    obtain ⟨htable, hstate⟩ := foldl_blendRoundPixel D (r := clampRadius w h r) ht hbox
      ({ lastSrc := 0, lastDst := 0, lastResult := 0, cached := false }, c)
    exact ⟨htable, congrArg Prod.snd hstate⟩

theorem CornerTable.Reached.sound (ht : CornerTable.Reached D t) : t.Sound := by
  induction ht with
  | start => exact fun _ hready => absurd hready Bool.false_ne_true
  | drawn c x y w h r col _ ih => exact (drawRoundRect_eq D ih c x y w h r col).1

theorem clampRadius_spec (hw : 0 < w) (hh : 0 < h) :
    0 ≤ clampRadius w h r ∧ 2 * clampRadius w h r ≤ w ∧ 2 * clampRadius w h r ≤ h := by
  rw [clampRadius]
  split <;> split <;> split <;> omega

/-- Whatever was drawn before, a rounded rectangle with a radius up to 64 is the plain one. -/
theorem drawRoundRect_plain (ht : CornerTable.Reached D t) (c : Canvas) (x y w h r : Int)
    (col : UInt32) (hsmall : clampRadius w h r ≤ 64) :
    (drawRoundRect D t c x y w h r col).2 = plainRoundRect c x y w h r col := by
  rw [(drawRoundRect_eq D (ht.sound D) c x y w h r col).2, canvas_eta (rfl : c.toCanvasSize = _),
    canvasBlendRoundRect_eq, plainRoundRect]
  apply congrArg (Canvas.mk c.toCanvasSize)
  funext p
  by_cases hp : p ∈ box x y w h
  · have hin := mem_box.mp hp
    obtain ⟨hr, hw, hh⟩ := clampRadius_spec (r := r) (w := w) (h := h) (by omega) (by omega)
    have hcovered : roundSource D x y w h r col p =
        coveredColor col (plainCoverage x y w h (clampRadius w h r) p.1 p.2) := by
      rw [roundSource, roundCoverage_plain D hr hsmall hw hh (by omega) (by omega)]
    rw [blended, blended, hcovered]
  · rw [blended_outside hp, blended_outside hp]

end Draw

/-- Two touching corners over the edge of a clip, drawn after a smaller radius. -/
theorem pill_plain :
    let c : Canvas := ⟨⟨20, 10, 3, 2, 9, 5⟩, fun _ => 0xff102030⟩
    let t := (drawRoundRect ℚ .zero c 0 0 8 6 2 0x80ffffff).1
    (drawRoundRect ℚ t c (-2) 1 11 7 9 0xc0ff8000).2 = plainRoundRect c (-2) 1 11 7 9 0xc0ff8000 :=
  drawRoundRect_plain ℚ (.drawn _ 0 0 8 6 2 0x80ffffff .start) _ (-2) 1 11 7 9 0xc0ff8000 (by decide)

end Taq102.Graphics
