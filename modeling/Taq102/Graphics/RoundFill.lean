import Mathlib.Data.Int.Order.Lemmas
import Mathlib.Tactic.Linarith
import Taq102.Graphics.Region
import Taq102.Lib.Rounding

/-! The filled rounded rectangle (`canvas_round_rect`), drawn row by row, and the test of each pixel
that it stands for. -/
namespace Taq102.Graphics
open Taq102.Lib CFloat

section Fill
variable (F : Type) [CFloat F]

/-- The circle test of a corner pixel, by its distances from the corner's centre. -/
def insideCorner (r dx dy : Int) : Bool :=
  decide ((ofInt dx * ofInt dx + ofInt dy * ofInt dy : F) ≤ ofInt r * ofInt r + lit 0.5)

/-- The radius that fits the rectangle. -/
def fitRadius (w h r : Int) : Int :=
  let r := if r < 0 then 0 else r
  let r := if 2 * r > w then w.tdiv 2 else r
  if 2 * r > h then h.tdiv 2 else r

/-- The first column of a row inside the left corner. -/
def firstInside (h r j : Int) : Int :=
  let cy := if j < r then r else h - 1 - r
  ((intRange 0 r).find? fun i => insideCorner F r (i - r) (j - cy)).getD r

def roundRectRow (x y w h r : Int) (col : UInt32) (c : Canvas) (j : Int) : Canvas :=
  if r ≤ j ∧ j < h - r then span c x (y + j) w col
  else
    let first := firstInside F h r j
    span c (x + first) (y + j) (w - 2 * first) col

def canvasRoundRect (c : Canvas) (x y w h r : Int) (col : UInt32) : Canvas :=
  let r := fitRadius w h r
  (intRange 0 h).foldl (roundRectRow F x y w h r col) c

end Fill

/-- How far a column or row is from the nearest centre of a corner. -/
def cornerOffset (n r i : Int) : Int :=
  if i < r then i - r else if n - r ≤ i then i - (n - 1 - r) else 0

/-- Each visible pixel of the rectangle that passes the test is painted. -/
def perPixelRoundRect (test : Int → Int → Int → Bool) (c : Canvas) (x y w h r : Int) (col : UInt32) :
    Canvas :=
  let r := fitRadius w h r
  { c with px := fun p =>
      if p ∈ box x y w h ∧ canvasVisible c.toCanvasSize p.1 p.2 = true ∧
          test r (cornerOffset w r (p.1 - x)) (cornerOffset h r (p.2 - y)) = true then col
      else c.px p }

section Span
variable {z : CanvasSize}

theorem canvasVisible_iff {x y : Int} : canvasVisible z x y = true ↔
    (0 ≤ x ∧ x < z.w ∧ 0 ≤ y ∧ y < z.h) ∧ (0 < z.clipW →
      (z.clipX ≤ x ∧ x < z.clipX + z.clipW) ∧ z.clipY ≤ y ∧ y < z.clipY + z.clipH) := by
  rw [canvasVisible]
  split
  · rename_i hoff
    refine ⟨fun h => Bool.noConfusion h, fun h => ?_⟩
    omega
  rename_i hoff
  split
  · rename_i hnone
    exact ⟨fun _ => ⟨by omega, fun hclip => by omega⟩, fun _ => rfl⟩
  · rename_i hclip
    simp only [Bool.and_eq_true, decide_eq_true_eq]
    constructor
    · rintro ⟨⟨⟨hleft, hright⟩, htop⟩, hbottom⟩
      exact ⟨by omega, fun _ => ⟨⟨hleft, hright⟩, htop, hbottom⟩⟩
    · rintro ⟨-, hin⟩
      obtain ⟨⟨hleft, hright⟩, htop, hbottom⟩ := hin (by omega)
      exact ⟨⟨⟨hleft, hright⟩, htop⟩, hbottom⟩

/-- Writing one colour to the columns of a row. -/
theorem foldl_set (px : Int × Int → UInt32) (x0 x1 y : Int) (col : UInt32) :
    (intRange x0 x1).foldl (fun (c : Canvas) i => c.set (i, y) col) ⟨z, px⟩ =
      ⟨z, fun p => if (x0 ≤ p.1 ∧ p.1 < x1) ∧ p.2 = y then col else px p⟩ := by
  have hnodup : ((intRange x0 x1).map fun i => (i, y)).Nodup :=
    (intRange_nodup x0 x1).map fun a b h => (Prod.mk.inj h).1
  have hloop : ((intRange x0 x1).map fun i => (i, y)).foldl (fun (c : Canvas) p => c.set p col) ⟨z, px⟩ =
      ⟨z, fun p => if p ∈ (intRange x0 x1).map (fun i => (i, y)) then col else px p⟩ :=
    foldl_pixels (fun _ _ => col) (fun _ _ => rfl) hnodup px
  rw [List.foldl_map] at hloop
  rw [hloop]
  apply congrArg (Canvas.mk z)
  funext p
  have hmem : p ∈ (intRange x0 x1).map (fun i => (i, y)) ↔ (x0 ≤ p.1 ∧ p.1 < x1) ∧ p.2 = y := by
    rw [List.mem_map]
    constructor
    · rintro ⟨i, hi, rfl⟩
      exact ⟨mem_intRange.mp hi, rfl⟩
    · rintro ⟨hcolumn, hrow⟩
      exact ⟨p.1, mem_intRange.mpr hcolumn, by rw [← hrow]⟩
  by_cases hin : (x0 ≤ p.1 ∧ p.1 < x1) ∧ p.2 = y
  · rw [if_pos hin, if_pos (hmem.mpr hin)]
  · rw [if_neg hin, if_neg fun h => hin (hmem.mp h)]

/-- A row segment paints its visible pixels. -/
theorem span_eq (px : Int × Int → UInt32) (x y w : Int) (col : UInt32) : span ⟨z, px⟩ x y w col =
    ⟨z, fun p => if p ∈ box x y w 1 ∧ canvasVisible z p.1 p.2 = true then col else px p⟩ := by
  have hnothing (hrow : ∀ p : Int × Int, p ∈ box x y w 1 → canvasVisible z p.1 p.2 ≠ true) :
      (⟨z, px⟩ : Canvas) = ⟨z, fun p =>
        if p ∈ box x y w 1 ∧ canvasVisible z p.1 p.2 = true then col else px p⟩ := by
    apply congrArg (Canvas.mk z)
    funext p
    exact (if_neg fun h => hrow p h.1 h.2).symm
  rw [span]
  split
  · rename_i hoff
    refine hnothing fun p hp hv => ?_
    have hin := mem_box.mp hp
    have hon := canvasVisible_on hv
    dsimp only at hoff
    omega
  rename_i hon
  dsimp only at hon
  split
  · rename_i hclipped
    refine hnothing fun p hp hv => ?_
    have hin := mem_box.mp hp
    have hclip := (canvasVisible_iff.mp hv).2
    dsimp only at hclipped
    omega
  rename_i hclipped
  dsimp only at hclipped ⊢
  rw [foldl_set]
  apply congrArg (Canvas.mk z)
  funext p
  have hiff : ((if 0 < z.clipW ∧ (if x < 0 then 0 else x) < z.clipX then z.clipX
        else if x < 0 then 0 else x) ≤ p.1 ∧
      p.1 < (if z.clipW > 0 ∧ (if x + w > z.w then z.w else x + w) > z.clipX + z.clipW then
        z.clipX + z.clipW else if x + w > z.w then z.w else x + w)) ∧ p.2 = y ↔
      p ∈ box x y w 1 ∧ canvasVisible z p.1 p.2 = true := by
    rw [canvasVisible_iff, mem_box]
    split <;> split <;> split <;> split <;> omega
  exact ite_congr (propext hiff) (fun _ => rfl) fun _ => rfl

/-- Rows of one colour, each with its own segment. -/
theorem foldl_span (rows : List Int) (px : Int × Int → UInt32) (left width : Int → Int) (y : Int)
    (col : UInt32) : rows.foldl (fun c j => span c (left j) (y + j) (width j) col) ⟨z, px⟩ =
      ⟨z, fun p => if p.2 - y ∈ rows ∧ (left (p.2 - y) ≤ p.1 ∧
          p.1 < left (p.2 - y) + width (p.2 - y)) ∧ canvasVisible z p.1 p.2 = true then col
        else px p⟩ := by
  induction rows generalizing px with
  | nil =>
    apply congrArg (Canvas.mk z)
    funext p
    exact (if_neg fun h => List.not_mem_nil h.1).symm
  | cons j rest ih =>
    rw [List.foldl_cons, span_eq, ih]
    apply congrArg (Canvas.mk z)
    funext p
    by_cases hj : p.2 - y = j
    · have hrow : p ∈ box (left j) (y + j) (width j) 1 ↔ left j ≤ p.1 ∧ p.1 < left j + width j := by
        rw [mem_box]
        omega
      rw [hj]
      by_cases hin : (left j ≤ p.1 ∧ p.1 < left j + width j) ∧ canvasVisible z p.1 p.2 = true
      · rw [if_pos (⟨hrow.mpr hin.1, hin.2⟩ : _ ∧ _), ite_self,
          if_pos (⟨List.mem_cons_self, hin⟩ : _ ∧ _)]
      · rw [if_neg fun h => hin h.2, if_neg fun h => hin ⟨hrow.mp h.1, h.2⟩, if_neg fun h => hin h.2]
    · have hrow : ¬ (p ∈ box (left j) (y + j) (width j) 1 ∧ canvasVisible z p.1 p.2 = true) := by
        rw [mem_box]
        omega
      rw [if_neg hrow]
      refine ite_congr (propext (and_congr_left fun _ => ?_)) (fun _ => rfl) fun _ => rfl
      rw [List.mem_cons]
      exact (or_iff_right hj).symm

end Span

theorem intRange_sorted (lo hi : Int) : (intRange lo hi).Pairwise (· < ·) := by
  refine List.pairwise_map.mpr (List.pairwise_lt_range.imp fun {a b} h => ?_)
  omega

/-- The first index that passes a test which all later ones pass too. -/
theorem find_le_iff {r i : Int} {test : Int → Bool} (hi : 0 ≤ i ∧ i < r)
    (hmono : ∀ a b, 0 ≤ a → a ≤ b → b < r → test a = true → test b = true) :
    ((intRange 0 r).find? test).getD r ≤ i ↔ test i = true := by
  have hin : i ∈ intRange 0 r := mem_intRange.mpr hi
  cases hfind : (intRange 0 r).find? test with
  | none =>
    have hnone := List.find?_eq_none.mp hfind i hin
    exact ⟨fun h => absurd h (not_le.mpr hi.2), fun h => absurd h hnone⟩
  | some a =>
    obtain ⟨htest, before, after, hsplit, hbefore⟩ := List.find?_eq_some_iff_append.mp hfind
    have ha : a ∈ intRange 0 r := List.mem_of_find?_eq_some hfind
    constructor
    · exact fun h => hmono a i (mem_intRange.mp ha).1 h hi.2 htest
    · intro h
      rw [hsplit] at hin
      have hsorted := intRange_sorted 0 r
      rw [hsplit] at hsorted
      rcases List.mem_append.mp hin with hearly | hlate
      · have hfails := hbefore i hearly
        rw [h] at hfails
        cases hfails
      · rcases List.mem_cons.mp hlate with heq | hlate
        · exact heq.ge
        · exact (List.rel_of_pairwise_cons (List.pairwise_append.mp hsorted).2.1 hlate).le

theorem find_mem {r : Int} (hr : 0 ≤ r) (test : Int → Bool) :
    0 ≤ ((intRange 0 r).find? test).getD r ∧ ((intRange 0 r).find? test).getD r ≤ r := by
  cases hfind : (intRange 0 r).find? test with
  | none => exact ⟨hr, le_refl r⟩
  | some a =>
    have ha := mem_intRange.mp (List.mem_of_find?_eq_some hfind)
    exact ⟨ha.1, ha.2.le⟩

/-- What a circle test needs for the rows to be segments: it is no harder nearer to the centre, and
passes on the centre's own row and column. -/
structure ConvexTest (r : Int) (test : Int → Int → Bool) : Prop where
  nearer : ∀ dx dx' dy, dx.natAbs ≤ dx'.natAbs → test dx' dy = true → test dx dy = true
  row : ∀ dx, dx.natAbs ≤ r.natAbs → test dx 0 = true
  column : ∀ dy, dy.natAbs ≤ r.natAbs → test 0 dy = true

section Rows
variable {F : Type} [CFloat F] {w h r : Int}

/-- A column of a corner row is in the row's segment when its pixel passes the test. -/
theorem firstInside_iff {i j : Int} (htest : ConvexTest r (insideCorner F r)) (hr : 0 ≤ r)
    (hw : 2 * r ≤ w) (hj : ¬ (r ≤ j ∧ j < h - r)) (hj' : 0 ≤ j ∧ j < h) (hi : 0 ≤ i ∧ i < w) :
    (firstInside F h r j ≤ i ∧ i < w - firstInside F h r j) ↔
      insideCorner F r (cornerOffset w r i) (cornerOffset h r j) = true := by
  have hrow : cornerOffset h r j = j - (if j < r then r else h - 1 - r) := by
    rw [cornerOffset]
    split
    · rfl
    · rw [if_pos (by omega)]
  have hmono (a b : Int) (ha : 0 ≤ a) (hab : a ≤ b) (hb : b < r)
      (hinside : insideCorner F r (a - r) (cornerOffset h r j) = true) :
      insideCorner F r (b - r) (cornerOffset h r j) = true :=
    htest.nearer _ _ _ (by omega) hinside
  have hfirst : firstInside F h r j = ((intRange 0 r).find? fun i =>
      insideCorner F r (i - r) (cornerOffset h r j)).getD r := by
    rw [firstInside, hrow]
  obtain ⟨hlow, hhigh⟩ := find_mem hr fun i => insideCorner F r (i - r) (cornerOffset h r j)
  rw [hfirst]
  by_cases hleft : i < r
  · have hcolumn : cornerOffset w r i = i - r := if_pos hleft
    rw [hcolumn, ← find_le_iff ⟨hi.1, hleft⟩ hmono]
    omega
  by_cases hright : w - r ≤ i
  · -- the right corner is the left one seen from the other side
    have hcolumn : cornerOffset w r i = i - (w - 1 - r) := (if_neg hleft).trans (if_pos hright)
    have hmirror : insideCorner F r (i - (w - 1 - r)) (cornerOffset h r j) = true ↔
        insideCorner F r (w - 1 - i - r) (cornerOffset h r j) = true :=
      ⟨htest.nearer _ _ _ (by omega), htest.nearer _ _ _ (by omega)⟩
    rw [hcolumn, hmirror, ← find_le_iff ⟨by omega, by omega⟩ hmono]
    omega
  · have hcolumn : cornerOffset w r i = 0 := (if_neg hleft).trans (if_neg hright)
    rw [hcolumn]
    refine ⟨fun _ => htest.column _ ?_, fun _ => by omega⟩
    rw [cornerOffset]
    split
    · omega
    · split <;> omega

theorem fitRadius_spec (hw : 0 ≤ w) (hh : 0 ≤ h) (r : Int) :
    0 ≤ fitRadius w h r ∧ 2 * fitRadius w h r ≤ w ∧ 2 * fitRadius w h r ≤ h := by
  rw [fitRadius, Int.tdiv_eq_ediv_of_nonneg hw, Int.tdiv_eq_ediv_of_nonneg hh]
  split <;> split <;> split <;> omega

/-- The columns left out on both sides of a row. -/
def rowStart (F : Type) [CFloat F] (h r j : Int) : Int :=
  if r ≤ j ∧ j < h - r then 0 else firstInside F h r j

/-- A row of the rectangle is one segment. -/
theorem roundRectRow_eq (x y w h r : Int) (col : UInt32) (c : Canvas) (j : Int) :
    roundRectRow F x y w h r col c j =
      span c (x + rowStart F h r j) (y + j) (w - 2 * rowStart F h r j) col := by
  rw [roundRectRow, rowStart]
  split
  · rw [add_zero, mul_zero, sub_zero]
  · rfl

/-- A pixel of the rectangle lies in its row's segment when it passes the test. -/
theorem rowStart_iff {i j : Int} (htest : ConvexTest r (insideCorner F r)) (hr : 0 ≤ r)
    (hw : 2 * r ≤ w) (hj : 0 ≤ j ∧ j < h) :
    (rowStart F h r j ≤ i ∧ i < w - rowStart F h r j) ↔ (0 ≤ i ∧ i < w) ∧
      insideCorner F r (cornerOffset w r i) (cornerOffset h r j) = true := by
  rw [rowStart]
  split
  · rename_i hfull
    have hrow : cornerOffset h r j = 0 :=
      (if_neg (not_lt.mpr hfull.1)).trans (if_neg (not_le.mpr hfull.2))
    rw [hrow]
    refine ⟨fun hi => ⟨by omega, htest.row _ ?_⟩, fun hi => by omega⟩
    rw [cornerOffset]
    split
    · omega
    · split <;> omega
  · rename_i hcorner
    have hfirst : 0 ≤ firstInside F h r j := (find_mem hr _).1
    constructor
    · intro hi
      have hin : 0 ≤ i ∧ i < w := by omega
      exact ⟨hin, (firstInside_iff htest hr hw hcorner hj hin).mp hi⟩
    · rintro ⟨hin, hinside⟩
      exact (firstInside_iff htest hr hw hcorner hj hin).mpr hinside

/-- With a convex test the rectangle drawn row by row is the one tested pixel by pixel. -/
theorem canvasRoundRect_perPixel (hw : 0 ≤ w) (hh : 0 ≤ h) (htest : ∀ r, 0 ≤ r →
    ConvexTest r (insideCorner F r)) (c : Canvas) (x y r : Int) (col : UInt32) :
    canvasRoundRect F c x y w h r col = perPixelRoundRect (insideCorner F) c x y w h r col := by
  obtain ⟨hr, hwide, -⟩ := fitRadius_spec hw hh r
  have hrows : roundRectRow F x y w h (fitRadius w h r) col = fun c j =>
      span c (x + rowStart F h (fitRadius w h r) j) (y + j)
        (w - 2 * rowStart F h (fitRadius w h r) j) col :=
    funext₂ (roundRectRow_eq x y w h (fitRadius w h r) col)
  rw [canvas_eta (rfl : c.toCanvasSize = _), canvasRoundRect, perPixelRoundRect, hrows, foldl_span]
  apply congrArg (Canvas.mk c.toCanvasSize)
  funext p
  refine ite_congr (propext ?_) (fun _ => rfl) fun _ => rfl
  rw [mem_intRange]
  constructor
  · rintro ⟨hj, hcolumns, hvisible⟩
    obtain ⟨hi, hinside⟩ := (rowStart_iff (i := p.1 - x) (htest _ hr) hr hwide hj).mp (by omega)
    exact ⟨mem_box.mpr (by omega), hvisible, hinside⟩
  · rintro ⟨hp, hvisible, hinside⟩
    have hin := mem_box.mp hp
    have hj : 0 ≤ p.2 - y ∧ p.2 - y < h := by omega
    have hcolumns := (rowStart_iff (i := p.1 - x) (htest _ hr) hr hwide hj).mpr
      ⟨by omega, hinside⟩
    exact ⟨hj, by omega, hvisible⟩

end Rows

section Float
variable {f : ℕ} {m n : ℤ} {r dx dy : Int}

/-- The square of an integer, converted and multiplied in floating point. -/
def floatSquare (f : ℕ) (n : ℤ) : ℚ := roundTo f (roundTo f n * roundTo f n)

theorem insideCorner_rounded (f : ℕ) (r dx dy : Int) : insideCorner (Rounded f) r dx dy = true ↔
    roundTo f (floatSquare f dx + floatSquare f dy) ≤
      roundTo f (floatSquare f r + roundTo f 0.5) := decide_eq_true_iff

theorem floatSquare_natAbs (f : ℕ) (n : ℤ) : floatSquare f n.natAbs = floatSquare f n := by
  rcases Int.natAbs_eq n with hpos | hneg
  · rw [← hpos]
  · have hvalue : (n : ℚ) = -((n.natAbs : ℤ) : ℚ) := by
      conv_lhs => rw [hneg]
      push_cast
      rfl
    rw [floatSquare, floatSquare, hvalue, roundTo_neg, neg_mul_neg]

theorem floatSquare_mono (h : m.natAbs ≤ n.natAbs) : floatSquare f m ≤ floatSquare f n := by
  rw [← floatSquare_natAbs f m, ← floatSquare_natAbs f n]
  have hzero : (0 : ℚ) ≤ roundTo f ((m.natAbs : ℤ) : ℚ) := roundTo_nonneg (by positivity)
  have hle : roundTo f ((m.natAbs : ℤ) : ℚ) ≤ roundTo f ((n.natAbs : ℤ) : ℚ) :=
    roundTo_mono (by exact_mod_cast h)
  exact roundTo_mono (mul_self_le_mul_self hzero hle)

theorem floatSquare_zero (f : ℕ) : floatSquare f 0 = 0 := by
  have hzero : roundTo f 0 = 0 := roundTo_of_multiple (n := 0) (by rw [Int.cast_zero, zero_mul])
  rw [floatSquare, Int.cast_zero, hzero, mul_zero, hzero]

/-- Rounding keeps the order, so the circle test is convex in every format. -/
theorem convexTest_rounded (f : ℕ) (r : Int) : ConvexTest r (insideCorner (Rounded f) r) := by
  have hhalf : 0 ≤ roundTo f 0.5 := roundTo_nonneg (by norm_num)
  refine ⟨fun dx dx' dy hle h => ?_, fun dx hle => ?_, fun dy hle => ?_⟩
  · rw [insideCorner_rounded] at h ⊢
    exact (roundTo_mono (add_le_add_left (floatSquare_mono hle) _)).trans h
  · rw [insideCorner_rounded, floatSquare_zero, add_zero]
    exact roundTo_mono ((floatSquare_mono hle).trans (le_add_of_nonneg_right hhalf))
  · rw [insideCorner_rounded, floatSquare_zero, zero_add]
    exact roundTo_mono ((floatSquare_mono hle).trans (le_add_of_nonneg_right hhalf))

theorem roundTo_intCast (h : |n| ≤ 2 ^ (f + 1)) : roundTo f n = n :=
  roundTo_of_grid 0 h (by rw [zpow_zero, mul_one])

theorem floatSquare_exact (h : n * n ≤ 2 ^ (f + 1)) : floatSquare f n = ((n * n : ℤ) : ℚ) := by
  have hsquare : |n| ≤ n * n := by
    rw [← abs_mul_abs_self]
    rcases eq_or_ne n 0 with hzero | hne
    · rw [hzero]
      exact le_refl _
    · exact le_mul_of_one_le_left (abs_nonneg n) (Int.one_le_abs hne)
  rw [floatSquare, roundTo_intCast (hsquare.trans h), ← Int.cast_mul, roundTo_intCast]
  rwa [abs_of_nonneg (mul_self_nonneg n)]

/-- The radii for which the single precision test is exact. -/
def ExactRadius (r : Int) : Prop := 0 ≤ r ∧ (r ≤ 2896 ∨ Even r ∧ r ≤ 4094)

theorem ExactRadius.square_lt (h : ExactRadius r) : r * r + 1 ≤ 2 ^ 24 := by
  have hle : r ≤ 4094 := h.2.elim (fun hsmall => by omega) fun heven => heven.2
  have hlow := h.1
  nlinarith

theorem ExactRadius.floatSquare (h : ExactRadius r) : floatSquare 23 r = ((r * r : ℤ) : ℚ) := by
  have hlt := h.square_lt
  exact floatSquare_exact (by omega)

/-- The threshold of the test lies less than one above the radius's square. -/
theorem ExactRadius.threshold (h : ExactRadius r) :
    ((r * r : ℤ) : ℚ) ≤ roundTo 23 (Graphics.floatSquare 23 r + roundTo 23 0.5) ∧
      roundTo 23 (Graphics.floatSquare 23 r + roundTo 23 0.5) < ((r * r + 1 : ℤ) : ℚ) := by
  have hhalf : roundTo 23 0.5 = 1 / 2 :=
    (roundTo_of_grid (n := 1) (-1) (by decide) (by norm_num)).trans (by norm_num)
  rw [h.floatSquare, hhalf]
  by_cases hfine : r * r < 2 ^ 23
  · have hpos := mul_self_nonneg r
    have hgrid : roundTo 23 ((r * r : ℤ) + 1 / 2 : ℚ) = (r * r : ℤ) + 1 / 2 := by
      apply roundTo_of_grid (n := 2 * (r * r) + 1) (-1)
      · rw [abs_of_nonneg (by omega)]
        omega
      · push_cast
        ring
    rw [hgrid]
    push_cast
    constructor <;> linarith
  · have heven : Even r := by
      rcases h.2 with hsmall | heven
      · have hlow := h.1
        nlinarith
      · exact heven.1
    have hlt := h.square_lt
    rw [roundTo_half (by omega) (by omega), if_pos (heven.mul_left r)]
    push_cast
    constructor <;> linarith

/-- Between the radius's square and the next integer it does not matter where the threshold is. -/
theorem insideCorner_exact (h : ExactRadius r) (hx : dx.natAbs ≤ r.natAbs)
    (hy : dy.natAbs ≤ r.natAbs) : insideCorner Binary32 r dx dy = insideCorner ℚ r dx dy := by
  have hlt := h.square_lt
  have hle {d : Int} (hd : d.natAbs ≤ r.natAbs) : d * d ≤ r * r := Int.natAbs_le_iff_mul_self_le.mp hd
  have hdx := hle hx
  have hdy := hle hy
  obtain ⟨hlow, hhigh⟩ := h.threshold
  have hexact : insideCorner ℚ r dx dy = true ↔ dx * dx + dy * dy ≤ r * r := by
    have htest : insideCorner ℚ r dx dy = true ↔ (dx * dx + dy * dy : ℚ) ≤ r * r + 0.5 :=
      decide_eq_true_iff
    rw [htest]
    constructor
    · intro hin
      by_contra hout
      have hnext : ((r * r + 1 : ℤ) : ℚ) ≤ ((dx * dx + dy * dy : ℤ) : ℚ) := by
        exact_mod_cast not_le.mp hout
      push_cast at hnext
      norm_num at hin
      linarith
    · intro hin
      have hcast : ((dx * dx + dy * dy : ℤ) : ℚ) ≤ ((r * r : ℤ) : ℚ) := by exact_mod_cast hin
      push_cast at hcast
      norm_num
      linarith
  rw [Bool.eq_iff_iff, hexact, insideCorner_rounded, floatSquare_exact (n := dx) (by omega),
    floatSquare_exact (n := dy) (by omega), ← Int.cast_add]
  constructor
  · intro hin
    by_contra hout
    have hnext : roundTo 23 ((r * r + 1 : ℤ) : ℚ) ≤ roundTo 23 ((dx * dx + dy * dy : ℤ) : ℚ) :=
      roundTo_mono (by exact_mod_cast not_le.mp hout)
    have hpos := mul_self_nonneg r
    rw [roundTo_intCast (by rw [abs_of_nonneg (by omega)]; exact hlt)] at hnext
    exact absurd (hnext.trans hin) (not_le.mpr hhigh)
  · intro hin
    have hpos : 0 ≤ dx * dx + dy * dy := add_nonneg (mul_self_nonneg dx) (mul_self_nonneg dy)
    rw [roundTo_intCast (by rw [abs_of_nonneg hpos]; omega)]
    exact le_trans (by exact_mod_cast hin) hlow

theorem cornerOffset_le {n i : Int} (hr : 0 ≤ r) (hi : 0 ≤ i ∧ i < n) :
    (cornerOffset n r i).natAbs ≤ r.natAbs := by
  rw [cornerOffset]
  split
  · omega
  · split <;> omega

theorem perPixelRoundRect_exact {w h : Int} (hw : 0 ≤ w) (hh : 0 ≤ h)
    (hexact : ExactRadius (fitRadius w h r)) (c : Canvas) (x y : Int) (col : UInt32) :
    perPixelRoundRect (insideCorner Binary32) c x y w h r col =
      perPixelRoundRect (insideCorner ℚ) c x y w h r col := by
  have hr := (fitRadius_spec hw hh r).1
  rw [perPixelRoundRect, perPixelRoundRect]
  apply congrArg (Canvas.mk c.toCanvasSize)
  funext p
  refine ite_congr (propext (and_congr_right fun hp => ?_)) (fun _ => rfl) fun _ => rfl
  have hin := mem_box.mp hp
  rw [insideCorner_exact hexact (cornerOffset_le hr (by omega))
    (cornerOffset_le hr (by omega))]

end Float

/-- In single precision the rectangle is the one tested pixel by pixel, with the test evaluated in
single precision, and for radii up to 2896 and even ones up to 4094 with the exact test. -/
theorem canvasRoundRect_binary32 (c : Canvas) (x y w h r : Int) (col : UInt32) (hw : 0 ≤ w)
    (hh : 0 ≤ h) : canvasRoundRect Binary32 c x y w h r col =
        perPixelRoundRect (insideCorner Binary32) c x y w h r col ∧
      (ExactRadius (fitRadius w h r) → canvasRoundRect Binary32 c x y w h r col =
        perPixelRoundRect (insideCorner ℚ) c x y w h r col) := by
  have hpixels := canvasRoundRect_perPixel (F := Binary32) hw hh (fun r _ => convexTest_rounded 23 r)
    c x y r col
  exact ⟨hpixels, fun hexact => hpixels.trans (perPixelRoundRect_exact hw hh hexact c x y col)⟩

/-- The corners of a rectangle of odd size, cut by a clip. -/
theorem clipped_round_rect :
    let c : Canvas := ⟨⟨20, 10, 3, 2, 9, 5⟩, fun _ => 0xff102030⟩
    canvasRoundRect Binary32 c 1 1 11 7 9 0xffff8000 =
      perPixelRoundRect (insideCorner ℚ) c 1 1 11 7 9 0xffff8000 :=
  (canvasRoundRect_binary32 _ 1 1 11 7 9 0xffff8000 (by decide) (by decide)).2
    ⟨by decide, .inl (by decide)⟩

/-- A radius of 2897: its square plus one half is rounded up to the next integer, and the pixel that
lies there is painted. -/
theorem large_corner_overpainted :
    let c : Canvas := ⟨⟨1, 1, 0, 0, 0, 0⟩, fun _ => 0⟩
    (canvasRoundRect Binary32 c 0 (-2896) 5794 5794 2897 0xffffffff).px (0, 0) = 0xffffffff ∧
      (perPixelRoundRect (insideCorner ℚ) c 0 (-2896) 5794 5794 2897 0xffffffff).px (0, 0) = 0 := by
  intro c
  have hthreshold : roundTo 23 (floatSquare 23 2897 + roundTo 23 0.5) = 8392610 := by
    have hhalf : roundTo 23 0.5 = 1 / 2 :=
      (roundTo_of_grid (n := 1) (-1) (by decide) (by norm_num)).trans (by norm_num)
    rw [floatSquare_exact (by decide), hhalf, roundTo_half (by decide) (by decide),
      if_neg (by decide)]
    norm_num
  have hinside : insideCorner Binary32 2897 (-2897) (-1) = true := by
    rw [insideCorner_rounded, hthreshold, floatSquare_exact (by decide), floatSquare_exact (by decide),
      ← Int.cast_add, roundTo_intCast (by decide)]
    norm_num
  constructor
  · rw [canvasRoundRect_perPixel (by decide) (by decide) (fun r _ => convexTest_rounded 23 r)]
    exact if_pos ⟨by decide, rfl, hinside⟩
  · refine if_neg fun h => ?_
    have hout : insideCorner ℚ 2897 (-2897) (-1) = false := by decide +kernel
    exact Bool.false_ne_true (hout.symm.trans h.2.2)

end Taq102.Graphics
