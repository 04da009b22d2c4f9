import Taq102.Graphics.Region
import Taq102.Text.Cache
import Taq102.Text.Utf8

/-! Measuring and drawing texts (`font_width`, `draw_text` and `font_draw_fit` of `font.c`): what a
text that is too wide is cut to, and the columns its pixels stay in. -/
namespace Taq102.Text
open Taq102.Lib CFloat Utf8
open Taq102.Graphics

/-- The bytes of U+2026. -/
def ellipsisBytes : CStr := [0xe2, 0x80, 0xa6]

def intMax : Int := 2147483647

def isDigitCp (cp : Int) : Bool := 48 ≤ cp && cp ≤ 57

/-- One pixel of a glyph's bitmap. -/
def coverage (g : Glyph) (i j : Int) : UInt32 :=
  match g.mask with
  | none => 0
  | some m => (m.bytes.getD (j * g.w + i).toNat 0).toUInt32

/-- The loops over a glyph's bitmap, its left edge at a column. -/
def drawMask (c : Canvas) (g : Glyph) (x y : Int) (col : UInt32) (left right : Int) : Canvas :=
  (pixels 0 0 g.w g.h).foldl (fun c p =>
    let py := y + g.yoff + p.2
    let px := x + g.xoff + p.1
    if py < 0 ∨ c.h ≤ py then c
    else if px < 0 ∨ c.w ≤ px ∨ px < left ∨ right ≤ px then c
    else
      let a := (col >>> 24) * coverage g p.1 p.2 / 255
      canvasBlend c px py ((a <<< 24) ||| (col &&& 0xffffff))) c

section Draw
variable {F : Type} [CFloat F]

def advanceCp (f : Font F) (cp : Int) : Int :=
  if isDigitCp cp then f.digitAdvance else scaledAdvance f (faceCp f cp)

/-- The loop of `font_width`. -/
def widthLoop (f : Font F) : List (Nat × Memory) → Int → Int
  | [], width => width
  | (cp, _) :: rest, width =>
    let advance := advanceCp f cp
    if intMax - width < advance then intMax else widthLoop f rest (width + advance)

def fontWidth (f : Font F) (text : Memory) : Option Int :=
  (codePoints text).map fun visited => widthLoop f visited 0

/-- The glyph found for one code point of a text, digits centred in their column. -/
def drawCp (c : Canvas) (f : Font F) (found : Option Glyph) (cp pen y : Int) (col : UInt32)
    (left right : Int) : Canvas :=
  match found with
  | none => c
  | some g =>
    let shift := if isDigitCp cp then (f.digitAdvance - g.advance).tdiv 2 else 0
    drawMask c g (pen + shift) y col left right

/-- The loop of `draw_text`. -/
def drawLoop (st : FontStore F) (a : Nat) (c : Canvas) (pen y : Int) (col : UInt32) (left right : Int) :
    List (Nat × Memory) → FontStore F × Canvas
  | [] => (st, c)
  | (cp, _) :: rest =>
    let found := lookup st a cp
    let f := found.2.font a
    drawLoop found.2 a (drawCp c f found.1 cp pen y col left right) (pen + advanceCp f cp) y col left
      right rest

def drawText (st : FontStore F) (a : Nat) (c : Canvas) (x y : Int) (text : Memory) (col : UInt32)
    (left right : Int) : Option (FontStore F × Canvas) :=
  (codePoints text).map fun visited => drawLoop st a c x y col left right visited

/-- Where the text is cut: the pointer after the last code point that leaves room for the
ellipsis. -/
def cutLoop (f : Font F) (maxW ellipsis : Int) : List (Nat × Memory) → Int → Memory → Memory
  | [], _, last => last
  | (cp, scan) :: rest, width, last =>
    let advance := advanceCp f cp
    if maxW - ellipsis - width < advance then last
    else cutLoop f maxW ellipsis rest (width + advance) scan

/-- The text in a width, `allocates` says whether there is memory for a cut copy. -/
def fontDrawFit (allocates : Bool) (st : FontStore F) (a : Option Nat) (c : Canvas) (x y maxW : Int)
    (text : Option Memory) (col : UInt32) : Option (FontStore F × Canvas) :=
  match a, text with
  | some a, some text =>
    if maxW ≤ 0 then some (st, c)
    else do
      let f := st.font a
      let width ← fontWidth f text
      if width ≤ maxW then drawText st a c x y text col x (x + maxW)
      else
        let ellipsis := advanceCp f 0x2026
        if maxW < ellipsis then some (st, c)
        else
          let visited ← codePoints text
          let len := text.length - (cutLoop f maxW ellipsis visited 0 text).length
          if allocates = false then some (st, c)
          else drawText st a c x y (text.take len ++ ellipsisBytes ++ [0]) col x (x + maxW)
  | _, _ => some (st, c)

end Draw

/-- The code points of a string. -/
def cpsOf (s : CStr) : List Nat := ((codePoints (s ++ [0])).getD []).map Prod.fst

/-- The width of a string under an advance function. -/
def stringWidth (advance : Nat → Int) (s : CStr) : Int := ((cpsOf s).map advance).sum

section Visits

/-- The string begins with complete code points up to its prefix's end. -/
def Boundary (s front : CStr) : Prop :=
  ∃ visited after, s = front ++ after ∧ Visits (s ++ [0]) visited (after ++ [0])

variable {text stop stop' rest rest' : Memory} {visited visited' : List (Nat × Memory)}

theorem nextCp_suffix {c : UInt8} {p : Memory} {next : Nat × Memory}
    (h : nextCp (c :: p) = some next) : ∃ tail, p = tail ++ next.2 := by
  have hloop {n payload minimum : Nat}
      (hnext : nextCp (c :: p) = (continuation n payload p).map (finish minimum)) :
      ∃ tail, p = tail ++ next.2 := by
    rw [hnext] at h
    obtain ⟨⟨value, after⟩, hrun, rfl⟩ := Option.map_eq_some_iff.mp h
    obtain ⟨tail, hp, _⟩ := continuation_taken hrun
    cases value <;> exact ⟨tail, hp⟩
  apply first_cases c
  case ascii =>
    intro hascii
    rw [nextCp_ascii hascii] at h
    cases h
    exact ⟨[], rfl⟩
  case bare =>
    intro hhigh hnone
    rw [nextCp_bare hhigh hnone] at h
    cases h
    exact ⟨[], rfl⟩
  case two => exact fun hlow hhigh => hloop (nextCp_two hlow hhigh)
  case three => exact fun hlow hhigh => hloop (nextCp_three hlow hhigh)
  case four => exact fun hlow hhigh => hloop (nextCp_four hlow hhigh)

theorem Visits.suffix (h : Visits text visited stop) : ∃ front, text = front ++ stop := by
  induction h with
  | nil text => exact ⟨[], rfl⟩
  | @cons c p stop next rest _ hnext _ ih =>
    obtain ⟨tail, hp⟩ := nextCp_suffix hnext
    obtain ⟨front, hfront⟩ := ih
    refine ⟨c :: (tail ++ front), ?_⟩
    rw [hp, hfront, List.cons_append, List.append_assoc]

theorem Visits.append (h : Visits text visited stop) (h' : Visits stop visited' stop') :
    Visits text (visited ++ visited') stop' := by
  induction h with
  | nil => exact h'
  | cons hc hnext _ ih => exact .cons hc hnext (ih h')

theorem Visits.unique (h : Visits text visited stop) (h' : Visits text visited stop') : stop = stop' := by
  induction h with
  | nil =>
    cases h'
    rfl
  | cons _ _ _ ih =>
    cases h' with
    | cons _ _ hrest => exact ih hrest

theorem Visits.split (h : Visits text (visited ++ visited') stop) :
    ∃ middle, Visits text visited middle ∧ Visits middle visited' stop := by
  induction visited generalizing text with
  | nil => exact ⟨text, .nil text, h⟩
  | cons next visited ih =>
    cases h with
    | cons hc hnext hrest =>
      obtain ⟨middle, hfirst, hsecond⟩ := ih hrest
      exact ⟨middle, .cons hc hnext hfirst, hsecond⟩

/-- Two ways from one pointer agree as far as the shorter one goes. -/
theorem Visits.isPrefix (h : Visits text visited stop) (h' : Visits text visited' stop')
    (hend : stop'.head? = some 0) : visited <+: visited' := by
  induction h generalizing visited' with
  | nil => exact List.nil_prefix
  | cons hc hnext _ ih =>
    cases h' with
    | nil =>
      rw [List.head?_cons] at hend
      exact absurd (Option.some.inj hend) hc
    | cons _ hnext' hrest =>
      obtain rfl := Option.some.inj (hnext.symm.trans hnext')
      obtain ⟨more, hmore⟩ := ih hrest
      exact ⟨more, by rw [List.cons_append, hmore]⟩

/-- A byte that continues nothing is followed by one when the rest of a text is replaced. -/
def Stops (rest rest' : Memory) : Prop :=
  ∀ d, rest.head? = some d → isContinuation d = false →
    ∃ d', rest'.head? = some d' ∧ isContinuation d' = false

theorem stops_of_head {d : UInt8} {p : Memory} (hd : isContinuation d = false) (rest : Memory) :
    Stops rest (d :: p) :=
  fun _ _ _ => ⟨d, rfl, hd⟩

theorem Stops.append (h : Stops rest rest') (front : Memory) : Stops (front ++ rest) (front ++ rest') := by
  cases front with
  | nil => exact h
  | cons c front => exact fun d hd hstop => ⟨d, hd, hstop⟩

theorem continuation_local {n cp : Nat} {used : Memory} {value : Option Nat}
    (h : continuation n cp (used ++ rest) = some (value, rest)) (hstops : Stops rest rest') :
    continuation n cp (used ++ rest') = some (value, rest') := by
  induction n generalizing cp used with
  | zero =>
    obtain ⟨hvalue, hrest⟩ := Prod.mk.inj (Option.some.inj h)
    have hused : used = [] := List.append_left_eq_self.mp hrest
    rw [hused, ← hvalue]
    rfl
  | succ n ih =>
    cases used with
    | nil =>
      cases rest with
      | nil => cases h
      | cons c p =>
        cases hc : isContinuation c with
        | true =>
          rw [List.nil_append, continuation_cons hc] at h
          obtain ⟨tail, htail, _⟩ := continuation_taken h
          have hlength := congrArg List.length htail
          rw [List.length_append, List.length_cons] at hlength
          omega
        | false =>
          rw [List.nil_append, continuation_stop hc] at h
          obtain ⟨hvalue, _⟩ := Prod.mk.inj (Option.some.inj h)
          obtain ⟨c', hhead, hc'⟩ := hstops c rfl hc
          obtain ⟨p', rfl⟩ := List.head?_eq_some_iff.mp hhead
          rw [List.nil_append, continuation_stop hc', hvalue]
    | cons c used =>
      cases hc : isContinuation c with
      | true =>
        rw [List.cons_append, continuation_cons hc] at h
        rw [List.cons_append, continuation_cons hc]
        exact ih h
      | false =>
        rw [List.cons_append, continuation_stop hc] at h
        obtain ⟨_, hrest⟩ := Prod.mk.inj (Option.some.inj h)
        have hlength := congrArg List.length hrest
        rw [List.length_cons, List.length_append] at hlength
        omega

/-- A code point is read from its own bytes and the kind of the byte after them. -/
theorem nextCp_local {c : UInt8} {used : Memory} {cp : Nat}
    (h : nextCp (c :: (used ++ rest)) = some (cp, rest)) (hstops : Stops rest rest') :
    nextCp (c :: (used ++ rest')) = some (cp, rest') := by
  have hloop {n payload minimum : Nat}
      (hnext : ∀ p, nextCp (c :: p) = (continuation n payload p).map (finish minimum)) :
      nextCp (c :: (used ++ rest')) = some (cp, rest') := by
    rw [hnext] at h ⊢
    obtain ⟨⟨value, after⟩, hrun, hfinish⟩ := Option.map_eq_some_iff.mp h
    have hafter : after = rest := by
      cases value
      · exact (Prod.mk.inj hfinish).2
      · exact (Prod.mk.inj hfinish).2
    rw [hafter] at hrun hfinish
    rw [continuation_local hrun hstops, Option.map_some]
    cases value
    · rw [← (Prod.mk.inj hfinish).1]
      rfl
    · rw [← (Prod.mk.inj hfinish).1]
      rfl
  have hsingle (cp' : Nat) (hnext : ∀ p, nextCp (c :: p) = some (cp', p)) :
      nextCp (c :: (used ++ rest')) = some (cp, rest') := by
    rw [hnext] at h ⊢
    obtain ⟨hcp, hrest⟩ := Prod.mk.inj (Option.some.inj h)
    rw [List.append_left_eq_self.mp hrest, hcp]
    rfl
  apply first_cases c
  case ascii => exact fun hascii => hsingle _ fun p => nextCp_ascii hascii
  case bare => exact fun hhigh hnone => hsingle _ fun p => nextCp_bare hhigh hnone
  case two => exact fun hlow hhigh => hloop fun p => nextCp_two hlow hhigh
  case three => exact fun hlow hhigh => hloop fun p => nextCp_three hlow hhigh
  case four => exact fun hlow hhigh => hloop fun p => nextCp_four hlow hhigh

/-- Another rest of the text leaves the code points before it as they are. -/
theorem Visits.transport (h : Visits text visited rest) (hstops : Stops rest rest') :
    ∃ front visited', text = front ++ rest ∧ Visits (front ++ rest') visited' rest' ∧
      visited'.map Prod.fst = visited.map Prod.fst := by
  induction h with
  | nil text => exact ⟨[], [], rfl, .nil rest', rfl⟩
  | @cons c p stop next more hc hnext _ ih =>
    obtain ⟨front, visited', hfront, hvisits, hcps⟩ := ih hstops
    obtain ⟨tail, hp⟩ := nextCp_suffix hnext
    obtain ⟨cp, after⟩ := next
    simp only at hfront hp
    rw [hp] at hnext
    rw [hfront] at hnext hp
    have hlocal := nextCp_local hnext (hstops.append front)
    refine ⟨c :: (tail ++ front), (cp, front ++ rest') :: visited', ?_, ?_, ?_⟩
    · rw [hp, List.cons_append, List.append_assoc]
    · rw [List.cons_append, List.append_assoc]
      exact .cons hc hlocal hvisits
    · rw [List.map_cons, List.map_cons, hcps]

/-- The whole of a string is visited, whatever follows its terminator. -/
theorem visits_string {s : CStr} (hs : 0 ∉ s) (beyond : Memory) :
    ∃ visited, codePoints (s ++ 0 :: beyond) = some visited ∧
      Visits (s ++ 0 :: beyond) visited (0 :: beyond) := by
  have hfuel : s.length < (s ++ 0 :: beyond).length := by
    rw [List.length_append, List.length_cons]
    omega
  exact visit_total hs beyond hfuel

theorem Visits.replace {front : Memory} (h : Visits (front ++ rest) visited rest)
    (hstops : Stops rest rest') : ∃ visited', Visits (front ++ rest') visited' rest' ∧
      visited'.map Prod.fst = visited.map Prod.fst := by
  obtain ⟨cut, visited', hcut, hvisits, hcps⟩ := h.transport hstops
  obtain rfl : front = cut := List.append_cancel_right hcut
  exact ⟨visited', hvisits, hcps⟩

/-- The code points met on the way to a place are those of the string cut there. -/
theorem cpsOf_front {front : CStr} (hfront : 0 ∉ front) (h : Visits (front ++ rest) visited rest) :
    cpsOf front = visited.map Prod.fst := by
  obtain ⟨visited', hvisits', hcps⟩ := h.replace (stops_of_head (d := 0) (p := []) rfl rest)
  obtain ⟨whole, hwhole, hvisits⟩ := visits_string hfront []
  have hsame : whole = visited' :=
    (hvisits.isPrefix hvisits' rfl).eq_of_length_le (hvisits'.isPrefix hvisits rfl).length_le
  rw [cpsOf, hwhole, ← hcps, hsame]
  rfl

theorem visits_ellipsis : Visits (ellipsisBytes ++ [0]) [(0x2026, [0])] [0] := by
  refine .cons ?_ ?_ (.nil [0])
  · decide
  · rfl

/-- The ellipsis ends a sequence it stands behind, so the cut text is read as it was. -/
theorem cpsOf_ellipsis {front : CStr} (hfront : 0 ∉ front) (h : Visits (front ++ rest) visited rest) :
    cpsOf (front ++ ellipsisBytes) = cpsOf front ++ [0x2026] := by
  have hall : 0 ∉ front ++ ellipsisBytes := by
    rw [List.mem_append, not_or]
    exact ⟨hfront, by decide⟩
  have hstops : Stops rest (ellipsisBytes ++ [0]) := stops_of_head rfl rest
  obtain ⟨visited', hvisits, hcps⟩ := h.replace hstops
  have hread := hvisits.append visits_ellipsis
  rw [← List.append_assoc] at hread
  rw [cpsOf_front hall hread, cpsOf_front hfront h, List.map_append, hcps]
  rfl

theorem Boundary.visits {s front : CStr} (h : Boundary s front) (beyond : Memory) :
    ∃ visited after, s = front ++ after ∧
      Visits (front ++ (after ++ 0 :: beyond)) visited (after ++ 0 :: beyond) := by
  obtain ⟨visited, after, rfl, hvisits⟩ := h
  rw [List.append_assoc] at hvisits
  have hstops : Stops (after ++ [0]) (after ++ 0 :: beyond) := (stops_of_head rfl [0]).append after
  obtain ⟨visited', hvisits', _⟩ := hvisits.replace hstops
  exact ⟨visited', after, rfl, hvisits'⟩

theorem boundary_of_visits {front after : CStr} {beyond : Memory}
    (h : Visits (front ++ (after ++ 0 :: beyond)) visited (after ++ 0 :: beyond)) :
    Boundary (front ++ after) front := by
  have hstops : Stops (after ++ 0 :: beyond) (after ++ [0]) := (stops_of_head rfl _).append after
  obtain ⟨visited', hvisits', _⟩ := h.replace hstops
  rw [← List.append_assoc] at hvisits'
  exact ⟨visited', after, rfl, hvisits'⟩

end Visits

/-- The advances of the code points visited. -/
def visitedWidth (advance : Nat → Int) (visited : List (Nat × Memory)) : Int :=
  ((visited.map Prod.fst).map advance).sum

theorem visitedWidth_cons (advance : Nat → Int) (next : Nat × Memory) (visited : List (Nat × Memory)) :
    visitedWidth advance (next :: visited) = advance next.1 + visitedWidth advance visited := rfl

theorem visitedWidth_append (advance : Nat → Int) (visited visited' : List (Nat × Memory)) :
    visitedWidth advance (visited ++ visited') =
      visitedWidth advance visited + visitedWidth advance visited' := by
  unfold visitedWidth
  rw [List.map_append, List.map_append, List.sum_append]

theorem visitedWidth_nonneg {advance : Nat → Int} (h : ∀ cp, 0 ≤ advance cp)
    (visited : List (Nat × Memory)) : 0 ≤ visitedWidth advance visited := by
  induction visited with
  | nil => exact le_rfl
  | cons next visited ih =>
    have hfirst := h next.1
    rw [visitedWidth_cons]
    omega

section Width
variable {F : Type} [CFloat F] {f : Font F} {maxW ellipsis : Int}

/-- The advances of a font's code points. -/
def advances (f : Font F) (cp : Nat) : Int := advanceCp f cp

theorem widthLoop_eq (hadvance : ∀ cp, 0 ≤ advances f cp) {visited : List (Nat × Memory)} {width : Int}
    (hsum : width + visitedWidth (advances f) visited ≤ intMax) :
    widthLoop f visited width = width + visitedWidth (advances f) visited := by
  induction visited generalizing width with
  | nil => exact (Int.add_zero width).symm
  | cons next visited ih =>
    have hrest := visitedWidth_nonneg hadvance visited
    rw [visitedWidth_cons] at hsum ⊢
    have hfirst : ¬ intMax - width < advanceCp f next.1 := by
      unfold advances at *
      omega
    rw [widthLoop]
    simp only [if_neg hfirst]
    rw [ih (by unfold advances at *; omega)]
    unfold advances
    omega

/-- The loop stops before the first code point that leaves no room for the ellipsis. -/
theorem cutLoop_spec {text stop : Memory} {visited : List (Nat × Memory)} (h : Visits text visited stop)
    {width : Int} (hfit : width ≤ maxW - ellipsis) :
    ∃ front back, visited = front ++ back ∧
      Visits text front (cutLoop f maxW ellipsis visited width text) ∧
      width + visitedWidth (advances f) front ≤ maxW - ellipsis ∧
      ∀ next, back.head? = some next →
        maxW - ellipsis < width + visitedWidth (advances f) front + advances f next.1 := by
  induction h generalizing width with
  | nil text => exact ⟨[], [], rfl, .nil text, by rw [visitedWidth]; simpa using hfit, fun _ hnone => nomatch hnone⟩
  | @cons c p stop next visited hc hnext hrest ih =>
    rw [cutLoop]
    by_cases hwide : maxW - ellipsis - width < advanceCp f next.1
    · refine ⟨[], next :: visited, rfl, ?_, by rw [visitedWidth]; simpa using hfit, ?_⟩
      · simp only [if_pos hwide]
        exact .nil _
      · intro first hfirst
        obtain rfl := Option.some.inj hfirst
        have hzero : visitedWidth (advances f) [] = 0 := rfl
        unfold advances at *
        omega
    · obtain ⟨front, back, hsplit, hvisits, hroom, hback⟩ := @ih (width + advanceCp f next.1) (by omega)
      refine ⟨next :: front, back, by rw [hsplit]; rfl, ?_, ?_, fun first hfirst => ?_⟩
      · simp only [if_neg hwide]
        exact .cons hc hnext hvisits
      · rw [visitedWidth_cons]
        unfold advances at *
        omega
      · have hlast := hback first hfirst
        rw [visitedWidth_cons]
        unfold advances at *
        omega

/-- Every other place with room for the ellipsis comes before the one the loop finds. -/
theorem cutLoop_longest (hadvance : ∀ cp, 0 ≤ advances f cp) (hfit : ellipsis ≤ maxW)
    {text stop : Memory} {visited : List (Nat × Memory)} (h : Visits text visited stop)
    (hend : stop.head? = some 0) :
    ∃ front, Visits text front (cutLoop f maxW ellipsis visited 0 text) ∧
      visitedWidth (advances f) front + ellipsis ≤ maxW ∧
      ∀ front' stop', Visits text front' stop' → visitedWidth (advances f) front' + ellipsis ≤ maxW →
        front' <+: front := by
  have hstart : 0 ≤ maxW - ellipsis := by omega
  obtain ⟨front, back, rfl, hvisits, hroom, hback⟩ := cutLoop_spec (f := f) h hstart
  refine ⟨front, hvisits, by omega, fun front' stop' hvisits' hroom' => ?_⟩
  have hwhole : front' <+: front ++ back := hvisits'.isPrefix h hend
  rcases List.prefix_or_prefix_of_prefix hwhole (List.prefix_append front back) with hle | hge
  · exact hle
  · obtain ⟨more, rfl⟩ := hge
    cases more with
    | nil => rw [List.append_nil]
    | cons next more =>
      obtain ⟨tail, htail⟩ := (List.prefix_append_right_inj front).mp hwhole
      have hnext := hback next (by rw [← htail]; rfl)
      have hrest := visitedWidth_nonneg hadvance more
      rw [visitedWidth_append, visitedWidth_cons] at hroom'
      omega

end Width

/-- What a text is drawn as in a width: itself, nothing where the ellipsis is too wide, or the
longest part that leaves room for the ellipsis behind it. -/
inductive Fitted (advance : Nat → Int) (maxW : Int) (s : CStr) : Option CStr → Prop
  | whole : stringWidth advance s ≤ maxW → Fitted advance maxW s (some s)
  | nothing : maxW < stringWidth advance s → maxW < advance 0x2026 → Fitted advance maxW s none
  | cut {front : CStr} : maxW < stringWidth advance s → advance 0x2026 ≤ maxW → Boundary s front →
      stringWidth advance front + advance 0x2026 ≤ maxW →
      (∀ front', Boundary s front' → stringWidth advance front' + advance 0x2026 ≤ maxW →
        front'.length ≤ front.length) →
      Fitted advance maxW s (some (front ++ ellipsisBytes))

section Columns
variable {F : Type} {z : CanvasSize}

/-- The pixels in a range of columns. -/
def columns (left right : Int) : Set (Int × Int) := {p | left ≤ p.1 ∧ p.1 < right}

theorem paints_drawMask (g : Glyph) (x y : Int) (col : UInt32) (left right : Int) :
    Paints z (columns left right) fun c => drawMask c g x y col left right := by
  refine Paints.foldl fun p _ => ?_
  by_cases hrow : y + g.yoff + p.2 < 0 ∨ z.h ≤ y + g.yoff + p.2
  · exact Paints.congr (fun px => if_pos hrow) Paints.id
  by_cases hcolumn : x + g.xoff + p.1 < 0 ∨ z.w ≤ x + g.xoff + p.1 ∨ x + g.xoff + p.1 < left ∨
      right ≤ x + g.xoff + p.1
  · exact Paints.congr (fun px => (if_neg hrow).trans (if_pos hcolumn)) Paints.id
  · have hin : (x + g.xoff + p.1, y + g.yoff + p.2) ∈ columns left right := by
      constructor
      · change left ≤ x + g.xoff + p.1
        omega
      · change x + g.xoff + p.1 < right
        omega
    exact Paints.congr (fun px => (if_neg hrow).trans (if_neg hcolumn)) (paints_blend hin)

theorem paints_drawCp (f : Font F) (found : Option Glyph) (cp pen y : Int) (col : UInt32)
    (left right : Int) :
    Paints z (columns left right) fun c => drawCp c f found cp pen y col left right := by
  cases found with
  | none => exact Paints.id
  | some g => exact paints_drawMask g _ y col left right

variable [CFloat F]

/-- Whatever the cache holds, a text is painted between its bounds. -/
theorem paints_drawLoop (st : FontStore F) (a : Nat) (pen y : Int) (col : UInt32) (left right : Int)
    (visited : List (Nat × Memory)) :
    Paints z (columns left right) fun c => (drawLoop st a c pen y col left right visited).2 := by
  induction visited generalizing st pen with
  | nil => exact Paints.id
  | cons next visited ih => exact (paints_drawCp _ _ _ pen y col left right).comp (ih _ _)

/-- The pictures of two readings of the same code points. -/
theorem drawLoop_congr (st : FontStore F) (a : Nat) (c : Canvas) (pen y : Int) (col : UInt32)
    (left right : Int) {visited visited' : List (Nat × Memory)}
    (h : visited.map Prod.fst = visited'.map Prod.fst) :
    drawLoop st a c pen y col left right visited = drawLoop st a c pen y col left right visited' := by
  induction visited generalizing st c pen visited' with
  | nil =>
    rw [List.map_eq_nil_iff.mp h.symm]
  | cons next visited ih =>
    cases visited' with
    | nil => cases h
    | cons next' visited' =>
      obtain ⟨hfirst, hrest⟩ := List.cons.inj h
      obtain ⟨cp, p⟩ := next
      obtain ⟨cp', p'⟩ := next'
      obtain rfl : cp = cp' := hfirst
      rw [drawLoop, drawLoop]
      exact ih _ _ _ hrest

theorem drawText_string (st : FontStore F) (a : Nat) (c : Canvas) (x y : Int) {s : CStr} (hs : 0 ∉ s)
    (beyond : Memory) (col : UInt32) (left right : Int) :
    drawText st a c x y (s ++ 0 :: beyond) col left right =
      drawText st a c x y (s ++ [0]) col left right := by
  obtain ⟨visited, hvisited, hvisits⟩ := visits_string hs beyond
  obtain ⟨visited', hvisited', hvisits'⟩ := visits_string hs []
  rw [drawText, drawText, hvisited, hvisited', Option.map_some, Option.map_some]
  refine congrArg some (drawLoop_congr _ _ _ _ _ _ _ _ ?_)
  rw [← cpsOf_front hs hvisits, ← cpsOf_front hs hvisits']

end Columns

section Fit
variable {F : Type} [CFloat F] {f : Font F} {s : CStr}

theorem stringWidth_visited {rest : Memory} {visited : List (Nat × Memory)} (hs : 0 ∉ s)
    (h : Visits (s ++ rest) visited rest) (advance : Nat → Int) :
    stringWidth advance s = visitedWidth advance visited := by
  rw [stringWidth, visitedWidth, cpsOf_front hs h]

theorem fontWidth_string (hadvance : ∀ cp, 0 ≤ advances f cp)
    (hsum : stringWidth (advances f) s ≤ intMax) {beyond : Memory} {visited : List (Nat × Memory)}
    (hs : 0 ∉ s) (hvisited : codePoints (s ++ 0 :: beyond) = some visited)
    (hvisits : Visits (s ++ 0 :: beyond) visited (0 :: beyond)) :
    fontWidth f (s ++ 0 :: beyond) = some (stringWidth (advances f) s) := by
  rw [stringWidth_visited hs hvisits] at hsum ⊢
  rw [fontWidth, hvisited, Option.map_some, widthLoop_eq hadvance (by omega), Int.zero_add]

theorem Boundary.mem {front : CStr} (h : Boundary s front) (hs : 0 ∉ s) : 0 ∉ front := by
  obtain ⟨_, after, rfl, _⟩ := h
  exact fun hmem => hs (List.mem_append_left after hmem)

/-- The cut text is as wide as its parts. -/
theorem stringWidth_ellipsis {front : CStr} (h : Boundary s front) (hs : 0 ∉ s) (advance : Nat → Int) :
    stringWidth advance (front ++ ellipsisBytes) = stringWidth advance front + advance 0x2026 := by
  obtain ⟨_, _, _, hvisits⟩ := h.visits []
  rw [stringWidth, cpsOf_ellipsis (h.mem hs) hvisits, List.map_append, List.sum_append]
  rw [List.map_singleton, List.sum_singleton]
  rfl

/-- A part of a string that is met on the way to another is no longer. -/
theorem length_le_of_prefix {front front' after after' : CStr} {beyond : Memory}
    {visited visited' : List (Nat × Memory)} (hsplit : front ++ after = front' ++ after')
    (h : Visits (front ++ (after ++ 0 :: beyond)) visited (after ++ 0 :: beyond))
    (h' : Visits (front' ++ (after' ++ 0 :: beyond)) visited' (after' ++ 0 :: beyond))
    (hle : visited' <+: visited) : front'.length ≤ front.length := by
  rw [← List.append_assoc, ← hsplit, List.append_assoc] at h'
  obtain ⟨later, rfl⟩ := hle
  obtain ⟨place, hplace, hlater⟩ := h.split
  obtain rfl := h'.unique hplace
  obtain ⟨between, hbetween⟩ := hlater.suffix
  have hlength := congrArg List.length hbetween
  have htotal := congrArg List.length hsplit
  simp only [List.length_append] at hlength htotal
  omega

/-- The loop cuts a string at the last boundary that leaves room for the ellipsis. -/
theorem cutLoop_string {maxW : Int} (hs : 0 ∉ s) {beyond : Memory} {visited : List (Nat × Memory)}
    (hadvance : ∀ cp, 0 ≤ advances f cp) (hroom : advances f 0x2026 ≤ maxW)
    (hvisits : Visits (s ++ 0 :: beyond) visited (0 :: beyond)) :
    ∃ front after, s = front ++ after ∧
      cutLoop f maxW (advances f 0x2026) visited 0 (s ++ 0 :: beyond) = after ++ 0 :: beyond ∧
      Boundary s front ∧ stringWidth (advances f) front + advances f 0x2026 ≤ maxW ∧
      ∀ front', Boundary s front' → stringWidth (advances f) front' + advances f 0x2026 ≤ maxW →
        front'.length ≤ front.length := by
  obtain ⟨cut, hcut, hfits, hlongest⟩ := cutLoop_longest hadvance hroom hvisits rfl
  generalize cutLoop f maxW (advances f 0x2026) visited 0 (s ++ 0 :: beyond) = last at hcut ⊢
  -- the place found is inside the string, since the way goes on to the terminator
  obtain ⟨back, rfl⟩ := hcut.isPrefix hvisits rfl
  obtain ⟨middle, hfirst, hrest⟩ := hvisits.split
  obtain rfl := hcut.unique hfirst
  obtain ⟨after, rfl⟩ := hrest.suffix
  obtain ⟨front, hfront⟩ := hcut.suffix
  rw [← List.append_assoc] at hfront
  obtain rfl : s = front ++ after := List.append_cancel_right hfront
  rw [List.append_assoc] at hcut
  have hboundary : Boundary (front ++ after) front := boundary_of_visits hcut
  refine ⟨front, after, rfl, rfl, hboundary, ?_, fun front' hother hroom' => ?_⟩
  · rw [stringWidth_visited (hboundary.mem hs) hcut]
    exact hfits
  · obtain ⟨visited', after', hsplit, hvisits'⟩ := hother.visits beyond
    rw [stringWidth_visited (hother.mem hs) hvisits'] at hroom'
    refine length_le_of_prefix hsplit hcut hvisits' (hlongest visited' (after' ++ 0 :: beyond) ?_ hroom')
    rw [hsplit, List.append_assoc]
    exact hvisits'

variable (st : FontStore F) (a : Nat) (c : Canvas) (x y : Int) (col : UInt32)

theorem drawText_outside {t : CStr} (ht : 0 ∉ t) (left right : Int) :
    ∃ st' c', drawText st a c x y (t ++ [0]) col left right = some (st', c') ∧
      c'.toCanvasSize = c.toCanvasSize ∧ ∀ p, p.1 < left ∨ right ≤ p.1 → c'.px p = c.px p := by
  obtain ⟨visited, hvisited, _⟩ := visits_string ht []
  have hpaints := paints_drawLoop (z := c.toCanvasSize) st a x y col left right visited
  refine ⟨(drawLoop st a c x y col left right visited).1, (drawLoop st a c x y col left right visited).2,
    ?_, hpaints.size c.px, fun p hp => hpaints.outside (c := c) rfl fun hin => ?_⟩
  · rw [drawText, hvisited]
    rfl
  · have hleft : left ≤ p.1 := hin.1
    have hright : p.1 < right := hin.2
    omega

theorem fontDrawFit_eq {maxW width : Int} (hmax : 0 < maxW) {text : Memory}
    {visited : List (Nat × Memory)} (hwidth : fontWidth (st.font a) text = some width)
    (hvisited : codePoints text = some visited) (allocates : Bool) :
    fontDrawFit allocates st (some a) c x y maxW (some text) col =
      if width ≤ maxW then drawText st a c x y text col x (x + maxW)
      else if maxW < advanceCp (st.font a) 0x2026 then some (st, c)
      else if allocates = false then some (st, c)
      else drawText st a c x y (text.take (text.length -
        (cutLoop (st.font a) maxW (advanceCp (st.font a) 0x2026) visited 0 text).length) ++
          ellipsisBytes ++ [0]) col x (x + maxW) := by
  unfold fontDrawFit
  simp only [if_neg (Int.not_le.mpr hmax), hwidth, hvisited, Option.bind_eq_bind, Option.bind_some]

/-- The text of `font_draw_fit` in its width. With memory for the cut copy what is drawn is the fitted
text, whose width as the code reads it stays in the limit, and no pixel outside the given columns
changes; without it a text that would have to be cut is not drawn at all. -/
theorem font_draw_fit_draws {maxW : Int} (hmax : 0 < maxW) (hs : 0 ∉ s) (beyond : Memory)
    (hadvance : ∀ cp, 0 ≤ advances (st.font a) cp)
    (hsum : stringWidth (advances (st.font a)) s ≤ intMax) :
    ∃ drawn, Fitted (advances (st.font a)) maxW s drawn ∧
      (drawn = none →
        fontDrawFit true st (some a) c x y maxW (some (s ++ 0 :: beyond)) col = some (st, c)) ∧
      (∀ t, drawn = some t → stringWidth (advances (st.font a)) t ≤ maxW ∧
        fontDrawFit true st (some a) c x y maxW (some (s ++ 0 :: beyond)) col =
          drawText st a c x y (t ++ [0]) col x (x + maxW)) ∧
      (fontDrawFit false st (some a) c x y maxW (some (s ++ 0 :: beyond)) col =
        if stringWidth (advances (st.font a)) s ≤ maxW then
          fontDrawFit true st (some a) c x y maxW (some (s ++ 0 :: beyond)) col
        else some (st, c)) ∧
      ∃ st' c', fontDrawFit true st (some a) c x y maxW (some (s ++ 0 :: beyond)) col = some (st', c') ∧
        c'.toCanvasSize = c.toCanvasSize ∧ ∀ p, p.1 < x ∨ x + maxW ≤ p.1 → c'.px p = c.px p := by
  obtain ⟨visited, hvisited, hvisits⟩ := visits_string hs beyond
  have hwidth := fontWidth_string hadvance hsum hs hvisited hvisits
  rw [fontDrawFit_eq st a c x y col hmax hwidth hvisited true,
    fontDrawFit_eq st a c x y col hmax hwidth hvisited false]
  have hellipsis : advanceCp (st.font a) 0x2026 = advances (st.font a) 0x2026 := rfl
  by_cases hwhole : stringWidth (advances (st.font a)) s ≤ maxW
  · rw [if_pos hwhole, if_pos hwhole, drawText_string st a c x y hs]
    refine ⟨some s, .whole hwhole, fun h => absurd h (Option.some_ne_none s), fun t ht => ?_,
      (if_pos hwhole).symm, drawText_outside st a c x y col hs _ _⟩
    cases ht
    exact ⟨hwhole, rfl⟩
  rw [if_neg hwhole, if_neg hwhole, if_neg hwhole]
  by_cases hroom : maxW < advanceCp (st.font a) 0x2026
  · rw [if_pos hroom, if_pos hroom]
    exact ⟨none, .nothing (Int.not_le.mp hwhole) hroom, fun _ => rfl,
      fun t ht => absurd ht.symm (Option.some_ne_none t), rfl, st, c, rfl, rfl, fun _ _ => rfl⟩
  rw [if_neg hroom, if_neg hroom, if_pos rfl, if_neg Bool.noConfusion]
  obtain ⟨front, after, hsplit, hcut, hboundary, hnarrow, hlongest⟩ :=
    cutLoop_string hs hadvance (Int.not_lt.mp hroom) hvisits
  have htake : (s ++ 0 :: beyond).take ((s ++ 0 :: beyond).length - (after ++ 0 :: beyond).length) =
      front := by
    rw [hsplit, List.append_assoc, List.length_append, Nat.add_sub_cancel, List.take_left']
    rfl
  have hdrawn : 0 ∉ front ++ ellipsisBytes := by
    rw [List.mem_append, not_or]
    exact ⟨hboundary.mem hs, by decide⟩
  rw [hellipsis, hcut, htake]
  refine ⟨some (front ++ ellipsisBytes),
    .cut (Int.not_le.mp hwhole) (Int.not_lt.mp hroom) hboundary hnarrow hlongest,
    fun h => absurd h (Option.some_ne_none _), fun t ht => ?_, rfl,
    drawText_outside st a c x y col hdrawn _ _⟩
  cases ht
  exact ⟨(stringWidth_ellipsis hboundary hs _).trans_le hnarrow, rfl⟩

end Fit

def dotFont : Font ℚ := { face := dotFace, scale := 1, digitAdvance := 2, slots := fun _ => .zero }

def dotStore : FontStore ℚ := { fonts := [4096], font := fun _ => dotFont, cacheTotal := 0 }

/-- An empty canvas. -/
def dotCanvas : Canvas :=
  { w := 16, h := 4, clipX := 0, clipY := 0, clipW := 0, clipH := 0, px := fun _ => 0 }

/-- Three letters of two pixels each, in four columns, leave the fifth column alone. -/
theorem dot_text_fits : ∃ st' c', fontDrawFit true dotStore (some 4096) dotCanvas 0 2 4
    (some ([97, 98, 99] ++ 0 :: [])) 0xFFFFFFFF = some (st', c') ∧ c'.px (4, 1) = dotCanvas.px (4, 1) := by
  have hadvance (cp : Nat) : advances dotFont cp = 2 := by
    unfold advances advanceCp
    split
    · rfl
    · change (lround (mul (ofInt 2) (1 : ℚ))) = 2
      decide +kernel
  obtain ⟨_, _, _, _, _, st', c', hdraw, _, houtside⟩ := font_draw_fit_draws dotStore 4096 dotCanvas 0 2
    0xFFFFFFFF (by decide : (0 : Int) < 4) (by decide : 0 ∉ ([97, 98, 99] : CStr)) []
    (fun cp => (hadvance cp).symm ▸ by decide) (by decide +kernel)
  exact ⟨st', c', hdraw, houtside (4, 1) (.inr (by decide))⟩

end Taq102.Text
