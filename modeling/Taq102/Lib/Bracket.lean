import Mathlib.Data.List.Basic

/-! Streams of opening, inner and closing marks, and the marks one key contributes to a
stream of keyed events. A scan carries whether a bracket is open. -/
namespace Taq102.Lib.Bracket

inductive Mark where
  | opening
  | inner
  | closing
  deriving DecidableEq, Repr

/-- One mark read from a closed (`false`) or open (`true`) bracket; `none` out of place. -/
def advance : Bool → Mark → Option Bool
  | false, .opening => some true
  | true, .inner => some true
  | true, .closing => some false
  | _, _ => none

def scan (isOpen : Bool) (marks : List Mark) : Option Bool := marks.foldlM advance isOpen

/-- Every bracket is opened once, then closed once; the last one may still be open. -/
def Nested (marks : List Mark) : Prop := ∃ isOpen, scan false marks = some isOpen

instance (marks : List Mark) : Decidable (Nested marks) :=
  inferInstanceAs (Decidable (∃ isOpen, scan false marks = some isOpen))

@[simp] theorem scan_nil (b : Bool) : scan b [] = some b := rfl

@[simp] theorem scan_cons (b : Bool) (m : Mark) (ms : List Mark) :
    scan b (m :: ms) = (advance b m).bind (fun c => scan c ms) := by
  simp [scan]

theorem scan_append (b : Bool) (ms ns : List Mark) :
    scan b (ms ++ ns) = (scan b ms).bind (fun c => scan c ns) := by
  simp [scan, List.foldlM_append]

theorem scan_concat {b c d : Bool} {ms ns : List Mark} (h : scan b ms = some c)
    (h' : scan c ns = some d) : scan b (ms ++ ns) = some d := by
  rw [scan_append, h]; exact h'

/-- The flag that follows the marks without checking their order. -/
def follow : Bool → Mark → Bool
  | _, .opening => true
  | b, .inner => b
  | _, .closing => false

theorem follow_of_scan {b c : Bool} {ms : List Mark} (h : scan b ms = some c) :
    ms.foldl follow b = c := by
  induction ms generalizing b with
  | nil => exact Option.some.inj h
  | cons m rest ih =>
    rw [scan_cons] at h
    obtain ⟨d, hd, hr⟩ := Option.bind_eq_some_iff.mp h
    have hf : follow b m = d := by cases b <;> cases m <;> simp_all [advance, follow]
    simpa [hf] using ih hr

theorem follow_closings {ms : List Mark} (h : ∀ m ∈ ms, m = .closing) :
    ms.foldl follow false = false := by
  induction ms with
  | nil => rfl
  | cons m rest ih =>
    obtain rfl := h m (by simp)
    exact ih fun n hn => h n (by simp [hn])

/-- A scanned stream is open exactly when its last mark opens or stays inside a bracket. -/
theorem scan_open_iff_last {ms : List Mark} {b : Bool} (h : scan false ms = some b) :
    b = true ↔ ∃ m, ms.getLast? = some m ∧ m ≠ .closing := by
  rcases List.eq_nil_or_concat ms with rfl | ⟨front, m, rfl⟩
  · simp_all
  · rw [List.concat_eq_append] at h ⊢
    rw [scan_append] at h
    obtain ⟨c, _, hc⟩ := Option.bind_eq_some_iff.mp h
    cases c <;> cases m <;> simp_all [advance]

section Keyed
variable {ε κ : Type*} [DecidableEq κ] (key : ε → κ) (mark : ε → Mark)

/-- The marks of the events that carry one key, in order. -/
def marksOf (k : κ) (events : List ε) : List Mark :=
  (events.filter (fun e => key e = k)).map mark

@[simp] theorem marksOf_nil (k : κ) : marksOf key mark k [] = [] := rfl

theorem marksOf_append (k : κ) (es fs : List ε) :
    marksOf key mark k (es ++ fs) = marksOf key mark k es ++ marksOf key mark k fs := by
  simp [marksOf]

theorem marksOf_singleton (k : κ) (e : ε) :
    marksOf key mark k [e] = if key e = k then [mark e] else [] := by
  by_cases h : key e = k <;> simp [marksOf, h]

theorem marksOf_cons (k : κ) (e : ε) (es : List ε) :
    marksOf key mark k (e :: es) = marksOf key mark k [e] ++ marksOf key mark k es :=
  marksOf_append key mark k [e] es

theorem getLast?_marksOf (k : κ) (events : List ε) :
    (marksOf key mark k events).getLast? = (events.filter (fun e => key e = k)).getLast?.map mark :=
  List.getLast?_map

/-- Dropping another key's events leaves a key's marks; dropping its own leaves none. -/
theorem marksOf_filter_ne (k l : κ) (events : List ε) :
    marksOf key mark k (events.filter (fun e => key e ≠ l)) =
      if k = l then [] else marksOf key mark k events := by
  unfold marksOf
  rw [List.filter_filter]
  split
  · rename_i h
    subst h
    simp
  · rename_i h
    congr 2
    funext e
    by_cases he : key e = k <;> simp [he, h]

/-- Rewriting an event without changing its key or mark leaves every key's marks. -/
theorem marksOf_set {events : List ε} {n : Nat} {e : ε} (h : events[n]? = some e) (e' : ε)
    (hkey : key e' = key e) (hmark : mark e' = mark e) (k : κ) :
    marksOf key mark k (events.set n e') = marksOf key mark k events := by
  induction events generalizing n with
  | nil => simp at h
  | cons a rest ih =>
    cases n with
    | zero =>
      obtain rfl : a = e := by simpa using h
      rw [List.set_cons_zero, marksOf_cons, marksOf_cons key mark k a, marksOf_singleton,
        marksOf_singleton, hkey, hmark]
    | succ n =>
      rw [List.set_cons_succ, marksOf_cons, ih (by simpa using h), ← marksOf_cons]

theorem marksOf_flatMap_eq_nil {α : Type*} {l : List α} {f : α → List ε} {k : κ}
    (h : ∀ b ∈ l, marksOf key mark k (f b) = []) : marksOf key mark k (l.flatMap f) = [] := by
  induction l with
  | nil => rfl
  | cons b rest ih =>
    rw [List.flatMap_cons, marksOf_append, h b (by simp), List.nil_append]
    exact ih fun c hc => h c (by simp [hc])

/-- Of the outputs of distinct indices, a key sees the one index that writes it. -/
theorem marksOf_flatMap {α : Type*} {l : List α} {f : α → List ε} {k : κ} {a : α} (hl : l.Nodup)
    (ha : a ∈ l) (hne : ∀ b, b ≠ a → marksOf key mark k (f b) = []) :
    marksOf key mark k (l.flatMap f) = marksOf key mark k (f a) := by
  induction l with
  | nil => simp at ha
  | cons b rest ih =>
    obtain ⟨hb, hrest⟩ := List.nodup_cons.mp hl
    rw [List.flatMap_cons, marksOf_append]
    rcases List.mem_cons.mp ha with rfl | har
    · rw [marksOf_flatMap_eq_nil key mark fun c hc => hne c (ne_of_mem_of_not_mem hc hb),
        List.append_nil]
    · rw [hne b (ne_of_mem_of_not_mem har hb).symm, List.nil_append]
      exact ih hrest har

end Keyed
end Taq102.Lib.Bracket
