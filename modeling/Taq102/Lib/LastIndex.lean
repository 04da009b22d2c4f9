import Mathlib.Data.List.Basic
import Mathlib.Data.List.Induction

/-! The last entry of a log under each key, by its index. What an append, a rewrite in place and the
removal of a key do to the index. -/
namespace Taq102.Lib.LastIndex
variable {ε κ : Type*} [DecidableEq κ] (key : ε → κ)

/-- The index of the last entry with the key. -/
def lastIndex (k : κ) (log : List ε) : Option Nat :=
  log.zipIdx.foldl (fun last entry => if key entry.1 = k then some entry.2 else last) none

@[simp] theorem lastIndex_nil (k : κ) : lastIndex key k [] = none := rfl

theorem lastIndex_append (k : κ) (log : List ε) (e : ε) :
    lastIndex key k (log ++ [e]) = if key e = k then some log.length else lastIndex key k log := by
  rw [lastIndex, List.zipIdx_append, List.foldl_append, List.zipIdx_singleton, Nat.zero_add]
  rfl

/-- Only the keys count. -/
theorem lastIndex_map (k : κ) (log : List ε) : lastIndex id k (log.map key) = lastIndex key k log := by
  rw [lastIndex, List.zipIdx_map, List.foldl_map]
  rfl

variable {key} {k : κ} {log : List ε}

theorem lastIndex_eq_some {n : Nat} (h : lastIndex key k log = some n) :
    ∃ e, log[n]? = some e ∧ key e = k ∧ ∀ m e', n < m → log[m]? = some e' → key e' ≠ k := by
  induction log using List.reverseRecOn with
  | nil => cases h
  | append_singleton log a ih =>
    rw [lastIndex_append] at h
    split_ifs at h with ha
    · obtain rfl : log.length = n := Option.some.inj h
      refine ⟨a, List.getElem?_concat_length, ha, fun m e' hm he' => ?_⟩
      have hlt := (List.getElem?_eq_some_iff.mp he').1
      rw [List.length_append, List.length_singleton] at hlt
      omega
    · obtain ⟨e, he, hkey, hlater⟩ := ih h
      have hn : n < log.length := (List.getElem?_eq_some_iff.mp he).1
      refine ⟨e, by rw [List.getElem?_append_left hn, he], hkey, fun m e' hm he' => ?_⟩
      by_cases hlast : m < log.length
      · rw [List.getElem?_append_left hlast] at he'
        exact hlater m e' hm he'
      · have hlt := (List.getElem?_eq_some_iff.mp he').1
        rw [List.length_append, List.length_singleton] at hlt
        obtain rfl : m = log.length := by omega
        rw [List.getElem?_concat_length] at he'
        rwa [← Option.some.inj he']

theorem lastIndex_eq_none (h : ∀ e ∈ log, key e ≠ k) : lastIndex key k log = none := by
  cases hlast : lastIndex key k log with
  | none => rfl
  | some n =>
    obtain ⟨e, he, hkey, _⟩ := lastIndex_eq_some hlast
    exact absurd hkey (h e (List.mem_of_getElem? he))

/-- Rewriting an entry under its key moves no index. -/
theorem lastIndex_set {n : Nat} {e : ε} (h : log[n]? = some e) (e' : ε) (hkey : key e' = key e) (k : κ) :
    lastIndex key k (log.set n e') = lastIndex key k log := by
  have hkeys : (log.set n e').map key = log.map key := by
    refine List.ext_getElem? fun m => ?_
    rw [List.getElem?_map, List.getElem?_map]
    by_cases hm : n = m
    · rw [← hm, List.getElem?_set_self (List.getElem?_eq_some_iff.mp h).1, h, Option.map_some, hkey,
        Option.map_some]
    · rw [List.getElem?_set_ne hm]
  rw [← lastIndex_map, hkeys, lastIndex_map]

variable {ν : Type*} (key) (value : ε → ν)

/-- The values logged under a key, in order. -/
def valuesOf (k : κ) (log : List ε) : List ν := (log.filter fun e => key e = k).map value

@[simp] theorem valuesOf_nil (k : κ) : valuesOf key value k [] = [] := rfl

theorem valuesOf_append (k : κ) (log : List ε) (e : ε) :
    valuesOf key value k (log ++ [e]) = valuesOf key value k log ++ if key e = k then [value e] else [] := by
  by_cases h : key e = k <;> simp [valuesOf, h]

/-- Removing a key's entries leaves the values of the others. -/
theorem valuesOf_filter_ne (k l : κ) (log : List ε) :
    valuesOf key value k (log.filter fun e => key e ≠ l) = if k = l then [] else valuesOf key value k log := by
  unfold valuesOf
  rw [List.filter_filter]
  by_cases hk : k = l
  · rw [if_pos hk, List.map_eq_nil_iff, List.filter_eq_nil_iff]
    intro e _
    simp [hk]
  · rw [if_neg hk]
    congr 2
    funext e
    by_cases he : key e = k <;> simp [he, hk]

variable {key value}

/-- Rewriting an entry under its key and value leaves every key's values. -/
theorem valuesOf_set {n : Nat} {e : ε} (h : log[n]? = some e) (e' : ε) (hkey : key e' = key e)
    (hvalue : value e' = value e) (k : κ) :
    valuesOf key value k (log.set n e') = valuesOf key value k log := by
  induction log generalizing n with
  | nil => cases h
  | cons a rest ih =>
    cases n with
    | zero =>
      cases h
      rw [List.set_cons_zero, valuesOf, valuesOf, List.filter_cons, List.filter_cons, hkey]
      split_ifs
      · rw [List.map_cons, List.map_cons, hvalue]
      · rfl
    | succ n =>
      have hrest := ih h
      unfold valuesOf at hrest ⊢
      rw [List.set_cons_succ, List.filter_cons, List.filter_cons]
      split_ifs
      · rw [List.map_cons, List.map_cons, hrest]
      · exact hrest

/-- The last value of a key stands at its index. -/
theorem getLast?_valuesOf (k : κ) (log : List ε) :
    (valuesOf key value k log).getLast? = ((lastIndex key k log).bind (log[·]?)).map value := by
  induction log using List.reverseRecOn with
  | nil => rfl
  | append_singleton log a ih =>
    rw [lastIndex_append, valuesOf_append]
    split_ifs with ha
    · rw [List.getLast?_concat, Option.bind_some, List.getElem?_concat_length, Option.map_some]
    · rw [List.append_nil, ih]
      cases hlast : lastIndex key k log with
      | none => rfl
      | some n =>
        obtain ⟨e, he, _⟩ := lastIndex_eq_some hlast
        rw [Option.bind_some, Option.bind_some,
          List.getElem?_append_left (List.getElem?_eq_some_iff.mp he).1]

end Taq102.Lib.LastIndex
