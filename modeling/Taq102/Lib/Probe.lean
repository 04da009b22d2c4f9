import Mathlib.Logic.Function.Iterate

/-! Open addressing with linear probing. Keys are never taken out one by one, so a key sits exactly
where the search for it ends. -/
namespace Taq102.Lib.Probe
variable {n : Nat} {K : Type*} [DecidableEq K]

/-- The slot after a slot, around the end of the table. -/
def next (slot : Fin n) : Fin n := ⟨(slot.val + 1) % n, Nat.mod_lt _ (Nat.zero_lt_of_lt slot.isLt)⟩

/-- How a search ends: at the key, at a free slot, or after its last probe. -/
inductive Outcome (n : Nat) where
  | hit (slot : Fin n)
  | gap (slot : Fin n)
  | full (slot : Fin n)
  deriving DecidableEq

/-- The search for a key with some probes left, where `key` reads the occupied slots. -/
def search (key : Fin n → Option K) (k : K) : Nat → Fin n → Outcome n
  | 0, slot => .full slot
  | probes + 1, slot =>
    match key slot with
    | none => .gap slot
    | some k' => if k' = k then .hit slot else search key k probes (next slot)

/-- Every key sits where its search ends. -/
def Probed (hash : K → Fin n) (key : Fin n → Option K) : Prop :=
  ∀ slot k, key slot = some k → search key k n (hash k) = .hit slot

variable {hash : K → Fin n} {key : Fin n → Option K} {k : K} {probes : Nat} {start slot : Fin n}

theorem next_iterate (slot : Fin n) (i : Nat) : (next^[i] slot).val = (slot.val + i) % n := by
  induction i with
  | zero => exact (Nat.mod_eq_of_lt slot.isLt).symm
  | succ i ih =>
    have hstep : (next (next^[i] slot)).val = ((next^[i] slot).val + 1) % n := rfl
    rw [Function.iterate_succ_apply', hstep, ih]
    exact Nat.mod_add_mod _ _ _

/-- As many steps as there are slots lead back. -/
theorem next_iterate_all (slot : Fin n) : next^[n] slot = slot := by
  apply Fin.ext
  rw [next_iterate, Nat.add_mod_right, Nat.mod_eq_of_lt slot.isLt]

theorem search_free (h : key start = none) : search key k (probes + 1) start = .gap start := by
  rw [search, h]

theorem search_found (h : key start = some k) : search key k (probes + 1) start = .hit start := by
  rw [search, h]
  exact if_pos rfl

theorem search_pass {held : K} (h : key start = some held) (hne : held ≠ k) :
    search key k (probes + 1) start = search key k probes (next start) := by
  rw [search, h]
  exact if_neg hne

theorem search_gap_empty (h : search key k probes start = .gap slot) : key slot = none := by
  induction probes generalizing start with
  | zero => cases h
  | succ probes ih =>
    cases hkey : key start with
    | none =>
      rw [search_free hkey] at h
      cases h
      exact hkey
    | some held =>
      by_cases heq : held = k
      · rw [heq] at hkey
        rw [search_found hkey] at h
        cases h
      · rw [search_pass hkey heq] at h
        exact ih h

theorem search_hit_key (h : search key k probes start = .hit slot) : key slot = some k := by
  induction probes generalizing start with
  | zero => cases h
  | succ probes ih =>
    cases hkey : key start with
    | none =>
      rw [search_free hkey] at h
      cases h
    | some held =>
      by_cases heq : held = k
      · rw [heq] at hkey
        rw [search_found hkey] at h
        cases h
        exact hkey
      · rw [search_pass hkey heq] at h
        exact ih h

theorem search_full (h : search key k probes start = .full slot) : slot = next^[probes] start := by
  induction probes generalizing start with
  | zero =>
    cases h
    rfl
  | succ probes ih =>
    cases hkey : key start with
    | none =>
      rw [search_free hkey] at h
      cases h
    | some held =>
      by_cases heq : held = k
      · rw [heq] at hkey
        rw [search_found hkey] at h
        cases h
      · rw [search_pass hkey heq] at h
        exact ih h

/-- A table without keys has room at once. -/
theorem search_empty (h : ∀ slot, key slot = none) (start : Fin n) : search key k n start = .gap start := by
  obtain ⟨m, rfl⟩ := Nat.exists_eq_succ_of_ne_zero (Nat.ne_of_gt (Nat.zero_lt_of_lt start.isLt))
  exact search_free (h start)

/-- Filling a free slot leaves every search that found its key as it was. -/
theorem search_update_hit {free : Fin n} (hfree : key free = none) (k' : K)
    (h : search key k probes start = .hit slot) :
    search (Function.update key free (some k')) k probes start = .hit slot := by
  induction probes generalizing start with
  | zero => cases h
  | succ probes ih =>
    cases hkey : key start with
    | none =>
      rw [search_free hkey] at h
      cases h
    | some held =>
      have hne : start ≠ free := fun heq => by
        rw [heq, hfree] at hkey
        cases hkey
      have hsame : Function.update key free (some k') start = some held :=
        (Function.update_of_ne hne _ _).trans hkey
      by_cases heq : held = k
      · rw [heq] at hkey hsame
        rw [search_found hkey] at h
        rw [search_found hsame, h]
      · rw [search_pass hkey heq] at h
        rw [search_pass hsame heq]
        exact ih h

/-- A key put where its search found room is found there. -/
theorem search_update_gap (h : search key k probes start = .gap slot) :
    search (Function.update key slot (some k)) k probes start = .hit slot := by
  have hempty := search_gap_empty h
  induction probes generalizing start with
  | zero => cases h
  | succ probes ih =>
    cases hkey : key start with
    | none =>
      rw [search_free hkey] at h
      cases h
      exact search_found (Function.update_self _ _ _)
    | some held =>
      have hne : start ≠ slot := fun heq => by
        rw [heq, hempty] at hkey
        cases hkey
      have hsame : Function.update key slot (some k) start = some held :=
        (Function.update_of_ne hne _ _).trans hkey
      by_cases heq : held = k
      · rw [heq] at hkey
        rw [search_found hkey] at h
        cases h
      · rw [search_pass hkey heq] at h
        rw [search_pass hsame heq]
        exact ih h

theorem Probed.injective (h : Probed hash key) {i j : Fin n} (hi : key i = some k)
    (hj : key j = some k) : i = j := by
  have hsame := (h i k hi).symm.trans (h j k hj)
  exact Outcome.hit.inj hsame

theorem probed_empty (h : ∀ slot, key slot = none) : Probed hash key := by
  intro slot k hkey
  rw [h slot] at hkey
  cases hkey

theorem Probed.insert (h : Probed hash key) (hgap : search key k n (hash k) = .gap slot) :
    Probed hash (Function.update key slot (some k)) := by
  intro i k' hi
  by_cases heq : i = slot
  · rw [heq, Function.update_self] at hi
    obtain rfl : k = k' := Option.some.inj hi
    rw [heq]
    exact search_update_gap hgap
  · rw [Function.update_of_ne heq] at hi
    exact search_update_hit (search_gap_empty hgap) k (h i k' hi)

end Taq102.Lib.Probe
