import Mathlib.Data.List.Basic
import Mathlib.Data.List.Induction
import Mathlib.Logic.Function.Basic

/-! Loops that visit every index of a table once, rewriting the entry they visit and
appending output computed from it. -/
namespace Taq102.Lib.Sweep
variable {α β γ : Type*} [DecidableEq α]

/-- One visit: the entry's output is appended, the entry replaced. -/
def visit (out : α → β → List γ) (new : α → β → β) (state : List γ × (α → β)) (a : α) :
    List γ × (α → β) :=
  (state.1 ++ out a (state.2 a), Function.update state.2 a (new a (state.2 a)))

/-- Visiting distinct indices reads every entry as it was before the loop. -/
theorem foldl_visit (out : α → β → List γ) (new : α → β → β) {l : List α} (hl : l.Nodup)
    (acc : List γ) (table : α → β) :
    l.foldl (visit out new) (acc, table) =
      (acc ++ l.flatMap fun a => out a (table a),
        fun a => if a ∈ l then new a (table a) else table a) := by
  induction l generalizing acc table with
  | nil => simp
  | cons a rest ih =>
    obtain ⟨ha, hrest⟩ := List.nodup_cons.mp hl
    have hsame : ∀ b ∈ rest, Function.update table a (new a (table a)) b = table b := fun b hb =>
      Function.update_of_ne (ne_of_mem_of_not_mem hb ha) _ _
    rw [List.foldl_cons, visit, ih hrest]
    refine Prod.ext ?_ (funext fun b => ?_)
    · simp only [List.flatMap_cons, List.append_assoc]
      rw [List.flatMap_congr fun b hb => by rw [hsame b hb]]
    · by_cases hb : b = a
      · subst hb
        simp [ha]
      · simp [hb]

/-- A loop over every index of the table. -/
theorem foldl_visit_all (out : α → β → List γ) (new : α → β → β) {l : List α} (hl : l.Nodup)
    (hall : ∀ a, a ∈ l) (acc : List γ) (table : α → β) :
    l.foldl (visit out new) (acc, table) =
      (acc ++ l.flatMap fun a => out a (table a), fun a => new a (table a)) := by
  rw [foldl_visit out new hl]
  simp [hall]

/-- Rewriting the entries at distinct indices, each from its own old value. -/
theorem foldl_modify (new : α → β → β) {l : List α} (hl : l.Nodup) (table : α → β) :
    l.foldl (fun t a => Function.update t a (new a (t a))) table =
      fun a => if a ∈ l then new a (table a) else table a := by
  induction l generalizing table with
  | nil => simp
  | cons a rest ih =>
    obtain ⟨ha, hrest⟩ := List.nodup_cons.mp hl
    rw [List.foldl_cons, ih hrest]
    funext b
    by_cases hb : b = a
    · subst hb
      simp [ha]
    · simp [hb]

/-- The entry at a key that was written, when every write there agrees. -/
theorem foldl_write {ι : Type*} (key : ι → α) (val : ι → β) {l : List ι} {i : ι} (hi : i ∈ l)
    (hval : ∀ j ∈ l, key j = key i → val j = val i) (table : α → β) :
    l.foldl (fun t j => Function.update t (key j) (val j)) table (key i) = val i := by
  induction l using List.reverseRecOn with
  | nil => cases hi
  | append_singleton rest j ih =>
    rw [List.foldl_append, List.foldl_cons, List.foldl_nil]
    by_cases hj : key i = key j
    · rw [hj, Function.update_self]
      exact hval j (List.mem_append_right rest List.mem_cons_self) hj.symm
    · rw [Function.update_of_ne hj]
      have hrest : i ∈ rest := by
        rcases List.mem_append.mp hi with hrest | hlast
        · exact hrest
        · exact absurd (congrArg key (List.mem_singleton.mp hlast)) hj
      exact ih hrest fun k hk => hval k (List.mem_append_left [j] hk)

end Taq102.Lib.Sweep
