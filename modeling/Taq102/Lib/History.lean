import Mathlib.Data.List.Basic

/-! Histories: lists of events, the newest last, in which each event is judged by the events
before it. -/
namespace Taq102.Lib.History
variable {ε : Type*} {allowed : List ε → ε → Prop} {past : List ε} {e : ε}

/-- Every event was allowed when it happened. -/
def Justified (allowed : List ε → ε → Prop) (history : List ε) : Prop :=
  ∀ past e future, history = past ++ e :: future → allowed past e

theorem Justified.nil : Justified allowed [] := by
  intro past e future h
  cases past <;> cases h

theorem Justified.snoc (h : Justified allowed past) (he : allowed past e) :
    Justified allowed (past ++ [e]) := by
  intro first f future heq
  rcases List.eq_nil_or_concat future with rfl | ⟨future, last, rfl⟩
  · obtain ⟨rfl, hlast⟩ := List.append_inj' heq rfl
    cases hlast
    exact he
  · have hinit : past = first ++ f :: future := by
      have hshape : first ++ f :: (future.concat last) = (first ++ f :: future) ++ [last] := by simp
      rw [hshape] at heq
      exact (List.append_inj' heq rfl).1
    exact h first f future hinit

/-- The events after the newest one with a property. -/
def since (p : ε → Bool) (history : List ε) : List ε :=
  (history.reverse.takeWhile fun e => !p e).reverse

theorem since_restart {p : ε → Bool} (he : p e = true) : since p (past ++ [e]) = [] := by
  simp [since, he]

theorem since_append {p : ε → Bool} {more : List ε} (hmore : ∀ e ∈ more, p e = false) :
    since p (past ++ more) = since p past ++ more := by
  induction more generalizing past with
  | nil => simp
  | cons e rest ih =>
    have hfirst : since p (past ++ [e]) = since p past ++ [e] := by
      simp [since, hmore e List.mem_cons_self]
    rw [List.append_cons, ih fun f hf => hmore f (List.mem_cons_of_mem e hf), hfirst,
      List.append_assoc, List.singleton_append]

end Taq102.Lib.History
