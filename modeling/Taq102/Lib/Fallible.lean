import Mathlib.Data.Int.Notation

/-! Calls that may fail with an error code and keep what they had changed before. -/
namespace Taq102.Lib

/-- A call: its result or its error code, and the state after it. -/
def Fallible (σ α : Type) := σ → Except Int α × σ

namespace Fallible
variable {σ α β : Type} {x : Fallible σ α} {f : α → Fallible σ β} {s t : σ} {a : α} {b : β}

instance : Monad (Fallible σ) where
  pure a := fun s => (.ok a, s)
  bind x f := fun s => match x s with
    | (.ok a, t) => f a t
    | (.error e, t) => (.error e, t)

def fail (e : Int) : Fallible σ α := fun s => (.error e, s)

def gets (g : σ → α) : Fallible σ α := fun s => (.ok (g s), s)

def update (g : σ → σ) : Fallible σ Unit := fun s => (.ok (), g s)

/-- A call whose error the caller handles. -/
def attempt (x : Fallible σ α) : Fallible σ (Except Int α) := fun s => (.ok (x s).1, (x s).2)

@[simp] theorem pure_apply : (pure a : Fallible σ α) s = (.ok a, s) := rfl

@[simp] theorem fail_apply {e : Int} : (fail e : Fallible σ α) s = (.error e, s) := rfl

@[simp] theorem gets_apply {g : σ → α} : gets g s = (.ok (g s), s) := rfl

@[simp] theorem update_apply {g : σ → σ} : update g s = (.ok (), g s) := rfl

theorem attempt_apply : attempt x s = (.ok (x s).1, (x s).2) := rfl

/-- A sequence that succeeds is two calls that succeed. -/
theorem bind_ok (h : (x >>= f) s = (.ok b, t)) : ∃ a u, x s = (.ok a, u) ∧ f a u = (.ok b, t) := by
  change (match x s with
    | (.ok a, u) => f a u
    | (.error e, u) => (.error e, u)) = (.ok b, t) at h
  rcases hx : x s with ⟨_ | a, u⟩
  · rw [hx] at h
    cases h
  · rw [hx] at h
    exact ⟨a, u, rfl, h⟩

theorem bind_of_ok {u : σ} (h : x s = (.ok a, u)) : (x >>= f) s = f a u := by
  change (match x s with
    | (.ok a, u) => f a u
    | (.error e, u) => (.error e, u)) = f a u
  rw [h]

theorem bind_of_error {e : Int} (h : x s = (.error e, t)) : (x >>= f) s = (.error e, t) := by
  change (match x s with
    | (.ok a, u) => f a u
    | (.error e, u) => (.error e, u)) = (.error e, t)
  rw [h]

theorem gets_bind {g : σ → α} : (gets g >>= f) s = f (g s) s := bind_of_ok rfl

theorem update_bind {g : σ → σ} {k : Unit → Fallible σ β} : (update g >>= k) s = k () (g s) :=
  bind_of_ok rfl

/-- A sequence that goes on unless its first call fails. -/
theorem bind_ite {p : Prop} [Decidable p] {e : Int} {u : σ}
    (h : x s = if p then (.error e, t) else (.ok a, u)) :
    (x >>= f) s = if p then (.error e, t) else f a u := by
  by_cases hp : p
  · rw [if_pos hp] at h ⊢
    exact bind_of_error h
  · rw [if_neg hp] at h ⊢
    exact bind_of_ok h

/-! What a call keeps, whatever becomes of it. -/

/-- The property holds after the call, also after one that fails. -/
def Preserves (P : σ → Prop) (x : Fallible σ α) : Prop := ∀ s, P s → P (x s).2

section Preserves
variable {P : σ → Prop}

theorem preserves_pure (a : α) : Preserves P (pure a) := fun _ h => h

theorem preserves_fail (e : Int) : Preserves P (fail e : Fallible σ α) := fun _ h => h

theorem preserves_gets (g : σ → α) : Preserves P (gets g) := fun _ h => h

theorem preserves_update {g : σ → σ} (hg : ∀ s, P s → P (g s)) : Preserves P (update g) := hg

theorem preserves_attempt (hx : Preserves P x) : Preserves P (attempt x) := hx

theorem preserves_bind (hx : Preserves P x) (hf : ∀ a, Preserves P (f a)) :
    Preserves P (x >>= f) := by
  intro s h
  have hafter := hx s h
  change P (match x s with
    | (.ok a, t) => f a t
    | (.error e, t) => (.error e, t)).2
  rcases hcall : x s with ⟨_ | a, t⟩
  · rw [hcall] at hafter
    exact hafter
  · rw [hcall] at hafter
    exact hf a t hafter

theorem Preserves.ite {p : Prop} [Decidable p] {y : Fallible σ α} (hx : Preserves P x)
    (hy : Preserves P y) : Preserves P (if p then x else y) := by
  split
  · exact hx
  · exact hy

end Preserves

end Fallible
end Taq102.Lib
