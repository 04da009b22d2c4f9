import Mathlib.Order.CompletePartialOrder
import Mathlib.Data.Set.Function
import Mathlib.Data.Set.Lattice
import Mathlib.Data.List.Nodup

/-! Images and the operations that paint a region of one. A picture made of tiles can be
repainted tile by tile: only the state each tile was last painted from matters. -/
namespace Taq102.Lib.Raster
open Set
variable {P C ι σ : Type*}

abbrev Image (P C : Type*) := P → C

/-- The operation changes the region only, and there depends on the region only. -/
structure Patch (R : Set P) (f : Image P C → Image P C) : Prop where
  outside : ∀ img, ∀ p ∉ R, f img p = img p
  inside : ∀ img img', EqOn img img' R → EqOn (f img) (f img') R

namespace Patch
variable {R S : Set P} {f g : Image P C → Image P C}

theorem refl (R : Set P) : Patch R (fun img : Image P C => img) :=
  ⟨fun _ _ _ => rfl, fun _ _ h => h⟩

theorem mono (h : Patch R f) (hsub : R ⊆ S) : Patch S f := by
  refine ⟨fun img p hp => h.outside img p fun hR => hp (hsub hR), fun img img' heq p hp => ?_⟩
  by_cases hR : p ∈ R
  · exact h.inside img img' (heq.mono hsub) hR
  · rw [h.outside img p hR, h.outside img' p hR]
    exact heq hp

theorem comp (hf : Patch R f) (hg : Patch R g) : Patch R (fun img => g (f img)) := by
  refine ⟨fun img p hp => ?_, fun img img' heq => hg.inside _ _ (hf.inside img img' heq)⟩
  rw [hg.outside _ p hp, hf.outside img p hp]

/-- Each pixel of the region is computed from its own old value. -/
theorem pixelwise {t : P → C → C} (h : ∀ p ∉ R, ∀ c, t p c = c) :
    Patch R (fun img p => t p (img p)) := by
  exact ⟨fun img p hp => h p hp _, fun img img' heq p hp => congrArg (t p) (heq hp)⟩

end Patch

/-- Disjoint regions, each painted from a state. -/
structure Tiling (ι σ P C : Type*) where
  region : ι → Set P
  paint : ι → σ → Image P C → Image P C
  disjoint : ∀ i j, i ≠ j → Disjoint (region i) (region j)
  patch : ∀ i s, Patch (region i) (paint i s)

namespace Tiling
variable (T : Tiling ι σ P C) {base img img' : Image P C} {states : ι → Option σ}

/-- What a tile's region holds; a tile without a state is bare. -/
def content (base : Image P C) (i : ι) : Option σ → Image P C
  | some s => T.paint i s base
  | none => base

/-- The image shows every tile in its state over the base. -/
structure Shows (base : Image P C) (states : ι → Option σ) (img : Image P C) : Prop where
  tile : ∀ i, EqOn img (T.content base i (states i)) (T.region i)
  bare : ∀ p, (∀ i, p ∉ T.region i) → img p = base p

variable {T}

theorem shows_base : T.Shows base (fun _ => none) base := ⟨fun _ _ _ => rfl, fun _ _ => rfl⟩

theorem Shows.unique (h : T.Shows base states img) (h' : T.Shows base states img') : img = img' := by
  funext p
  by_cases hp : ∃ i, p ∈ T.region i
  · obtain ⟨i, hi⟩ := hp
    rw [h.tile i hi, h'.tile i hi]
  · have hout : ∀ i, p ∉ T.region i := fun i hi => hp ⟨i, hi⟩
    rw [h.bare p hout, h'.bare p hout]

theorem Shows.congr {states' : ι → Option σ} (h : T.Shows base states img)
    (heq : ∀ i, T.content base i (states' i) = T.content base i (states i)) :
    T.Shows base states' img := by
  refine ⟨fun i => ?_, h.bare⟩
  rw [heq i]
  exact h.tile i

variable [DecidableEq ι]

/-- An operation confined to a tile's region gives the tile the state it then shows. -/
theorem Shows.update (h : T.Shows base states img) {i : ι} {state : Option σ}
    (hout : ∀ p ∉ T.region i, img' p = img p)
    (hin : EqOn img' (T.content base i state) (T.region i)) :
    T.Shows base (Function.update states i state) img' := by
  refine ⟨fun j p hp => ?_, fun p hp => ?_⟩
  · by_cases hj : j = i
    · subst hj
      rw [Function.update_self]
      exact hin hp
    · have hpi : p ∉ T.region i := fun hi => (T.disjoint j i hj).le_bot ⟨hp, hi⟩
      rw [Function.update_of_ne hj, hout p hpi]
      exact h.tile j hp
  · rw [hout p (hp i)]
    exact h.bare p hp

/-- Painting a bare tile. -/
theorem Shows.paint (h : T.Shows base states img) {i : ι} (s : σ)
    (hbare : EqOn img base (T.region i)) :
    T.Shows base (Function.update states i (some s)) (T.paint i s img) :=
  h.update (fun p hp => (T.patch i s).outside img p hp) ((T.patch i s).inside _ _ hbare)

/-- Painting all tiles over the base, in any order. -/
theorem shows_foldl {order : List ι} (hnodup : order.Nodup) (hall : ∀ i, i ∈ order) (s : σ) :
    T.Shows base (fun _ => some s) (order.foldl (fun img i => T.paint i s img) base) := by
  have hgen (rest : List ι) (hrest : rest.Nodup) (img : Image P C) (states : ι → Option σ)
      (h : T.Shows base states img) (hbare : ∀ i ∈ rest, states i = none) :
      T.Shows base (fun i => if i ∈ rest then some s else states i)
        (rest.foldl (fun img i => T.paint i s img) img) := by
    induction rest generalizing img states with
    | nil => simpa using h
    | cons i rest ih =>
      obtain ⟨hi, hrest⟩ := List.nodup_cons.mp hrest
      have hbase : EqOn img base (T.region i) := by
        have ht := h.tile i
        rw [hbare i (by simp)] at ht
        exact ht
      have hnext := ih hrest _ _ (h.paint s hbase) fun j hj => by
        rw [Function.update_of_ne (ne_of_mem_of_not_mem hj hi)]
        exact hbare j (by simp [hj])
      refine hnext.congr fun j => ?_
      by_cases hj : j = i
      · subst hj
        simp [hi]
      · simp [hj]
  have h := hgen order hnodup base _ shows_base fun _ _ => rfl
  exact h.congr fun i => by simp [hall i]

end Tiling
end Taq102.Lib.Raster
