import Mathlib.Data.List.Basic
import Mathlib.Data.List.Induction

/-! Finite runs of a labelled step relation. What one step preserves, every run preserves;
a run restricted by a condition on its steps is a run of the guarded relation. -/
namespace Taq102.Lib.Transition
variable {σ ι : Type*} {step step' : σ → ι → σ → Prop} {s t u : σ}

/-- Runs from one state, the newest label last. -/
inductive Run (step : σ → ι → σ → Prop) (s : σ) : List ι → σ → Prop
  | nil : Run step s [] s
  | snoc {labels : List ι} {t u : σ} {i : ι} :
      Run step s labels t → step t i u → Run step s (labels ++ [i]) u

/-- The steps taken where the condition admits them. -/
def Guarded (step : σ → ι → σ → Prop) (ok : σ → ι → Prop) (s : σ) (i : ι) (t : σ) : Prop :=
  ok s i ∧ step s i t

/-- The step relation of a total transition function. -/
def Fires (next : σ → ι → σ) (s : σ) (i : ι) (t : σ) : Prop := t = next s i

/-- The step relation of a partial transition function: `none` is a disabled label. -/
def Enabled (next : σ → ι → Option σ) (s : σ) (i : ι) (t : σ) : Prop := next s i = some t

theorem Run.invariant {labels : List ι} (h : Run step s labels t) (Inv : σ → Prop) (hs : Inv s)
    (hstep : ∀ t i u, Inv t → step t i u → Inv u) : Inv t := by
  induction h with
  | nil => exact hs
  | snoc _ hi ih => exact hstep _ _ _ ih hi

theorem Run.mono {labels : List ι} (hle : ∀ t i u, step t i u → step' t i u)
    (h : Run step s labels t) : Run step' s labels t := by
  induction h with
  | nil => exact .nil
  | snoc _ hi ih => exact .snoc ih (hle _ _ _ hi)

theorem Run.forget_guard {ok : σ → ι → Prop} {labels : List ι}
    (h : Run (Guarded step ok) s labels t) : Run step s labels t :=
  h.mono fun _ _ _ hi => hi.2

theorem Run.trans {first rest : List ι} (h : Run step s first t) (h' : Run step t rest u) :
    Run step s (first ++ rest) u := by
  induction h' with
  | nil => simpa using h
  | snoc _ hi ih => rw [← List.append_assoc]; exact .snoc ih hi

/-- Runs of a system whose steps another one can follow. -/
theorem Run.simulate {τ κ : Type*} {other : τ → κ → τ → Prop} {f : σ → τ}
    (hfollows : ∀ s i t, step s i t → ∃ j, other (f s) j (f t)) {labels : List ι}
    (h : Run step s labels t) : ∃ moves, Run other (f s) moves (f t) := by
  induction h with
  | nil => exact ⟨[], .nil⟩
  | snoc _ hi ih =>
    obtain ⟨moves, hmoves⟩ := ih
    obtain ⟨j, hj⟩ := hfollows _ _ _ hi
    exact ⟨moves ++ [j], .snoc hmoves hj⟩

theorem Run.single {i : ι} (h : step s i t) : Run step s [i] t := .snoc .nil h

/-- Executing a label list is a run of the total transition function. -/
theorem run_foldl (next : σ → ι → σ) (s : σ) (labels : List ι) :
    Run (Fires next) s labels (labels.foldl next s) := by
  induction labels generalizing s with
  | nil => exact .nil
  | cons i rest ih => exact (Run.single (t := next s i) rfl).trans (ih (next s i))

/-- The condition holds before every label of the list, executed from `s`. -/
def Admits (next : σ → ι → σ) (ok : σ → ι → Prop) : σ → List ι → Prop
  | _, [] => True
  | s, i :: rest => ok s i ∧ Admits next ok (next s i) rest

instance decidableAdmits (next : σ → ι → σ) (ok : σ → ι → Prop) [∀ s i, Decidable (ok s i)] :
    ∀ s labels, Decidable (Admits next ok s labels)
  | _, [] => isTrue trivial
  | s, i :: rest =>
    have := decidableAdmits next ok (next s i) rest
    inferInstanceAs (Decidable (ok s i ∧ Admits next ok (next s i) rest))

theorem Admits.at_split {next : σ → ι → σ} {ok : σ → ι → Prop} {labels : List ι}
    (h : Admits next ok s labels) (first : List ι) (i : ι) (rest : List ι)
    (heq : labels = first ++ i :: rest) : ok (first.foldl next s) i := by
  induction first generalizing s labels with
  | nil =>
    cases heq
    exact h.1
  | cons j first ih =>
    cases heq
    exact ih h.2 rfl

theorem run_guarded_foldl {next : σ → ι → σ} {ok : σ → ι → Prop} {labels : List ι}
    (h : Admits next ok s labels) : Run (Guarded (Fires next) ok) s labels (labels.foldl next s) := by
  induction labels generalizing s with
  | nil => exact .nil
  | cons i rest ih =>
    have hfirst : Run (Guarded (Fires next) ok) s [i] (next s i) := .single ⟨h.1, rfl⟩
    exact hfirst.trans (ih h.2)

/-- Executing a label list to the end is a run of the partial transition function. -/
theorem run_foldlM (next : σ → ι → Option σ) {s t : σ} {labels : List ι}
    (h : labels.foldlM next s = some t) : Run (Enabled next) s labels t := by
  induction labels generalizing s with
  | nil => cases h; exact .nil
  | cons i rest ih =>
    rw [List.foldlM_cons] at h
    obtain ⟨mid, hi, hr⟩ := Option.bind_eq_some_iff.mp h
    exact (Run.single hi).trans (ih hr)

theorem run_enabled_eq {next : σ → ι → Option σ} {labels : List ι}
    (h : Run (Enabled next) s labels t) : labels.foldlM next s = some t := by
  induction h with
  | nil => rfl
  | snoc _ hi ih =>
    rw [List.foldlM_append, ih]
    simpa [Enabled] using hi

/-- Executing a label list in which every step meets the condition. -/
theorem run_guarded_foldlM (next : σ → ι → Option σ) (ok : σ → ι → Prop) [∀ s i, Decidable (ok s i)]
    {s t : σ} {labels : List ι}
    (h : labels.foldlM (fun s i => if ok s i then next s i else none) s = some t) :
    Run (Guarded (Enabled next) ok) s labels t := by
  refine (run_foldlM _ h).mono fun u i v huv => ?_
  by_cases hok : ok u i
  · exact ⟨hok, (if_pos hok).symm.trans huv⟩
  · exact nomatch (if_neg hok).symm.trans huv

/-- The property holds in every state on the way. -/
def Throughout (next : σ → ι → σ) (P : σ → Prop) (s : σ) (labels : List ι) : Prop :=
  ∀ first rest, labels = first ++ rest → P (first.foldl next s)

theorem throughout_nil {next : σ → ι → σ} {P : σ → Prop} : Throughout next P s [] ↔ P s := by
  constructor
  · intro h
    exact h [] [] rfl
  · intro h first rest heq
    obtain ⟨rfl, _⟩ := List.append_eq_nil_iff.mp heq.symm
    exact h

theorem throughout_snoc {next : σ → ι → σ} {P : σ → Prop} {labels : List ι} {i : ι} :
    Throughout next P s (labels ++ [i]) ↔
      Throughout next P s labels ∧ P ((labels ++ [i]).foldl next s) := by
  constructor
  · intro h
    exact ⟨fun first rest heq => h first (rest ++ [i]) (by rw [heq, List.append_assoc]),
      h _ [] (List.append_nil _).symm⟩
  · rintro ⟨hbefore, hlast⟩ first rest heq
    rcases List.eq_nil_or_concat rest with rfl | ⟨rest, j, rfl⟩
    · rw [List.append_nil] at heq
      rw [← heq]
      exact hlast
    · rw [List.concat_eq_append, ← List.append_assoc] at heq
      exact hbefore first rest (List.append_inj' heq rfl).1

/-- A property that every admitted step keeps holds throughout a run of admitted steps. -/
theorem throughout_of_admitted {next : σ → ι → σ} {P : σ → Prop} {ok : σ → ι → Prop} (hs : P s)
    (hstep : ∀ t i, P t → ok t i → P (next t i)) {labels : List ι}
    (hall : ∀ first i rest, labels = first ++ i :: rest → ok (first.foldl next s) i) :
    Throughout next P s labels := by
  induction labels using List.reverseRecOn with
  | nil => exact throughout_nil.mpr hs
  | append_singleton labels i ih =>
    have hbefore : Throughout next P s labels := by
      refine ih fun first j rest heq => ?_
      exact hall first j (rest ++ [i]) (by rw [heq, List.append_assoc, List.cons_append])
    refine throughout_snoc.mpr ⟨hbefore, ?_⟩
    rw [List.foldl_append]
    exact hstep _ i (hbefore labels [] (List.append_nil _).symm) (hall labels i [] rfl)

/-- In a run of guarded steps, a property that each such step keeps exactly when it is admitted
holds throughout exactly when every step is. -/
theorem throughout_iff_where {next : σ → ι → σ} {P : σ → Prop} {guard ok : σ → ι → Prop} (hs : P s)
    {labels : List ι}
    (hguard : ∀ first i rest, labels = first ++ i :: rest → guard (first.foldl next s) i)
    (hstep : ∀ t i, guard t i → P t → (P (next t i) ↔ ok t i)) :
    Throughout next P s labels ↔
      ∀ first i rest, labels = first ++ i :: rest → ok (first.foldl next s) i := by
  constructor
  · intro h first i rest heq
    have hbefore : P (first.foldl next s) := h first (i :: rest) heq
    have hafter : P ((first ++ [i]).foldl next s) :=
      h (first ++ [i]) rest (by rw [heq, List.append_assoc, List.singleton_append])
    rw [List.foldl_append] at hafter
    exact (hstep _ i (hguard first i rest heq) hbefore).mp hafter
  · intro hall
    have hkeeps (t : σ) (i : ι) (ht : P t) (hok : guard t i ∧ ok t i) : P (next t i) :=
      (hstep t i hok.1 ht).mpr hok.2
    exact throughout_of_admitted hs hkeeps fun first i rest heq =>
      ⟨hguard first i rest heq, hall first i rest heq⟩

/-- Along states of an invariant: a property that each step keeps exactly when the step is admitted
holds throughout a run exactly when every step is. -/
theorem throughout_iff_within {next : σ → ι → σ} {P Inv : σ → Prop} {ok : σ → ι → Prop} (hs : P s)
    {labels : List ι} (hinv : Throughout next Inv s labels)
    (hstep : ∀ t i, Inv t → P t → (P (next t i) ↔ ok t i)) :
    Throughout next P s labels ↔
      ∀ first i rest, labels = first ++ i :: rest → ok (first.foldl next s) i := by
  refine throughout_iff_where hs (fun first i rest heq => ?_) hstep
  exact hinv first (i :: rest) heq

/-- A property that each step from a state with it keeps exactly when the step is admitted holds
throughout a run exactly when every step is. -/
theorem throughout_iff_admitted {next : σ → ι → σ} {P : σ → Prop} {ok : σ → ι → Prop} (hs : P s)
    (hstep : ∀ t i, P t → (P (next t i) ↔ ok t i)) (labels : List ι) :
    Throughout next P s labels ↔
      ∀ first i rest, labels = first ++ i :: rest → ok (first.foldl next s) i := by
  have hinv : Throughout next (fun _ => True) s labels := fun _ _ _ => trivial
  exact throughout_iff_within hs hinv fun t i _ => hstep t i

end Taq102.Lib.Transition
