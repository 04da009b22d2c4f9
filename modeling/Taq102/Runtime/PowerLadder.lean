import Taq102.Runtime.PowerWindow

/-! The levels of the power policy over every run of its steps: what a decision moves, and how long
a level that failed is not tried again. -/
namespace Taq102.Runtime
open Taq102.Lib Transition

/-- The level a supply begins at. -/
def PowerPolicy.floor (policy : PowerPolicy) : Int := minimum 40 policy.maxLevel

theorem floor_mem {policy : PowerPolicy} (h : 8 ≤ policy.maxLevel) :
    8 ≤ policy.floor ∧ policy.floor ≤ policy.maxLevel := minimum_mem (by decide) h

section Learn
variable {state : SourcePolicy} {maximum average now : Int}

/-- What a decision does to the state of its supply, by the average. -/
theorem learn_cases (state : SourcePolicy) (maximum average now : Int) :
    (state.level = 0 ∧
        (learn state maximum average now).1 = { state with level := minimum 40 maximum }) ∨
      (state.level ≠ 0 ∧ average < -50000 ∧ state.level ≠ minimum 40 maximum ∧
        (learn state maximum average now).1 = lower state (minimum 40 maximum) now) ∨
      (state.level ≠ 0 ∧ 100000 < average ∧ state.level < maximum ∧
        (learn state maximum average now).1 = raise state maximum now) ∨
      (state.level ≠ 0 ∧ (learn state maximum average now).1 = state) := by
  rw [learn]
  split
  · rename_i hfirst
    exact .inl ⟨hfirst, rfl⟩
  rename_i hlearned
  refine .inr ?_
  split
  · rename_i hlow
    split
    · exact .inr (.inr ⟨hlearned, rfl⟩)
    · rename_i habove
      exact .inl ⟨hlearned, hlow, habove, rfl⟩
  · split
    · rename_i hhigh
      exact .inr (.inl ⟨hlearned, hhigh.1, hhigh.2, rfl⟩)
    · exact .inr (.inr ⟨hlearned, rfl⟩)

theorem lower_level (state : SourcePolicy) (floor now : Int) : (lower state floor now).level =
    if state.level - 16 < floor then floor else state.level - 16 := by
  rw [lower]
  split <;> rfl

theorem raise_level (state : SourcePolicy) (maximum now : Int) :
    (raise state maximum now).level = state.level ∨
      (raise state maximum now).level = candidateUp state.level maximum := by
  rw [raise]
  split
  · exact .inl rfl
  · exact .inr rfl

/-- The level stays in range. -/
theorem learn_range (hmax : 8 ≤ maximum) (hstate : state.level = 0 ∨
      minimum 40 maximum ≤ state.level ∧ state.level ≤ maximum) :
    minimum 40 maximum ≤ (learn state maximum average now).1.level ∧
      (learn state maximum average now).1.level ≤ maximum := by
  have hfloor := minimum_mem (n := 40) (by decide) hmax
  rcases learn_cases state maximum average now with ⟨_, h⟩ | ⟨hne, _, habove, h⟩ | ⟨hne, _, hlt, h⟩ |
    ⟨hne, h⟩
  · rw [h]
    exact ⟨le_rfl, hfloor.2⟩
  · obtain ⟨hlow, hhigh⟩ := hstate.resolve_left hne
    rw [h, lower_level]
    split <;> omega
  · obtain ⟨hlow, hhigh⟩ := hstate.resolve_left hne
    have hcandidate : minimum 40 maximum ≤ candidateUp state.level maximum ∧
        candidateUp state.level maximum ≤ maximum := by
      rw [candidateUp]
      split <;> omega
    rw [h]
    rcases raise_level state maximum now with hsame | hup
    · rw [hsame]
      exact ⟨hlow, hhigh⟩
    · rw [hup]
      exact hcandidate
  · rw [h]
    exact hstate.resolve_left hne

/-- A learned level moves by at most sixteen, up on a gain and down on a loss. -/
theorem learn_moves (hstate : minimum 40 maximum ≤ state.level ∧ state.level ≤ maximum)
    (hne : state.level ≠ 0) :
    (state.level - 16 ≤ (learn state maximum average now).1.level ∧
        (learn state maximum average now).1.level ≤ state.level + 16) ∧
      (state.level < (learn state maximum average now).1.level → 100000 < average) ∧
        ((learn state maximum average now).1.level < state.level → average < -50000) := by
  rcases learn_cases state maximum average now with ⟨hzero, _⟩ | ⟨_, hloss, _, h⟩ |
    ⟨_, hgain, hlt, h⟩ | ⟨_, h⟩
  · exact absurd hzero hne
  · rw [h, lower_level]
    refine ⟨?_, ?_, fun _ => hloss⟩
    · split <;> omega
    · intro hup
      split at hup <;> omega
  · have hcandidate : state.level < candidateUp state.level maximum ∧
        candidateUp state.level maximum ≤ state.level + 16 := by
      rw [candidateUp]
      split <;> omega
    rw [h]
    refine ⟨?_, fun _ => hgain, fun hdown => ?_⟩
    · rcases raise_level state maximum now with hsame | hup <;> omega
    · rcases raise_level state maximum now with hsame | hup <;> omega
  · rw [h]
    exact ⟨by omega, by omega, by omega⟩

end Learn

/-! The levels along a run. -/

/-- The level that goes with the last decision. -/
def settledLevel (policy : PowerPolicy) : Option Decision → Int
  | none => 0
  | some d => match d.supply with
    | none => minimum 128 policy.maxLevel
    | some supply => if d.full then policy.maxLevel else (policy.source supply).level

/-- The supply was never decided on. -/
def Undecided (s : Logged) (supply : Fin 2) : Prop :=
  ∀ e ∈ s.log, ∀ d, e.decision = some d → ¬ (d.supply = some supply ∧ d.full = false)

/-- The learned levels, and the level in effect. -/
structure Laddered (s : Logged) : Prop where
  maximum : 8 ≤ s.policy.maxLevel
  learned : ∀ i, (s.policy.source i).level = 0 ∧ Undecided s i ∨ ¬ Undecided s i ∧
    s.policy.floor ≤ (s.policy.source i).level ∧ (s.policy.source i).level ≤ s.policy.maxLevel
  effective : s.policy.effectiveLevel = settledLevel s.policy s.lastDecision

/-- What a step does to the levels, and what it returns. -/
structure Climbs (policy : PowerPolicy) (call : Call) : Prop where
  moves : ∀ i, ((policy.next call).source i).level ≠ (policy.source i).level →
    supplyOf call.status = some i ∧ isFull call.status = false ∧
      ∃ d, decision policy call = some d ∧
        ((policy.source i).level = 0 ∧ ((policy.next call).source i).level = policy.floor ∨
          ((policy.source i).level - 16 ≤ ((policy.next call).source i).level ∧
              ((policy.next call).source i).level ≤ (policy.source i).level + 16) ∧
            ((policy.source i).level < ((policy.next call).source i).level → 100000 < d.average) ∧
              (((policy.next call).source i).level < (policy.source i).level → d.average < -50000))
  answer : (powerPolicyStep policy call.status call.now call.asleep).1 = -1 ∨
    (powerPolicyStep policy call.status call.now call.asleep).1 = (policy.next call).effectiveLevel
  changed : (powerPolicyStep policy call.status call.now call.asleep).1 =
    (policy.next call).effectiveLevel ↔ (policy.next call).effectiveLevel ≠ policy.effectiveLevel

section Runs
variable {s : Logged} {policy : PowerPolicy} {call : Call} {d : Decision}

/-- A decision of a charging supply adjusts that supply's state; the others leave the states alone. -/
def Adjusts (d : Decision) (supply : Fin 2) : Prop := d.supply = some supply ∧ d.full = false

instance (d : Decision) (supply : Fin 2) : Decidable (Adjusts d supply) :=
  inferInstanceAs (Decidable (_ ∧ _))

theorem carryOut_source (policy : PowerPolicy) (d : Decision) (i : Fin 2) :
    (carryOut policy d).2.source i = if Adjusts d i then
      (learn (policy.source i) policy.maxLevel d.average d.now).1 else policy.source i := by
  rw [carryOut]
  by_cases hadjusts : Adjusts d i
  · obtain ⟨hsupply, hfull⟩ := id hadjusts
    rw [if_pos hadjusts, hsupply, hfull]
    exact Function.update_self ..
  rw [if_neg hadjusts]
  cases hsupply : d.supply with
  | none => rfl
  | some supply =>
    cases hfull : d.full with
    | true => rfl
    | false =>
      have hother : i ≠ supply := by
        rintro rfl
        exact hadjusts ⟨hsupply, hfull⟩
      exact Function.update_of_ne hother ..

theorem carryOut_level (policy : PowerPolicy) (d : Decision) :
    (carryOut policy d).2.maxLevel = policy.maxLevel ∧
      (carryOut policy d).2.effectiveLevel = settledLevel (carryOut policy d).2 (some d) ∧
        (carryOut policy d).1 =
          if (carryOut policy d).2.effectiveLevel ≠ policy.effectiveLevel then
            (carryOut policy d).2.effectiveLevel else -1 := by
  rw [carryOut, settledLevel]
  cases d.supply with
  | none => exact ⟨rfl, rfl, rfl⟩
  | some supply =>
    cases d.full with
    | true => exact ⟨rfl, rfl, rfl⟩
    | false =>
      refine ⟨rfl, ?_, rfl⟩
      change _ = (Function.update policy.source supply _ supply).level
      rw [Function.update_self]
      rfl

/-- What a step with a decision does. -/
theorem next_decides (h : decision policy call = some d) :
    (policy.next call).maxLevel = policy.maxLevel ∧
      (∀ i, (policy.next call).source i = if Adjusts d i then
        (learn (policy.source i) policy.maxLevel d.average d.now).1 else policy.source i) ∧
        (policy.next call).effectiveLevel = settledLevel (policy.next call) (some d) ∧
          (powerPolicyStep policy call.status call.now call.asleep).1 =
            if (policy.next call).effectiveLevel ≠ policy.effectiveLevel then
              (policy.next call).effectiveLevel else -1 := by
  obtain ⟨emptied, hsame, hstep⟩ := step_decides h
  obtain ⟨hmax, hsettled, hreturned⟩ := carryOut_level emptied d
  rw [PowerPolicy.next, hstep, ← hsame.level]
  refine ⟨hmax.trans hsame.maximum, fun i => ?_, hsettled, hreturned⟩
  rw [carryOut_source, hsame.learned, hsame.maximum]

theorem undecided_next (s : Logged) (call : Call) (i : Fin 2) : Undecided (s.next call) i ↔
    Undecided s i ∧ ∀ d, decision s.policy call = some d → ¬ Adjusts d i := by
  constructor
  · intro h
    exact ⟨fun e he => h e (List.mem_cons_of_mem _ he),
      fun d hd => h (entryOf s.policy call) List.mem_cons_self d hd⟩
  · rintro ⟨hbefore, hnow⟩ e he
    rcases List.mem_cons.mp he with rfl | he
    · exact hnow
    · exact hbefore e he

theorem laddered_next (h : Laddered s) (call : Call) : Laddered (s.next call) := by
  have hpolicy : (s.next call).policy = s.policy.next call := rfl
  cases hd : decision s.policy call with
  | none =>
    obtain ⟨_, hsame⟩ := step_undecided hd
    refine ⟨?_, fun i => ?_, ?_⟩
    · rw [hpolicy, hsame.maximum]
      exact h.maximum
    · have hkept : Undecided (s.next call) i ↔ Undecided s i :=
        (undecided_next s call i).trans (and_iff_left fun d hd' => nomatch hd.symm.trans hd')
      rw [hkept, hpolicy, PowerPolicy.floor, hsame.learned, hsame.maximum]
      exact h.learned i
    · rw [lastDecision_next, hd, Option.none_or, hpolicy, hsame.level, h.effective]
      cases s.lastDecision with
      | none => rfl
      | some d =>
        rw [settledLevel, settledLevel, hsame.maximum, hsame.learned]
  | some d =>
    obtain ⟨hmax, hsource, hsettled, _⟩ := next_decides hd
    refine ⟨?_, fun i => ?_, ?_⟩
    · rw [hpolicy, hmax]
      exact h.maximum
    · rw [undecided_next, hpolicy, PowerPolicy.floor, hsource, hmax]
      by_cases hadjusts : Adjusts d i
      · rw [if_pos hadjusts]
        refine .inr ⟨fun hnone => hnone.2 d hd hadjusts, learn_range h.maximum ?_⟩
        exact (h.learned i).imp And.left And.right
      · rw [if_neg hadjusts]
        have hkept : (Undecided s i ∧ ∀ d', decision s.policy call = some d' → ¬ Adjusts d' i) ↔
            Undecided s i := and_iff_left fun d' hd' => by
          cases hd.symm.trans hd'
          exact hadjusts
        rw [hkept]
        exact h.learned i
    · rw [lastDecision_next, hd, hpolicy]
      exact hsettled

theorem laddered_run (h : Laddered s) (calls : List Call) :
    Laddered (calls.foldl Logged.next s) := by
  induction calls generalizing s with
  | nil => exact h
  | cons call rest ih => exact ih (laddered_next h call)

theorem laddered_logged {maxLevel start : Int} (h : powerPolicyNew maxLevel start = some policy) :
    Laddered (logged policy) := by
  obtain ⟨hsound, _, _⟩ := powerPolicyNew_sound h
  rw [powerPolicyNew] at h
  split at h
  · cases h
  · cases h
    exact ⟨hsound.maximum, fun i => .inl ⟨rfl, fun e he => absurd he List.not_mem_nil⟩, rfl⟩

theorem effectiveLevel_nonneg (h : Laddered s) : 0 ≤ s.policy.effectiveLevel := by
  have hmax := h.maximum
  rw [h.effective]
  cases s.lastDecision with
  | none => exact le_rfl
  | some d =>
    rw [settledLevel]
    cases d.supply with
    | none =>
      have hmem := minimum_mem (n := 128) (by decide) hmax
      change 0 ≤ minimum 128 s.policy.maxLevel
      omega
    | some supply =>
      change 0 ≤ if d.full = true then s.policy.maxLevel else (s.policy.source supply).level
      split
      · omega
      · have hfloor := floor_mem hmax
        rcases h.learned supply with ⟨hzero, _⟩ | ⟨_, hlow, _⟩
        · omega
        · omega

theorem decision_status (h : decision policy call = some d) :
    d.supply = supplyOf call.status ∧ d.full = isFull call.status := by
  obtain ⟨window, _, rfl⟩ := Option.map_eq_some_iff.mp h
  exact ⟨rfl, rfl⟩

/-- A step from a state of a run. -/
theorem climbs_next (h : Laddered s) (call : Call) : Climbs s.policy call := by
  have hnonneg : 0 ≤ (s.policy.next call).effectiveLevel :=
    effectiveLevel_nonneg (laddered_next h call)
  cases hd : decision s.policy call with
  | none =>
    obtain ⟨hreturned, hsame⟩ := step_undecided hd
    refine ⟨fun i hmoved => ?_, .inl hreturned, ?_⟩
    · rw [hsame.learned] at hmoved
      exact absurd rfl hmoved
    · rw [hreturned, hsame.level]
      refine iff_of_false (fun heq => ?_) (not_not.mpr rfl)
      rw [hsame.level, ← heq] at hnonneg
      exact absurd hnonneg (by decide)
  | some d =>
    obtain ⟨_, hsource, _, hreturned⟩ := next_decides hd
    refine ⟨fun i hmoved => ?_, ?_, ?_⟩
    · by_cases hadjusts : Adjusts d i
      · obtain ⟨hsupply, hfull⟩ := decision_status hd
        refine ⟨hsupply.symm.trans hadjusts.1, hfull.symm.trans hadjusts.2, d, hd, ?_⟩
        rw [hsource, if_pos hadjusts]
        rcases h.learned i with ⟨hzero, _⟩ | ⟨_, hrange⟩
        · rcases learn_cases (s.policy.source i) s.policy.maxLevel d.average d.now with
            ⟨_, hfirst⟩ | ⟨hne, _⟩ | ⟨hne, _⟩ | ⟨hne, _⟩
          · exact .inl ⟨hzero, by rw [hfirst]; rfl⟩
          · exact absurd hzero hne
          · exact absurd hzero hne
          · exact absurd hzero hne
        · have hfloor := floor_mem h.maximum
          exact .inr (learn_moves hrange (by omega))
      · rw [hsource, if_neg hadjusts] at hmoved
        exact absurd rfl hmoved
    · rw [hreturned]
      split
      · exact .inr rfl
      · exact .inl rfl
    · rw [hreturned]
      by_cases hchanged : (s.policy.next call).effectiveLevel ≠ s.policy.effectiveLevel
      · rw [if_pos hchanged]
        exact iff_of_true rfl hchanged
      · rw [if_neg hchanged]
        exact iff_of_false (by omega) hchanged

theorem next_maximum (s : Logged) (call : Call) :
    (s.next call).policy.maxLevel = s.policy.maxLevel := by
  change (s.policy.next call).maxLevel = s.policy.maxLevel
  cases hd : decision s.policy call with
  | none => exact (step_undecided hd).2.maximum
  | some d => exact (next_decides hd).1

theorem run_maximum (s : Logged) (calls : List Call) :
    (calls.foldl Logged.next s).policy.maxLevel = s.policy.maxLevel := by
  induction calls generalizing s with
  | nil => rfl
  | cons call rest ih => exact (ih (s.next call)).trans (next_maximum s call)

/-- Over every run: the learned levels are in range for the given maximum, a step moves no level but
that of the supply it sampled, by at most sixteen and only as the average says, the level in effect is
that of the last decision, and a step returns it exactly when it changes. Sixteen above a level is an
`int` for every maximum up to 2147483631. -/
theorem levels_laddered {maxLevel start : Int} (hnew : powerPolicyNew maxLevel start = some policy)
    (calls : List Call) (call : Call) :
    Laddered (calls.foldl Logged.next (logged policy)) ∧
      Climbs (calls.foldl Logged.next (logged policy)).policy call ∧
      (calls.foldl Logged.next (logged policy)).policy.maxLevel = maxLevel ∧
      (maxLevel ≤ 2147483631 → ∀ i : Fin 2,
        ((calls.foldl Logged.next (logged policy)).policy.source i).level + 16 ≤ 2147483647) := by
  have hladdered := laddered_run (laddered_logged hnew) calls
  have hmaximum := (run_maximum (logged policy) calls).trans (powerPolicyNew_sound hnew).2.1
  refine ⟨hladdered, climbs_next hladdered call, hmaximum, fun hint i => ?_⟩
  rcases hladdered.learned i with ⟨hzero, _⟩ | ⟨_, _, hhigh⟩
  · omega
  · omega

end Runs

/-- The ladder on a panel with the levels up to 255, as a supply is plugged in and gains. -/
theorem plugged_laddered :
    Laddered ([prompt 0 (-300000) 10000, prompt 1 200000 20000, prompt 1 200000 30000].foldl
        Logged.next (logged policy255)) ∧
      Climbs ([prompt 0 (-300000) 10000, prompt 1 200000 20000, prompt 1 200000 30000].foldl
        Logged.next (logged policy255)).policy (prompt 1 200000 40000) := by
  have hnew : powerPolicyNew 255 0 = some policy255 := (Option.some_get rfl).symm
  obtain ⟨hladdered, hclimbs, _⟩ := levels_laddered hnew _ _
  exact ⟨hladdered, hclimbs⟩

end Taq102.Runtime
