import Taq102.Runtime.PowerLadder

/-! The levels that failed on a supply, and how long they are not tried again. -/
namespace Taq102.Runtime
open Taq102.Lib Transition

/-- What became of the levels tried on a supply: the level it was raised to and is still at, with
the time, and the levels it lost within a minute of that, with the times of the drops. -/
structure Trial where
  raised : Option (Int × Int)
  failed : List (Int × Int)

/-- The level of the raise that a drop takes back within a minute. -/
def Trial.lost (t : Trial) (now : Int) : List (Int × Int) :=
  match t.raised with
  | some (level, since) => if now - since ≤ 60000 then [(level, now)] else []
  | none => []

/-- The level of the supply goes from one to the other. -/
def Trial.next (t : Trial) (before after now : Int) : Trial :=
  if before < after then { t with raised := some (after, now) }
  else if after < before then { raised := none, failed := t.lost now ++ t.failed }
  else t

/-- The policy with the trials of its supplies. -/
structure Tried where
  policy : PowerPolicy
  trial : Fin 2 → Trial

def Tried.next (s : Tried) (call : Call) : Tried where
  policy := s.policy.next call
  trial i := (s.trial i).next (s.policy.source i).level ((s.policy.next call).source i).level call.now

/-- A policy that has tried nothing. -/
def untried (policy : PowerPolicy) : Tried where
  policy
  trial _ := { raised := none, failed := [] }

/-- The call raises a supply to a level that failed on it less than ten minutes ago. -/
def Retries (s : Tried) (call : Call) : Prop :=
  ∃ i time, (s.policy.source i).level < ((s.policy.next call).source i).level ∧
    (((s.policy.next call).source i).level, time) ∈ (s.trial i).failed ∧ call.now - time < 600000

/-- A drop takes back a raise within a minute while another level of the supply is remembered, which
failed less than ten minutes ago. -/
def Overwrites (state : SourcePolicy) (floor average now : Int) : Prop :=
  state.level ≠ 0 ∧ average < -50000 ∧ state.level ≠ floor ∧ state.lastUpLevel = state.level ∧
    now - state.lastUpAtMs ≤ 60000 ∧ state.failedLevel ≠ 0 ∧ state.failedLevel ≠ state.level ∧
      now - state.failedAtMs < 600000

/-- The call forgets a failed level for another. -/
def Forgets (policy : PowerPolicy) (call : Call) : Prop :=
  ∃ d i, decision policy call = some d ∧ Adjusts d i ∧
    Overwrites (policy.source i) policy.floor d.average d.now

/-- What the state of a supply remembers of its trials. -/
structure Recalls (floor clock : Int) (state : SourcePolicy) (t : Trial) : Prop where
  raised : ∀ level since, t.raised = some (level, since) → level = state.level ∧
    (level = floor ∨ state.lastUpLevel = level ∧ state.lastUpAtMs = since)
  failed : ∀ level time, (level, time) ∈ t.failed → level ≠ floor ∧ state.failedLevel ≠ 0 ∧
    (level = state.failedLevel ∧ time ≤ state.failedAtMs ∨ time + 600000 ≤ state.failedAtMs)
  past : state.failedLevel ≠ 0 → state.failedAtMs ≤ clock

section Trials
variable {floor maximum clock now average : Int} {state : SourcePolicy} {t : Trial}

theorem Trial.next_same (t : Trial) (level now : Int) : t.next level level now = t := by
  rw [Trial.next, if_neg (by omega), if_neg (by omega)]

theorem Recalls.later (h : Recalls floor clock state t) (hle : clock ≤ now) :
    Recalls floor now state t := ⟨h.raised, h.failed, fun hf => (h.past hf).trans hle⟩

/-- The supply goes to its first level. -/
theorem recalls_first (h : Recalls floor clock state t) (hle : clock ≤ now) (hzero : state.level = 0)
    (hfloor : 8 ≤ floor) :
    Recalls floor now { state with level := floor } (t.next state.level floor now) := by
  have hup : state.level < floor := by omega
  rw [Trial.next, if_pos hup]
  refine ⟨fun level since hraised => ?_, h.failed, (h.later hle).past⟩
  cases hraised
  exact ⟨rfl, .inl rfl⟩

theorem recalls_raise (h : Recalls floor clock state t) (hle : clock ≤ now)
    (hlt : state.level < maximum) :
    Recalls floor now (raise state maximum now)
        (t.next state.level (raise state maximum now).level now) ∧
      (state.level < (raise state maximum now).level →
        ∀ time, ((raise state maximum now).level, time) ∈ t.failed → time + 600000 ≤ now) := by
  have hup : state.level < candidateUp state.level maximum := by
    rw [candidateUp]
    split <;> omega
  rw [raise]
  split
  · rw [Trial.next_same]
    exact ⟨h.later hle, fun hmoved => absurd hmoved (lt_irrefl _)⟩
  rename_i hfree
  refine ⟨?_, fun _ time hfailed => ?_⟩
  · rw [Trial.next, if_pos hup]
    refine ⟨fun level since hraised => ?_, h.failed, (h.later hle).past⟩
    cases hraised
    exact ⟨rfl, .inr ⟨rfl, rfl⟩⟩
  · obtain ⟨_, hne, hrecent | hold⟩ := h.failed _ time hfailed
    · have hwaited : ¬ now - state.failedAtMs < 600000 := fun hsoon => hfree ⟨hrecent.1, hsoon⟩
      omega
    · have hpast := h.past hne
      omega

theorem recalls_lower (h : Recalls floor clock state t) (hle : clock ≤ now) (hne : state.level ≠ 0)
    (hloss : average < -50000) (habove : state.level ≠ floor) (hfloor : floor ≤ state.level)
    (hkeeps : ¬ Overwrites state floor average now) :
    Recalls floor now (lower state floor now) (t.next state.level (lower state floor now).level now) := by
  have hdown : (lower state floor now).level < state.level := by
    rw [lower_level]
    split <;> omega
  rw [Trial.next, if_neg (by omega), if_pos hdown]
  have hlost (level time : Int) (hin : (level, time) ∈ t.lost now) : level = state.level ∧
      time = now ∧ state.lastUpLevel = state.level ∧ now - state.lastUpAtMs ≤ 60000 := by
    rw [Trial.lost] at hin
    cases hraised : t.raised with
    | none =>
      rw [hraised] at hin
      exact absurd hin List.not_mem_nil
    | some r =>
      obtain ⟨hat, hfrom⟩ := h.raised r.1 r.2 hraised
      obtain ⟨hup, hsince⟩ := hfrom.resolve_left (by omega)
      rw [hraised] at hin
      dsimp only at hin
      split at hin
      · cases List.mem_singleton.mp hin
        exact ⟨hat, rfl, by omega, by omega⟩
      · exact absurd hin List.not_mem_nil
  rw [lower]
  dsimp only
  split
  · rename_i hmarks
    refine ⟨fun _ _ hraised => ?_, fun level time hin => ?_, fun _ => le_rfl⟩
    · cases hraised
    change level ≠ floor ∧ state.lastUpLevel ≠ 0 ∧
      (level = state.lastUpLevel ∧ time ≤ now ∨ time + 600000 ≤ now)
    have hmarked := hmarks.1
    rcases List.mem_append.mp hin with hnew | hold
    · obtain ⟨hlevel, htime, hup, _⟩ := hlost level time hnew
      exact ⟨by omega, by omega, .inl ⟨by omega, htime.le⟩⟩
    · obtain ⟨hbelow, hmemory, hwhen⟩ := h.failed level time hold
      have hpast := h.past hmemory
      refine ⟨hbelow, by omega, ?_⟩
      by_cases hsame : state.failedLevel = state.level
      · rcases hwhen with ⟨hlevel, htime⟩ | hlong
        · exact .inl ⟨by omega, by omega⟩
        · exact .inr (by omega)
      · have hlong : 600000 ≤ now - state.failedAtMs := by
          by_contra hsoon
          exact hkeeps ⟨hne, hloss, habove, hmarks.1, hmarks.2, hmemory, hsame, by omega⟩
        refine .inr ?_
        rcases hwhen with ⟨_, htime⟩ | hwaited
        · omega
        · omega
  · rename_i hunmarked
    refine ⟨fun _ _ hraised => ?_, fun level time hin => ?_, (h.later hle).past⟩
    · cases hraised
    rcases List.mem_append.mp hin with hnew | hold
    · obtain ⟨_, _, hup, hsoon⟩ := hlost level time hnew
      exact absurd ⟨hup, hsoon⟩ hunmarked
    · exact h.failed level time hold

/-- A decision on the supply. -/
theorem recalls_learn (h : Recalls (minimum 40 maximum) clock state t) (hle : clock ≤ now)
    (hmax : 8 ≤ maximum)
    (hrange : state.level = 0 ∨ minimum 40 maximum ≤ state.level ∧ state.level ≤ maximum)
    (hkeeps : ¬ Overwrites state (minimum 40 maximum) average now) :
    Recalls (minimum 40 maximum) now (learn state maximum average now).1
        (t.next state.level (learn state maximum average now).1.level now) ∧
      (state.level < (learn state maximum average now).1.level →
        ∀ time, ((learn state maximum average now).1.level, time) ∈ t.failed →
          time + 600000 ≤ now) := by
  have hfloor := minimum_mem (n := 40) (by decide) hmax
  rcases learn_cases state maximum average now with ⟨hzero, hlearn⟩ | ⟨hne, hloss, habove, hlearn⟩ |
    ⟨hne, _, hlt, hlearn⟩ | ⟨_, hlearn⟩
  · rw [hlearn]
    refine ⟨recalls_first h hle hzero hfloor.1, fun _ time hfailed => ?_⟩
    exact absurd rfl (h.failed _ time hfailed).1
  · rw [hlearn]
    obtain ⟨hlow, _⟩ := hrange.resolve_left hne
    refine ⟨recalls_lower h hle hne hloss habove hlow hkeeps, fun hup => ?_⟩
    rw [lower_level] at hup
    split at hup <;> omega
  · rw [hlearn]
    exact recalls_raise h hle hlt
  · rw [hlearn, Trial.next_same]
    exact ⟨h.later hle, fun hmoved => absurd hmoved (lt_irrefl _)⟩

end Trials

/-! The runs. -/

/-- Every supply is in range and recalls its trials. -/
structure Remembers (clock : Int) (s : Tried) : Prop where
  maximum : 8 ≤ s.policy.maxLevel
  range : ∀ i, (s.policy.source i).level = 0 ∨
    s.policy.floor ≤ (s.policy.source i).level ∧ (s.policy.source i).level ≤ s.policy.maxLevel
  recalls : ∀ i, Recalls s.policy.floor clock (s.policy.source i) (s.trial i)

section Runs
variable {s : Tried} {call : Call} {clock : Int} {policy : PowerPolicy}

/-- A step that forgets nothing: the memory is kept, and no raise comes too early. -/
theorem remembers_next (h : Remembers clock s) (hle : clock ≤ call.now)
    (hkeeps : ¬ Forgets s.policy call) : Remembers call.now (s.next call) ∧ ¬ Retries s call := by
  have hpolicy : (s.next call).policy = s.policy.next call := rfl
  cases hd : decision s.policy call with
  | none =>
    obtain ⟨_, hsame⟩ := step_undecided hd
    refine ⟨⟨?_, fun i => ?_, fun i => ?_⟩, ?_⟩
    · rw [hpolicy, hsame.maximum]
      exact h.maximum
    · rw [hpolicy, PowerPolicy.floor, hsame.learned, hsame.maximum]
      exact h.range i
    · have htrial : (s.next call).trial i = s.trial i := by
        change (s.trial i).next _ ((s.policy.next call).source i).level call.now = _
        rw [hsame.learned, Trial.next_same]
      rw [htrial, hpolicy, PowerPolicy.floor, hsame.learned, hsame.maximum]
      exact (h.recalls i).later hle
    · rintro ⟨i, time, hup, _⟩
      rw [hsame.learned] at hup
      exact absurd hup (lt_irrefl _)
  | some d =>
    obtain ⟨hmax, hsource, _⟩ := next_decides hd
    have hnow := decision_now hd
    have hmoved (i : Fin 2) (hadjusts : Adjusts d i) :
        (s.policy.next call).source i =
            (learn (s.policy.source i) s.policy.maxLevel d.average call.now).1 ∧
          ¬ Overwrites (s.policy.source i) s.policy.floor d.average call.now := by
      rw [hsource, if_pos hadjusts, hnow]
      exact ⟨rfl, fun hover => hkeeps ⟨d, i, hd, hadjusts, by rwa [hnow]⟩⟩
    have hstays (i : Fin 2) (hother : ¬ Adjusts d i) :
        (s.policy.next call).source i = s.policy.source i := by
      rw [hsource, if_neg hother]
    refine ⟨⟨?_, fun i => ?_, fun i => ?_⟩, ?_⟩
    · rw [hpolicy, hmax]
      exact h.maximum
    · rw [hpolicy, PowerPolicy.floor, hmax]
      by_cases hadjusts : Adjusts d i
      · rw [(hmoved i hadjusts).1]
        exact .inr (learn_range h.maximum (h.range i))
      · rw [hstays i hadjusts]
        exact h.range i
    · have htrial : (s.next call).trial i = (s.trial i).next (s.policy.source i).level
          ((s.policy.next call).source i).level call.now := rfl
      rw [htrial, hpolicy, PowerPolicy.floor, hmax]
      by_cases hadjusts : Adjusts d i
      · obtain ⟨hlearn, hkept⟩ := hmoved i hadjusts
        rw [hlearn]
        exact (recalls_learn (h.recalls i) hle h.maximum (h.range i) hkept).1
      · rw [hstays i hadjusts, Trial.next_same]
        exact (h.recalls i).later hle
    · rintro ⟨i, time, hup, hfailed, hsoon⟩
      by_cases hadjusts : Adjusts d i
      · obtain ⟨hlearn, hkept⟩ := hmoved i hadjusts
        rw [hlearn] at hup hfailed
        have hwaited :=
          (recalls_learn (h.recalls i) hle h.maximum (h.range i) hkept).2 hup time hfailed
        omega
      · rw [hstays i hadjusts] at hup
        exact absurd hup (lt_irrefl _)

theorem remembers_untried {maxLevel start : Int} (hnew : powerPolicyNew maxLevel start = some policy)
    (clock : Int) : Remembers clock (untried policy) := by
  obtain ⟨hsound, _, _⟩ := powerPolicyNew_sound hnew
  rw [powerPolicyNew] at hnew
  split at hnew
  · cases hnew
  · cases hnew
    refine ⟨hsound.maximum, fun _ => .inl rfl, fun _ => ⟨fun _ _ hraised => ?_, fun _ _ hin => ?_,
      fun hne => absurd rfl hne⟩⟩
    · cases hraised
    · exact absurd hin List.not_mem_nil

theorem Remembers.later {now : Int} (h : Remembers clock s) (hle : clock ≤ now) : Remembers now s :=
  ⟨h.maximum, h.range, fun i => (h.recalls i).later hle⟩

theorem remembers_run {maxLevel start : Int} (hnew : powerPolicyNew maxLevel start = some policy)
    {calls : List Call} (hmono : calls.Pairwise fun a b => a.now ≤ b.now)
    (hkeeps : ∀ first call rest, calls = first ++ call :: rest →
      ¬ Forgets (first.foldl Tried.next (untried policy)).policy call)
    (hclock : ∀ call ∈ calls, call.now ≤ clock) :
    Remembers clock (calls.foldl Tried.next (untried policy)) := by
  induction calls using List.reverseRecOn generalizing clock with
  | nil => exact remembers_untried hnew clock
  | append_singleton calls call ih =>
    obtain ⟨hbefore, _, hlater⟩ := List.pairwise_append.mp hmono
    have hremembers : Remembers call.now (calls.foldl Tried.next (untried policy)) := by
      refine ih hbefore (fun first c rest heq => ?_) fun c hc => hlater c hc call List.mem_cons_self
      exact hkeeps first c (rest ++ [call]) (by rw [heq, List.append_assoc]; rfl)
    rw [List.foldl_append]
    have hnext := (remembers_next hremembers le_rfl (hkeeps calls call [] rfl)).1
    exact hnext.later (hclock call (by simp))

/-- In a run that forgets no failed level for another, a level that failed is not tried again for ten
minutes. -/
theorem failed_level_waits {maxLevel start : Int}
    (hnew : powerPolicyNew maxLevel start = some policy) {calls : List Call}
    (hmono : calls.Pairwise fun a b => a.now ≤ b.now)
    (hkeeps : ∀ first call rest, calls = first ++ call :: rest →
      ¬ Forgets (first.foldl Tried.next (untried policy)).policy call) :
    ∀ first call rest, calls = first ++ call :: rest →
      ¬ Retries (first.foldl Tried.next (untried policy)) call := by
  intro first call rest heq
  have hparts := heq ▸ hmono
  obtain ⟨hfirst, hrest, hlater⟩ := List.pairwise_append.mp hparts
  have hremembers := remembers_run hnew hfirst (fun before c after heq' =>
    hkeeps before c (after ++ call :: rest) (by rw [heq, heq', List.append_assoc]; rfl))
    fun c hc => hlater c hc call List.mem_cons_self
  exact (remembers_next hremembers le_rfl (hkeeps first call rest heq)).2

end Runs

section Samples

instance (state : SourcePolicy) (floor average now : Int) :
    Decidable (Overwrites state floor average now) := inferInstanceAs (Decidable (_ ∧ _))

instance (policy : PowerPolicy) (call : Call) : Decidable (Forgets policy call) :=
  match hd : decision policy call with
  | none => isFalse (by
      rintro ⟨d, _, hd', _⟩
      cases hd.symm.trans hd')
  | some d => decidable_of_iff
      (∃ i, Adjusts d i ∧ Overwrites (policy.source i) policy.floor d.average d.now) (by
    constructor
    · rintro ⟨i, hadjusts, hover⟩
      exact ⟨d, i, hd, hadjusts, hover⟩
    · rintro ⟨d', i, hd', hadjusts, hover⟩
      cases hd.symm.trans hd'
      exact ⟨i, hadjusts, hover⟩)

/-- A decision every thirty seconds on a computer's supply, each on three equal currents. -/
def periods (currents : List Int) : List Call :=
  currents.zipIdx.flatMap fun period =>
    [10000, 20000, 30000].map fun after => prompt 1 period.1 (30000 * period.2 + after)

/-- Up once and down again; a level that fails is left alone while the supply gains. -/
def failingOnce : List Call := periods [0, 200000, -200000, 200000, 200000]

theorem failed_once_waits :
    ¬ Retries ((failingOnce.take 14).foldl Tried.next (untried policy255)) (prompt 1 200000 150000) := by
  have hnew : powerPolicyNew 255 0 = some policy255 := (Option.some_get rfl).symm
  have hadmits : Admits Tried.next (fun s call => ¬ Forgets s.policy call) (untried policy255)
      failingOnce := by
    decide +kernel
  have hlast : failingOnce = failingOnce.take 14 ++ prompt 1 200000 150000 :: [] := rfl
  exact failed_level_waits hnew (by decide) hadmits.at_split _ _ [] hlast

/-- The policy of a panel with the levels up to 79. -/
def policy79 : PowerPolicy := (powerPolicyNew 79 0).get rfl

/-- Up to 79, which fails; then 63 fails on the way down, and with 79 forgotten the supply climbs
back to it. -/
def forgetful : List Call :=
  periods [0, 200000, 200000, 200000, -200000, -200000, 200000, -200000, -200000, 200000, 200000,
    200000]

/-- The level that failed is tried again 210 seconds after the drop. -/
theorem forgotten_level_retried : forgetful.Pairwise (fun a b => a.now ≤ b.now) ∧
    ∃ first call, forgetful = first ++ [call] ∧
      Retries (first.foldl Tried.next (untried policy79)) call := by
  refine ⟨by decide, forgetful.take 35, prompt 1 200000 360000, by rfl, 0, 150000, ?_, ?_, by decide⟩
  · decide +kernel
  · decide +kernel

end Samples

end Taq102.Runtime
