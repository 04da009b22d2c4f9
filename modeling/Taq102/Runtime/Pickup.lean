import Taq102.Lib.Streak
import Taq102.Runtime.SleepState

/-! Picking the tablet up (`pickup_start`, `pickup_feed`): the detector's counters against the
history of the samples it accepted, the newest first. -/
namespace Taq102.Runtime
open Taq102.Lib

/-- A reading of the accelerometer in mg, with its time. -/
structure AccelSample where
  x : Int
  y : Int
  z : Int
  atMs : Int
  deriving DecidableEq, Repr

/-- No axis differs by more than the limit. -/
def Within (limit : Nat) (a b : AccelSample) : Prop :=
  (a.x - b.x).natAbs ≤ limit ∧ (a.y - b.y).natAbs ≤ limit ∧ (a.z - b.z).natAbs ≤ limit

instance (limit : Nat) : DecidableRel (Within limit) := fun a b => by
  unfold Within
  infer_instance

/-- The newest three samples each stayed within 60 mg of the one before. -/
def Settles (seen : List AccelSample) : Prop :=
  3 ≤ seen.length ∧ (seen.take 3).IsChain (Within 60)

instance (seen : List AccelSample) : Decidable (Settles seen) :=
  inferInstanceAs (Decidable (_ ∧ _))

/-- The third of the first three samples that settled. -/
def baseline : List AccelSample → Option AccelSample
  | [] => none
  | s :: before =>
    match baseline before with
    | some base => some base
    | none => if Settles (s :: before) then some s else none

/-- The samples after the baseline. -/
def sinceBaseline : List AccelSample → List AccelSample
  | [] => []
  | s :: before => if (baseline before).isSome then s :: sinceBaseline before else []

/-- The sample is later than those before it, and a first baseline is not sought too early. -/
def Accepts (start : Int) (seen : List AccelSample) (s : AccelSample) : Prop :=
  (∀ e ∈ seen, e.atMs < s.atMs) ∧ (baseline seen = none → addDurationSaturated start 2000 ≤ s.atMs)

instance (start : Int) (seen : List AccelSample) (s : AccelSample) :
    Decidable (Accepts start seen s) :=
  inferInstanceAs (Decidable (_ ∧ _))

/-- The samples accepted of those fed, which are given in their order. -/
def acceptedSamples (start : Int) (fed : List AccelSample) : List AccelSample :=
  fed.foldl (fun seen s => if Accepts start seen s then s :: seen else seen) []

/-- The newest three samples came after the baseline, each more than 150 mg from it on an axis. -/
def Wakes (seen : List AccelSample) : Prop :=
  ∃ base ∈ baseline seen, 3 ≤ (sinceBaseline seen).length ∧
    ∀ e ∈ (sinceBaseline seen).take 3, ¬ Within 150 base e

/-- The detector after the samples. -/
def pickupFeeds (pickup : Pickup) (fed : List AccelSample) : Pickup :=
  fed.foldl (fun pickup s => (pickupFeed pickup s.x s.y s.z s.atMs).2) pickup

/-- The detector's baseline. -/
def Pickup.base (pickup : Pickup) : Option (Int × Int × Int) :=
  if pickup.haveBase then some (pickup.bx, pickup.by, pickup.bz) else none

def AccelSample.axes (s : AccelSample) : Int × Int × Int := (s.x, s.y, s.z)

theorem differsBy_eq (sample reference : Int) (limit : Nat) :
    differsBy sample reference limit = !decide ((sample - reference).natAbs ≤ limit) := by
  rw [differsBy, ← decide_not, ← Bool.decide_or]
  apply decide_eq_decide.mpr
  omega

theorem differs_within (a b : AccelSample) (limit : Nat) :
    (differsBy a.x b.x limit || differsBy a.y b.y limit || differsBy a.z b.z limit) =
      !decide (Within limit a b) := by
  rw [differsBy_eq, differsBy_eq, differsBy_eq]
  by_cases h : Within limit a b
  · rw [decide_eq_true h, decide_eq_true h.1, decide_eq_true h.2.1, decide_eq_true h.2.2]
    rfl
  · rw [decide_eq_false h]
    rw [Within, not_and_or, not_and_or] at h
    rcases h with h | h | h <;> simp only [decide_eq_false h, Bool.not_false, Bool.true_or, Bool.or_true]

/-- The votes of the detector, for the samples it accepted. -/
structure Follows (start : Int) (pickup : Pickup) (seen : List AccelSample) : Prop where
  started : pickup.sleptAtMs = start
  last : pickup.lastSampleMs = (seen.head?.map AccelSample.atMs).getD int64Min
  ordered : seen.Pairwise fun newer older => older.atMs < newer.atMs
  base : pickup.base = (baseline seen).map AccelSample.axes
  votes : ∀ base ∈ baseline seen,
    pickup.votes = Streak.tally (fun e => !decide (Within 150 base e)) (sinceBaseline seen)
  watching : baseline seen = none → pickup.votes = 0 ∧ pickup.haveSettle = !seen.isEmpty ∧
    pickup.settleVotes = Streak.stretch (Within 60) seen ∧
    ∀ e ∈ seen.head?, (pickup.sx, pickup.sy, pickup.sz) = e.axes

theorem baseline_kept {s base : AccelSample} {before : List AccelSample}
    (h : baseline before = some base) : baseline (s :: before) = some base := by
  rw [baseline, h]

theorem baseline_next {s : AccelSample} {before : List AccelSample} (h : baseline before = none) :
    baseline (s :: before) = if Settles (s :: before) then some s else none := by
  rw [baseline, h]

theorem sinceBaseline_cons {s base : AccelSample} {before : List AccelSample}
    (h : baseline before = some base) : sinceBaseline (s :: before) = s :: sinceBaseline before := by
  rw [sinceBaseline, h]
  rfl

theorem follows_start (start : Int) : Follows start (pickupStart start) [] where
  started := rfl
  last := rfl
  ordered := .nil
  base := rfl
  votes := by
    intro base hbase
    cases hbase
  watching := by
    intro _
    refine ⟨rfl, rfl, rfl, ?_⟩
    intro e he
    cases he

section Step
variable {start : Int} {pickup : Pickup} {seen : List AccelSample} {s : AccelSample}

/-- The detector compares with the newest sample only, the samples being in order. -/
theorem Follows.later (h : Follows start pickup seen) (hs : seen = [] → int64Min < s.atMs) :
    ¬ s.atMs ≤ pickup.lastSampleMs ↔ ∀ e ∈ seen, e.atMs < s.atMs := by
  rw [h.last, Int.not_le]
  cases seen with
  | nil => simpa using hs rfl
  | cons newest older =>
    have hordered := List.pairwise_cons.mp h.ordered
    constructor
    · intro hlater e he
      have hnewest : newest.atMs < s.atMs := hlater
      rcases List.mem_cons.mp he with rfl | he
      · exact hnewest
      · exact Int.lt_trans (hordered.1 e he) hnewest
    · intro hall
      exact hall newest List.mem_cons_self

theorem Follows.haveBase (h : Follows start pickup seen) :
    pickup.haveBase = (baseline seen).isSome := by
  have hbase := congrArg Option.isSome h.base
  rw [Option.isSome_map] at hbase
  rw [← hbase, Pickup.base]
  cases pickup.haveBase <;> rfl

/-- The vote of `settled`, with the sample it remembers. -/
def Pickup.remember (pickup : Pickup) (s : AccelSample) (seen : List AccelSample) : Pickup :=
  { pickup with
    haveSettle := true
    sx := s.x
    sy := s.y
    sz := s.z
    settleVotes := Streak.stretch (Within 60) (s :: seen) }

theorem settled_eq (hhave : pickup.haveSettle = !seen.isEmpty)
    (hvotes : pickup.settleVotes = Streak.stretch (Within 60) seen)
    (hlast : ∀ e ∈ seen.head?, (pickup.sx, pickup.sy, pickup.sz) = e.axes) :
    settled pickup s.x s.y s.z = (decide (Settles (s :: seen)), pickup.remember s seen) := by
  have hthree : Settles (s :: seen) ↔ 3 ≤ Streak.stretch (Within 60) (s :: seen) :=
    Streak.le_stretch.symm
  have hcount : settled pickup s.x s.y s.z =
      (decide ((pickup.remember s seen).settleVotes ≥ 3), pickup.remember s seen) := by
    cases seen with
    | nil =>
      simp only [settled, hhave]
      rfl
    | cons newest older =>
      have haxes := hlast newest rfl
      simp only [AccelSample.axes, Prod.mk.injEq] at haxes
      obtain ⟨hx, hy, hz⟩ := haxes
      have hdiffers : (differsBy s.x newest.x 60 || differsBy s.y newest.y 60 ||
          differsBy s.z newest.z 60) = !decide (Within 60 s newest) := differs_within s newest 60
      by_cases hnear : Within 60 s newest
      · simp only [settled, hhave, hx, hy, hz, List.isEmpty_cons, Bool.not_false, Bool.not_true,
          Bool.false_eq_true, if_false, Pickup.remember, Streak.stretch, if_pos hnear, hvotes, hdiffers,
          decide_eq_true hnear]
        rfl
      · simp only [settled, hhave, hx, hy, hz, List.isEmpty_cons, Bool.not_false, Bool.not_true,
          Bool.false_eq_true, if_false, if_true, Pickup.remember, Streak.stretch, if_neg hnear, hdiffers,
          decide_eq_false hnear]
        rfl
  rw [hcount]
  congr 1
  apply decide_eq_decide.mpr
  rw [hthree]
  exact Int.ofNat_le

theorem due_late {now : Int} (hstart : int64Min ≤ start)
    (hdue : addDurationSaturated start 2000 ≤ now) : int64Min < now := by
  rw [addDurationSaturated] at hdue
  unfold int64Min int64Max at *
  split at hdue <;> omega

/-- The two tests of `pickup_feed` together accept the sample. -/
theorem Follows.accepts_iff (h : Follows start pickup seen) (hstart : int64Min ≤ start) :
    Accepts start seen s ↔ (baseline seen = none → baselineDue pickup s.atMs = true) ∧
      ¬ s.atMs ≤ pickup.lastSampleMs := by
  have hdue : baselineDue pickup s.atMs = true ↔ addDurationSaturated start 2000 ≤ s.atMs := by
    rw [baselineDue, h.started, decide_eq_true_eq]
  rw [Accepts, and_comm, hdue]
  refine and_congr_right fun hready => (h.later ?_).symm
  rintro rfl
  exact due_late hstart (hready rfl)

/-- Until there is a baseline, an accepted sample is remembered, and may become it. -/
theorem Follows.watches (h : Follows start pickup seen) (hstart : int64Min ≤ start)
    (hnone : baseline seen = none) :
    pickupFeed pickup s.x s.y s.z s.atMs = (false,
      if Accepts start seen s then
        let next := { pickup with lastSampleMs := s.atMs }.remember s seen
        if Settles (s :: seen) then { next with bx := s.x, «by» := s.y, bz := s.z, haveBase := true }
        else next
      else pickup) := by
  obtain ⟨_, hhave, hvotes, hlast⟩ := h.watching hnone
  have hbase : pickup.haveBase = false := by
    rw [h.haveBase, hnone]
    rfl
  have hstill : settled { pickup with lastSampleMs := s.atMs } s.x s.y s.z =
      (decide (Settles (s :: seen)), { pickup with lastSampleMs := s.atMs }.remember s seen) :=
    settled_eq hhave hvotes hlast
  have haccepts := h.accepts_iff hstart (s := s)
  simp only [hnone, true_imp_iff] at haccepts
  rw [pickupFeed, hstill, hbase]
  by_cases hs : Accepts start seen s
  · obtain ⟨hdue, hlater⟩ := haccepts.mp hs
    simp only [if_pos hs, hdue, if_neg hlater, Bool.not_false, Bool.not_true, Bool.false_eq_true, if_false,
      if_true]
    by_cases hsettles : Settles (s :: seen) <;> simp [hsettles]
  · have hrefused : baselineDue pickup s.atMs = true → s.atMs ≤ pickup.lastSampleMs := fun hdue =>
      not_not.mp fun hlater => hs (haccepts.mpr ⟨hdue, hlater⟩)
    rw [if_neg hs]
    cases hdue : baselineDue pickup s.atMs with
    | false => rfl
    | true => simp [hrefused hdue]

/-- After the baseline, an accepted sample is a vote for or against. -/
theorem Follows.votes_on {base : AccelSample} (h : Follows start pickup seen) (hstart : int64Min ≤ start)
    (hsome : baseline seen = some base) :
    pickupFeed pickup s.x s.y s.z s.atMs =
      if Accepts start seen s then
        (decide (3 ≤ Streak.tally (fun e => !decide (Within 150 base e)) (s :: sinceBaseline seen)),
          { pickup with
            lastSampleMs := s.atMs
            votes := Streak.tally (fun e => !decide (Within 150 base e)) (s :: sinceBaseline seen) })
      else (false, pickup) := by
  have hvotes := h.votes base hsome
  have hhave : pickup.haveBase = true := by
    rw [h.haveBase, hsome]
    rfl
  have haxes := h.base
  rw [Pickup.base, if_pos hhave, hsome] at haxes
  simp only [Option.map_some, AccelSample.axes, Option.some.injEq, Prod.mk.injEq] at haxes
  obtain ⟨hx, hy, hz⟩ := haxes
  have hmoved : (movedBeyondThreshold s.x base.x || movedBeyondThreshold s.y base.y ||
      movedBeyondThreshold s.z base.z) = !decide (Within 150 s base) := differs_within s base 150
  have hsymm : Within 150 s base ↔ Within 150 base s := by
    unfold Within
    omega
  have haccepts := h.accepts_iff hstart (s := s)
  simp only [hsome, reduceCtorEq, false_imp_iff, true_and] at haccepts
  rw [pickupFeed, hhave, Streak.tally_cons]
  by_cases hs : Accepts start seen s
  · simp only [if_pos hs, if_neg (haccepts.mp hs), Bool.not_true, Bool.false_eq_true, if_false, hx, hy, hz,
      hmoved, hsymm, hvotes]
    by_cases hnear : Within 150 base s
    · simp [hnear]
    · simp [hnear]
      omega
  · rw [if_neg hs]
    simp [not_not.mp (mt haccepts.mpr hs)]

theorem Follows.newest (h : Follows start pickup seen) (hs : Accepts start seen s) :
    (s :: seen).Pairwise fun newer older => older.atMs < newer.atMs :=
  List.pairwise_cons.mpr ⟨hs.1, h.ordered⟩

theorem feed_follows (h : Follows start pickup seen) (hstart : int64Min ≤ start) (s : AccelSample) :
    Follows start (pickupFeed pickup s.x s.y s.z s.atMs).2
      (if Accepts start seen s then s :: seen else seen) := by
  cases hseen : baseline seen with
  | none =>
    rw [h.watches hstart hseen]
    by_cases hs : Accepts start seen s
    · obtain ⟨hvotes, _, _, _⟩ := h.watching hseen
      have hhave : pickup.haveBase = false := by
        rw [h.haveBase, hseen]
        rfl
      have hsince : sinceBaseline (s :: seen) = [] := by
        rw [sinceBaseline, hseen]
        rfl
      have hnext := baseline_next (s := s) hseen
      simp only [if_pos hs]
      by_cases hsettles : Settles (s :: seen)
      · rw [if_pos hsettles] at hnext
        rw [if_pos hsettles]
        refine ⟨h.started, rfl, h.newest hs, ?_, ?_, ?_⟩
        · rw [hnext]
          rfl
        · intro base _
          rw [hsince]
          exact hvotes
        · intro hnone
          rw [hnext] at hnone
          cases hnone
      · rw [if_neg hsettles] at hnext
        rw [if_neg hsettles]
        refine ⟨h.started, rfl, h.newest hs, ?_, ?_, ?_⟩
        · rw [hnext, Pickup.base]
          exact if_neg (by rw [Pickup.remember, hhave]; exact Bool.false_ne_true)
        · intro base hbase
          rw [hnext] at hbase
          cases hbase
        · intro _
          refine ⟨hvotes, rfl, rfl, ?_⟩
          intro e he
          cases he
          rfl
    · simp only [if_neg hs]
      exact h
  | some base =>
    rw [h.votes_on hstart hseen]
    by_cases hs : Accepts start seen s
    · have hkept := baseline_kept (s := s) hseen
      rw [if_pos hs, if_pos hs]
      refine ⟨h.started, rfl, h.newest hs, ?_, ?_, ?_⟩
      · rw [hkept, ← hseen, ← h.base]
        rfl
      · intro first hfirst
        rw [hkept] at hfirst
        cases hfirst
        rw [sinceBaseline_cons hseen]
      · intro hnone
        rw [hkept] at hnone
        cases hnone
    · rw [if_neg hs, if_neg hs]
      exact h

end Step

theorem acceptedSamples_concat (start : Int) (fed : List AccelSample) (s : AccelSample) :
    acceptedSamples start (fed ++ [s]) =
      if Accepts start (acceptedSamples start fed) s then s :: acceptedSamples start fed
      else acceptedSamples start fed := by
  rw [acceptedSamples, List.foldl_append]
  rfl

theorem pickupFeeds_concat (pickup : Pickup) (fed : List AccelSample) (s : AccelSample) :
    pickupFeeds pickup (fed ++ [s]) =
      (pickupFeed (pickupFeeds pickup fed) s.x s.y s.z s.atMs).2 := by
  rw [pickupFeeds, List.foldl_append]
  rfl

/-- Whatever was fed, the detector counts the history of the samples it accepted. -/
theorem feeds_follow {start : Int} (hstart : int64Min ≤ start) (fed : List AccelSample) :
    Follows start (pickupFeeds (pickupStart start) fed) (acceptedSamples start fed) := by
  induction fed using List.reverseRecOn with
  | nil => exact follows_start start
  | append_singleton fed s ih =>
    rw [pickupFeeds_concat, acceptedSamples_concat]
    exact feed_follows ih hstart s

theorem acceptedSamples_length (start : Int) (fed : List AccelSample) :
    (acceptedSamples start fed).length ≤ fed.length := by
  induction fed using List.reverseRecOn with
  | nil => exact le_rfl
  | append_singleton fed s ih =>
    rw [acceptedSamples_concat, List.length_append]
    split
    · exact Nat.add_le_add_right ih 1
    · exact Nat.le_add_right_of_le ih

theorem sinceBaseline_length (seen : List AccelSample) : (sinceBaseline seen).length ≤ seen.length := by
  induction seen with
  | nil => exact le_rfl
  | cons s before ih =>
    rw [sinceBaseline]
    split
    · exact Nat.add_le_add_right ih 1
    · exact Nat.zero_le _

/-- No more votes are counted than samples were fed. -/
theorem feeds_votes {start : Int} (hstart : int64Min ≤ start) (fed : List AccelSample) :
    (pickupFeeds (pickupStart start) fed).votes ≤ fed.length := by
  have h := feeds_follow hstart fed
  cases hseen : baseline (acceptedSamples start fed) with
  | none =>
    rw [(h.watching hseen).1]
    exact Int.natCast_nonneg _
  | some base =>
    rw [h.votes base hseen, Streak.tally]
    exact Int.ofNat_le.mpr (((List.takeWhile_prefix _).length_le.trans (sinceBaseline_length _)).trans
      (acceptedSamples_length start fed))

/-- The baseline is the third sample of the first three that settled, and a call reports a pick-up
exactly on the third accepted sample in a row since then that is away from it. The votes are an `int`
for every run of fewer than 2147483648 calls. -/
theorem pickup_history {start : Int} (hstart : int64Min ≤ start) (fed : List AccelSample)
    (s : AccelSample) :
    (pickupFeeds (pickupStart start) fed).base =
        (baseline (acceptedSamples start fed)).map AccelSample.axes ∧
      ((pickupFeed (pickupFeeds (pickupStart start) fed) s.x s.y s.z s.atMs).1 = true ↔
        Accepts start (acceptedSamples start fed) s ∧ Wakes (s :: acceptedSamples start fed)) ∧
      (pickupFeeds (pickupStart start) fed).votes ≤ fed.length := by
  have h := feeds_follow hstart fed
  refine ⟨h.base, ?_, feeds_votes hstart fed⟩
  cases hseen : baseline (acceptedSamples start fed) with
  | none =>
    have hsince : sinceBaseline (s :: acceptedSamples start fed) = [] := by
      rw [sinceBaseline, hseen]
      rfl
    rw [h.watches hstart hseen]
    constructor
    · intro hfalse
      cases hfalse
    · rintro ⟨_, base, _, hthree, _⟩
      rw [hsince] at hthree
      exact absurd hthree (by decide)
  | some base =>
    have hwakes : Wakes (s :: acceptedSamples start fed) ↔
        3 ≤ Streak.tally (fun e => !decide (Within 150 base e))
          (s :: sinceBaseline (acceptedSamples start fed)) := by
      rw [Wakes, baseline_kept hseen, sinceBaseline_cons hseen, Streak.le_tally]
      simp
    rw [h.votes_on hstart hseen, hwakes]
    by_cases hs : Accepts start (acceptedSamples start fed) s
    · rw [if_pos hs, decide_eq_true_eq]
      exact (and_iff_right hs).symm
    · rw [if_neg hs]
      constructor
      · intro hfalse
        cases hfalse
      · rintro ⟨haccepted, _⟩
        exact absurd haccepted hs

/-- Three samples a hand let settle, three that move away, and a late one for each refused. -/
def pickedUp : List AccelSample :=
  [⟨0, 0, 1000, 500⟩, ⟨0, 0, 1000, 2000⟩, ⟨0, 60, 1000, 2100⟩, ⟨0, 0, 1000, 2100⟩, ⟨0, 0, 1000, 2200⟩,
    ⟨400, 0, 1000, 2300⟩, ⟨0, 0, 1000, 2250⟩, ⟨400, 0, 1000, 2400⟩]

theorem picked_up_reported :
    (pickupFeeds (pickupStart 0) pickedUp).base = some (0, 0, 1000) ∧
      (pickupFeed (pickupFeeds (pickupStart 0) pickedUp) 400 0 1000 2500).1 = true := by
  have hstart : int64Min ≤ 0 := by decide +kernel
  have h := pickup_history hstart pickedUp ⟨400, 0, 1000, 2500⟩
  have hbase : (baseline (acceptedSamples 0 pickedUp)).map AccelSample.axes = some (0, 0, 1000) := by
    decide +kernel
  refine ⟨h.1.trans hbase, h.2.1.mpr ⟨by decide +kernel, ⟨0, 0, 1000, 2200⟩, ?_, ?_, ?_⟩⟩
  · decide +kernel
  · decide +kernel
  · decide +kernel

/-! How far apart the samples are that make the baseline. -/

/-- The newest three samples agree step by step, the third no longer with the first. -/
def Drifts : List AccelSample → Prop
  | s :: b :: a :: _ => Within 60 s b ∧ Within 60 b a ∧ ¬ Within 60 s a
  | _ => False

instance : DecidablePred Drifts
  | _ :: _ :: _ :: _ => inferInstanceAs (Decidable (_ ∧ _ ∧ _))
  | [] | [_] | [_, _] => inferInstanceAs (Decidable False)

/-- Whenever the baseline is taken, the three samples it is taken from agree pairwise. -/
def SteadyBaseline (start : Int) (fed : List AccelSample) : Prop :=
  ∀ first s rest, fed = first ++ s :: rest →
    (pickupFeeds (pickupStart start) first).haveBase = false →
    (pickupFeeds (pickupStart start) (first ++ [s])).haveBase = true →
    ∃ b a older, acceptedSamples start (first ++ [s]) = s :: b :: a :: older ∧
      Within 60 s b ∧ Within 60 b a ∧ Within 60 s a

theorem settles_iff {s : AccelSample} {seen : List AccelSample} :
    Settles (s :: seen) ↔ ∃ b a older, seen = b :: a :: older ∧ Within 60 s b ∧ Within 60 b a := by
  constructor
  · rintro ⟨hthree, hchain⟩
    match seen, hthree, hchain with
    | b :: a :: older, _, hchain =>
      simp only [List.take_succ_cons, List.take_zero, List.isChain_cons_cons, List.isChain_singleton,
        and_true] at hchain
      exact ⟨b, a, older, rfl, hchain⟩
  · rintro ⟨b, a, older, rfl, hsb, hba⟩
    refine ⟨by simp, ?_⟩
    simp only [List.take_succ_cons, List.take_zero, List.isChain_cons_cons, List.isChain_singleton,
      and_true]
    exact ⟨hsb, hba⟩

/-- When the baseline is taken. -/
theorem takes_baseline {start : Int} (hstart : int64Min ≤ start) (first : List AccelSample)
    (s : AccelSample) : ((pickupFeeds (pickupStart start) first).haveBase = false ∧
      (pickupFeeds (pickupStart start) (first ++ [s])).haveBase = true) ↔
      baseline (acceptedSamples start first) = none ∧ Accepts start (acceptedSamples start first) s ∧
        Settles (s :: acceptedSamples start first) := by
  rw [(feeds_follow hstart first).haveBase, (feeds_follow hstart (first ++ [s])).haveBase,
    acceptedSamples_concat, Option.isSome_eq_false_iff, Option.isNone_iff_eq_none]
  refine and_congr_right fun hnone => ?_
  by_cases hs : Accepts start (acceptedSamples start first) s
  · rw [if_pos hs, baseline_next hnone]
    by_cases hsettles : Settles (s :: acceptedSamples start first) <;> simp [hs, hsettles]
  · simp [hs, hnone]

/-- The samples under a baseline agree pairwise exactly when none of them drifted there. -/
theorem steady_baseline_iff {start : Int} (hstart : int64Min ≤ start) (fed : List AccelSample) :
    SteadyBaseline start fed ↔ ∀ first s rest, fed = first ++ s :: rest →
      baseline (acceptedSamples start first) = none → Accepts start (acceptedSamples start first) s →
      ¬ Drifts (s :: acceptedSamples start first) := by
  constructor
  · intro h first s rest hfed hnone hs hdrifts
    match hseen : acceptedSamples start first, hdrifts with
    | b :: a :: older, ⟨hsb, hba, hsa⟩ =>
      have hsettles : Settles (s :: acceptedSamples start first) :=
        settles_iff.mpr ⟨b, a, older, hseen, hsb, hba⟩
      obtain ⟨hbefore, htaken⟩ := (takes_baseline hstart first s).mpr ⟨hnone, hs, hsettles⟩
      obtain ⟨b', a', older', heq, _, _, hnear⟩ := h first s rest hfed hbefore htaken
      rw [acceptedSamples_concat, if_pos hs, hseen] at heq
      cases heq
      exact hsa hnear
  · intro h first s rest hfed hbefore htaken
    obtain ⟨hnone, hs, hsettles⟩ := (takes_baseline hstart first s).mp ⟨hbefore, htaken⟩
    obtain ⟨b, a, older, hseen, hsb, hba⟩ := settles_iff.mp hsettles
    have hsteady := h first s rest hfed hnone hs
    rw [hseen] at hsteady
    refine ⟨b, a, older, ?_, hsb, hba, ?_⟩
    · rw [acceptedSamples_concat, if_pos hs, hseen]
    · by_contra hsa
      exact hsteady ⟨hsb, hba, hsa⟩

/-- A tablet at rest, from the third of its samples on. -/
theorem rest_steady : SteadyBaseline 0 [⟨0, 0, 1000, 2000⟩, ⟨30, 0, 1000, 2100⟩, ⟨60, 0, 1000, 2200⟩] := by
  refine (steady_baseline_iff (by decide +kernel) _).mpr fun first s rest hfed _ _ => ?_
  match first with
  | [] =>
    cases hfed
    decide +kernel
  | [_] =>
    cases hfed
    decide +kernel
  | [_, _] =>
    cases hfed
    decide +kernel
  | _ :: _ :: _ :: first =>
    cases first <;> cases hfed

/-- A drift of 50 mg a sample is taken for stillness. -/
theorem drift_taken_for_rest :
    ¬ SteadyBaseline 0 [⟨0, 0, 1000, 2000⟩, ⟨50, 0, 1000, 2100⟩, ⟨100, 0, 1000, 2200⟩] := by
  intro h
  obtain ⟨b, a, older, heq, _, _, hnear⟩ :=
    h [⟨0, 0, 1000, 2000⟩, ⟨50, 0, 1000, 2100⟩] ⟨100, 0, 1000, 2200⟩ [] rfl (by decide +kernel)
      (by decide +kernel)
  have hseen : acceptedSamples 0 ([⟨0, 0, 1000, 2000⟩, ⟨50, 0, 1000, 2100⟩] ++ [⟨100, 0, 1000, 2200⟩]) =
      [⟨100, 0, 1000, 2200⟩, ⟨50, 0, 1000, 2100⟩, ⟨0, 0, 1000, 2000⟩] := by
    decide +kernel
  rw [hseen] at heq
  cases heq
  exact absurd hnear (by decide)

end Taq102.Runtime
