import Taq102.Lib.Streak
import Taq102.Lib.Transition

/-! Which way up the picture is (`glcube.c`), and the readings it goes by (`accel_monitor.c`), which
another thread takes. -/
namespace Taq102.App
open Taq102.Lib Streak Transition

structure Sample where
  xMg : Int
  yMg : Int
  zMg : Int
  atMs : Int
  deriving DecidableEq, Repr

/-- What the other thread has read so far, the newest first. -/
structure AccelMonitor where
  readings : List Sample
  deriving DecidableEq, Repr

/-- The newest reading with its number, which is a `uint32_t`. -/
def accelMonitorSnapshot (monitor : AccelMonitor) : Option (Nat × Sample) :=
  let sequence := monitor.readings.length % 4294967296
  if sequence = 0 then none else monitor.readings.head?.map fun sample => (sequence, sample)

structure Orientation where
  flipped : Bool
  flipVotes : Int
  accelSequence : Nat
  deriving DecidableEq, Repr

/-- The orientation a reading calls for, with half a g of hysteresis. -/
def wanted (flipped : Bool) (yMg : Int) : Bool :=
  if yMg > 500 then true else if yMg < -500 then false else flipped

/-- The picture turns when three readings in a row call for it. -/
def vote (o : Orientation) (yMg : Int) : Bool × Orientation :=
  let want := wanted o.flipped yMg
  if want = o.flipped then (false, { o with flipVotes := 0 })
  else if 3 ≤ o.flipVotes + 1 then (true, { o with flipped := want, flipVotes := 0 })
  else (false, { o with flipVotes := o.flipVotes + 1 })

/-- A look at the newest reading, and whether the picture turns. -/
def look (o : Orientation) (monitor : AccelMonitor) : Bool × Orientation :=
  match accelMonitorSnapshot monitor with
  | none => (false, o)
  | some (sequence, sample) =>
    if sequence = o.accelSequence then (false, o)
    else vote { o with accelSequence := sequence } sample.yMg

/-- The two threads. -/
inductive WatchOp where
  | reading (sample : Sample)
  | look
  deriving DecidableEq, Repr

/-- Both threads' state, with the readings that the looks have seen, the newest first. -/
structure Watch where
  monitor : AccelMonitor
  orientation : Orientation
  seen : List Sample
  deriving DecidableEq, Repr

def Watch.start : Watch := { monitor := ⟨[]⟩, orientation := ⟨false, 0, 0⟩, seen := [] }

/-- Whether a look finds another reading than the last one that found any. -/
def Watch.finds (w : Watch) : Bool :=
  (look w.orientation w.monitor).2.accelSequence ≠ w.orientation.accelSequence

def Watch.next (w : Watch) : WatchOp → Watch
  | .reading sample => { w with monitor := ⟨sample :: w.monitor.readings⟩ }
  | .look =>
    { w with
      orientation := (look w.orientation w.monitor).2
      seen := if w.finds then w.monitor.readings.head?.toList ++ w.seen else w.seen }

/-- The reading calls for the other orientation. -/
def against (flipped : Bool) (sample : Sample) : Bool := wanted flipped sample.yMg ≠ flipped

/-- A reading that calls for the other orientation calls for no further turn after it. -/
theorem against_turned {flipped : Bool} {sample : Sample} (h : against flipped sample = true) :
    wanted flipped sample.yMg = !flipped ∧ against (!flipped) sample = false := by
  unfold against wanted at *
  cases flipped with
  | false =>
    by_cases hup : sample.yMg > 500
    · simp [hup]
    · by_cases hdown : sample.yMg < -500 <;> simp [hup, hdown] at h
  | true =>
    by_cases hup : sample.yMg > 500
    · simp [hup] at h
    · by_cases hdown : sample.yMg < -500
      · simp [hup, hdown]
      · simp [hup, hdown] at h

/-- The votes are the newest readings in a row that call for the other orientation. -/
theorem vote_counts {o : Orientation} {seen : List Sample} (sample : Sample)
    (hvotes : o.flipVotes = tally (against o.flipped) seen) (hbelow : o.flipVotes ≤ 2) :
    ((vote o sample.yMg).1 = true ↔ 3 ≤ tally (against o.flipped) (sample :: seen)) ∧
      (vote o sample.yMg).2.flipVotes = tally (against (vote o sample.yMg).2.flipped) (sample :: seen) ∧
      (vote o sample.yMg).2.flipVotes ≤ 2 ∧
      (vote o sample.yMg).2.flipped = (o.flipped ^^ (vote o sample.yMg).1) ∧
      (vote o sample.yMg).2.accelSequence = o.accelSequence := by
  unfold vote
  dsimp only
  by_cases hsame : wanted o.flipped sample.yMg = o.flipped
  · have hagrees : against o.flipped sample = false := by
      unfold against
      simp [hsame]
    rw [if_pos hsame]
    refine ⟨?_, ?_, by dsimp only; omega, (Bool.xor_false _).symm, rfl⟩
    · rw [tally_cons, hagrees]
      simp
    · dsimp only
      rw [tally_cons, hagrees]
      rfl
  · have hagainst : against o.flipped sample = true := by
      unfold against
      simp [hsame]
    obtain ⟨hwanted, hturned⟩ := against_turned hagainst
    rw [if_neg hsame]
    split
    · rename_i hthree
      refine ⟨iff_of_true rfl ?_, ?_, by dsimp only; omega, ?_, rfl⟩
      · rw [tally_cons, hagainst, if_pos rfl]
        omega
      · dsimp only
        rw [hwanted, tally_cons, hturned]
        rfl
      · dsimp only
        rw [hwanted, Bool.xor_true]
    · rename_i hthree
      refine ⟨iff_of_false Bool.false_ne_true ?_, ?_, by dsimp only; omega, (Bool.xor_false _).symm, rfl⟩
      · rw [tally_cons, hagainst, if_pos rfl]
        omega
      · dsimp only
        rw [tally_cons, hagainst, if_pos rfl, hvotes]
        push_cast
        rfl

/-- The looks count the readings they saw, each of them once. -/
structure Counted (w : Watch) : Prop where
  votes : w.orientation.flipVotes = tally (against w.orientation.flipped) w.seen
  below : w.orientation.flipVotes ≤ 2
  seen : ∃ newer older, w.monitor.readings = newer ++ older ∧ w.seen.Sublist older ∧
    w.orientation.accelSequence = older.length

theorem vote_sequence (o : Orientation) (yMg : Int) : (vote o yMg).2.accelSequence = o.accelSequence := by
  unfold vote
  dsimp only
  split
  · rfl
  · split <;> rfl

/-- The newest reading is found when there is one since the last that was. -/
theorem look_cases {w : Watch} {newer older : List Sample} (hreadings : w.monitor.readings = newer ++ older)
    (hseen : w.orientation.accelSequence = older.length) (hfew : w.monitor.readings.length < 4294967296) :
    (newer = [] ∧ look w.orientation w.monitor = (false, w.orientation) ∧ w.finds = false) ∨
      ∃ sample rest, newer = sample :: rest ∧ look w.orientation w.monitor =
        vote { w.orientation with accelSequence := w.monitor.readings.length } sample.yMg ∧
        w.finds = true ∧ (w.next .look).seen = sample :: w.seen := by
  cases newer with
  | nil =>
    left
    rw [List.nil_append] at hreadings
    have hlook : look w.orientation w.monitor = (false, w.orientation) := ?_
    · exact ⟨rfl, hlook, by simp [Watch.finds, hlook]⟩
    unfold look accelMonitorSnapshot
    rw [Nat.mod_eq_of_lt hfew]
    dsimp only
    by_cases hnone : w.monitor.readings.length = 0
    · rw [if_pos hnone]
    · rw [if_neg hnone]
      cases hhead : w.monitor.readings.head? with
      | none => rfl
      | some sample =>
        rw [Option.map_some]
        dsimp only
        rw [if_pos (by rw [hreadings, hseen])]
  | cons sample rest =>
    right
    have hlength : w.monitor.readings.length = rest.length + 1 + older.length := by
      rw [hreadings, List.length_append, List.length_cons]
    have hlook : look w.orientation w.monitor =
        vote { w.orientation with accelSequence := w.monitor.readings.length } sample.yMg := by
      unfold look accelMonitorSnapshot
      rw [Nat.mod_eq_of_lt hfew]
      dsimp only
      rw [if_neg (by omega), hreadings, List.cons_append, List.head?_cons, Option.map_some]
      dsimp only
      rw [← List.cons_append, ← hreadings, if_neg (by omega)]
    have hfinds : w.finds = true := by
      unfold Watch.finds
      rw [hlook, vote_sequence]
      simp only [decide_eq_true_eq, ne_eq]
      omega
    exact ⟨sample, rest, rfl, hlook, hfinds, by simp [Watch.next, hfinds, hreadings]⟩

theorem counted_next {w : Watch} (h : Counted w) (op : WatchOp)
    (hfew : (w.next op).monitor.readings.length < 4294967296) : Counted (w.next op) := by
  obtain ⟨newer, older, hreadings, hsublist, hsequence⟩ := h.seen
  cases op with
  | reading sample => exact ⟨h.votes, h.below, sample :: newer, older, by simp [Watch.next, hreadings],
      hsublist, hsequence⟩
  | look =>
    rcases look_cases hreadings hsequence hfew with ⟨_, hlook, hstale⟩ |
      ⟨sample, rest, hnewer, hlook, _, hseen⟩
    · have hsame : w.next .look = w := by
        simp [Watch.next, hstale, hlook]
      rw [hsame]
      exact h
    · obtain ⟨_, hvotes, hbelow, _, hnumber⟩ :=
        vote_counts (o := { w.orientation with accelSequence := w.monitor.readings.length }) sample h.votes
          h.below
      refine ⟨?_, ?_, [], w.monitor.readings, rfl, ?_, ?_⟩
      · rw [hseen]
        change (look w.orientation w.monitor).2.flipVotes =
          tally (against (look w.orientation w.monitor).2.flipped) _
        rw [hlook]
        exact hvotes
      · change (look w.orientation w.monitor).2.flipVotes ≤ 2
        rw [hlook]
        exact hbelow
      · rw [hseen, hreadings, hnewer, List.cons_append]
        exact (hsublist.trans (List.sublist_append_right _ _)).cons_cons sample
      · change (look w.orientation w.monitor).2.accelSequence = _
        rw [hlook]
        exact hnumber

theorem counted_run {ops : List WatchOp} {w : Watch} (h : Run (Fires Watch.next) Watch.start ops w)
    (hfew : w.monitor.readings.length < 4294967296) : Counted w := by
  induction h with
  | nil => exact ⟨rfl, by decide, [], [], rfl, List.Sublist.refl _, rfl⟩
  | @snoc ops w u op _ hstep ih =>
    cases hstep
    have hgrows : w.monitor.readings.length ≤ (w.next op).monitor.readings.length := by
      cases op with
      | reading sample => exact Nat.le_succ _
      | look => exact le_rfl
    exact counted_next (ih (hgrows.trans_lt hfew)) op hfew

theorem against_iff (flipped : Bool) (sample : Sample) : against flipped sample = true ↔
    if flipped then sample.yMg < -500 else 500 < sample.yMg := by
  unfold against wanted
  cases flipped with
  | false =>
    by_cases hup : sample.yMg > 500
    · simp [hup]
    · by_cases hdown : sample.yMg < -500 <;> simp [hup, hdown]
  | true =>
    by_cases hup : sample.yMg > 500
    · simp [hup]
      omega
    · by_cases hdown : sample.yMg < -500 <;> simp [hup, hdown]

/-- However the two threads take turns, the picture turns at a look exactly when the look finds another
reading, and this and the two found before it, three readings of the other thread in their order, all
call for the other orientation by more than half a g. -/
theorem turns_on_three {ops : List WatchOp} {w : Watch} (h : Run (Fires Watch.next) Watch.start ops w)
    (hfew : w.monitor.readings.length < 4294967296) :
    (w.next .look).seen.Sublist w.monitor.readings ∧
      (w.next .look).orientation.flipped = (w.orientation.flipped ^^ (look w.orientation w.monitor).1) ∧
      ((look w.orientation w.monitor).1 = true ↔ w.finds = true ∧ 3 ≤ (w.next .look).seen.length ∧
        ∀ sample ∈ (w.next .look).seen.take 3,
          if w.orientation.flipped then sample.yMg < -500 else 500 < sample.yMg) := by
  have hcounted := counted_run h hfew
  have hafter := counted_next hcounted .look hfew
  obtain ⟨newer, older, hreadings, hsublist, hsequence⟩ := hcounted.seen
  refine ⟨?_, ?_⟩
  · obtain ⟨newer', older', hreadings', hsublist', _⟩ := hafter.seen
    rw [show w.monitor.readings = newer' ++ older' from hreadings']
    exact hsublist'.trans (List.sublist_append_right _ _)
  simp only [← against_iff]
  rw [← le_tally]
  change (look w.orientation w.monitor).2.flipped = _ ∧ _
  rcases look_cases hreadings hsequence hfew with ⟨_, hlook, hstale⟩ |
    ⟨sample, rest, hnewer, hlook, hfinds, hseen⟩
  · rw [hlook, hstale]
    exact ⟨(Bool.xor_false _).symm, iff_of_false Bool.false_ne_true fun hfinds => nomatch hfinds.1⟩
  · obtain ⟨hturns, _, _, hflipped, _⟩ :=
      vote_counts (o := { w.orientation with accelSequence := w.monitor.readings.length }) sample
        hcounted.votes hcounted.below
    rw [hlook, hseen]
    refine ⟨hflipped, hturns.trans ?_⟩
    rw [hfinds]
    exact ⟨fun hthree => ⟨rfl, hthree⟩, fun hboth => hboth.2⟩

/-- Held the other way up for three readings; two looks share one of them. -/
def heldRound : List WatchOp :=
  [.reading ⟨0, 900, 0, 200⟩, .look, .look, .reading ⟨0, 950, 0, 400⟩, .reading ⟨0, 940, 0, 600⟩, .look,
    .reading ⟨0, 960, 0, 800⟩]

theorem third_reading_turns : ∃ w : Watch, Run (Fires Watch.next) Watch.start heldRound w ∧
    (look w.orientation w.monitor).1 = true ∧ w.finds = true ∧ 3 ≤ (w.next .look).seen.length ∧
      ∀ sample ∈ (w.next .look).seen.take 3,
        if w.orientation.flipped then sample.yMg < -500 else 500 < sample.yMg := by
  have hrun := run_foldl Watch.next Watch.start heldRound
  have hturns : (look (heldRound.foldl Watch.next Watch.start).orientation
      (heldRound.foldl Watch.next Watch.start).monitor).1 = true := by decide
  exact ⟨_, hrun, hturns, (turns_on_three hrun (by decide)).2.2.mp hturns⟩

end Taq102.App
