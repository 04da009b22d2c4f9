import Taq102.Lib.Ring
import Taq102.Lib.Transition
import Taq102.Runtime.PowerPolicy

/-! The readings behind a decision of the power policy, over every run of its steps. -/
namespace Taq102.Runtime
open Taq102.Lib Transition

/-- A call of `power_policy_step`. -/
structure Call where
  status : Status
  now : Int
  asleep : Bool

def PowerPolicy.next (policy : PowerPolicy) (call : Call) : PowerPolicy :=
  (powerPolicyStep policy call.status call.now call.asleep).2

/-- The window with the reading of the call. -/
def withReading (policy : PowerPolicy) (call : Call) : PowerPolicy :=
  addReading { policy with lastReadMs := call.status.readMs } call.status call.now

/-- The window after a call whose reading is accepted; the others are taken asleep, invalid, or too
close to the reading before. -/
def accepted (policy : PowerPolicy) (call : Call) : Option PowerPolicy :=
  let gap := call.status.readMs - policy.lastReadMs
  if call.asleep then none
  else if validReading policy call.status call.now = false then none
  else if policy.lastReadMs ≠ 0 ∧ 15000 < gap then
    some (withReading (resetWindow policy (call.now - 10000)) call)
  else if policy.lastReadMs ≠ 0 ∧ gap < 5000 then none
  else some (withReading policy call)

/-- The window that a call closes. -/
def closing (policy : PowerPolicy) (call : Call) : Option PowerPolicy :=
  (accepted policy call).filter fun window =>
    decide (¬ (window.samples < 3 ∨ call.now - window.windowStartedMs < 30000))

structure Decision where
  supply : Option (Fin 2)
  full : Bool
  average : Int
  now : Int
  deriving DecidableEq, Repr

/-- The decision that a call reaches. -/
def decision (policy : PowerPolicy) (call : Call) : Option Decision :=
  (closing policy call).map fun window =>
    { supply := supplyOf call.status
      full := isFull call.status
      average := window.currentSum.tdiv window.samples
      now := call.now }

/-- What a decision does to the levels. -/
def carryOut (policy : PowerPolicy) (d : Decision) : Int × PowerPolicy :=
  match d.supply with
  | none => applyLevel { policy with note := [] } (minimum 128 policy.maxLevel) (-1)
  | some supply =>
    if d.full then applyLevel { policy with note := [] } policy.maxLevel (supply.val + 2)
    else decideLevel policy supply d.average d.now

section Cases
variable {policy window : PowerPolicy} {call : Call}

/-- A window that holds enough is closed. -/
theorem closing_eq_some : closing policy call = some window ↔ accepted policy call = some window ∧
    ¬ (window.samples < 3 ∨ call.now - window.windowStartedMs < 30000) := by
  rw [closing, Option.filter_eq_some_iff, decide_eq_true_iff]

theorem closing_eq_none (h : accepted policy call = some window)
    (hopen : window.samples < 3 ∨ call.now - window.windowStartedMs < 30000) :
    closing policy call = none := by
  rw [closing, h]
  exact Option.filter_some_neg (decide_eq_false (not_not.mpr hopen))

theorem valid_newer {status : Status} {now : Int} (h : ¬ validReading policy status now = false) :
    policy.lastReadMs = 0 ∨ policy.lastReadMs < status.readMs := by
  have hvalid := eq_true_of_ne_false h
  rw [validReading, Bool.and_eq_true] at hvalid
  simpa using hvalid.2

theorem step_accepted (h : accepted policy call = some window) :
    powerPolicyStep policy call.status call.now call.asleep =
      if window.samples < 3 ∨ call.now - window.windowStartedMs < 30000 then (-1, window)
      else closeWindow window call.status call.now := by
  simp only [accepted] at h
  rw [powerPolicyStep]
  dsimp only
  split at h
  · cases h
  rename_i hawake
  rw [if_neg hawake]
  split at h
  · cases h
  rename_i hvalid
  rw [if_neg hvalid]
  split at h
  · rename_i hgap
    cases h
    rw [if_pos hgap]
    rfl
  rename_i hgap
  rw [if_neg hgap]
  split at h
  · cases h
  rename_i hclose
  cases h
  rw [if_neg hclose]
  rfl

/-- A reading that is rejected starts the window anew. -/
theorem step_rejected (h : accepted policy call = none) :
    ∃ last, powerPolicyStep policy call.status call.now call.asleep =
        (-1, { resetWindow policy call.now with lastReadMs := last }) ∧
      (last = 0 ∨ policy.lastReadMs ≠ 0 ∧ policy.lastReadMs ≤ last) := by
  simp only [accepted] at h
  rw [powerPolicyStep]
  dsimp only
  split at h
  · rename_i hasleep
    rw [if_pos hasleep]
    exact ⟨0, rfl, .inl rfl⟩
  rename_i hawake
  rw [if_neg hawake]
  split at h
  · rename_i hinvalid
    rw [if_pos hinvalid]
    refine ⟨policy.lastReadMs, rfl, ?_⟩
    by_cases hfirst : policy.lastReadMs = 0
    · exact .inl hfirst
    · exact .inr ⟨hfirst, le_rfl⟩
  rename_i hvalid
  rw [if_neg hvalid]
  split at h
  · cases h
  rename_i hgap
  rw [if_neg hgap]
  split at h
  · rename_i hclose
    rw [if_pos hclose]
    have hnewer := (valid_newer hvalid).resolve_left hclose.1
    exact ⟨call.status.readMs, rfl, .inr ⟨hclose.1, hnewer.le⟩⟩
  · cases h

theorem decision_eq_none (h : closing policy call = none) : decision policy call = none := by
  rw [decision, h]
  rfl

theorem accepted_same (h : accepted policy call = some window) : SameLevels policy window := by
  have hread (p : PowerPolicy) : SameLevels p { p with lastReadMs := call.status.readMs } :=
    ⟨rfl, rfl, rfl, rfl⟩
  have hwith (p : PowerPolicy) : SameLevels p (withReading p call) :=
    (hread p).trans (addReading_same _ call.status call.now)
  simp only [accepted] at h
  split at h
  · cases h
  split at h
  · cases h
  split at h
  · cases h
    exact (resetWindow_same policy _).trans (hwith _)
  split at h
  · cases h
  · cases h
    exact hwith policy

/-- A step without a decision leaves the levels alone. -/
theorem step_undecided (h : decision policy call = none) :
    (powerPolicyStep policy call.status call.now call.asleep).1 = -1 ∧
      SameLevels policy (policy.next call) := by
  rw [PowerPolicy.next]
  cases haccepted : accepted policy call with
  | none =>
    obtain ⟨last, hstep, _⟩ := step_rejected haccepted
    rw [hstep]
    exact ⟨rfl, ⟨rfl, rfl, rfl, rfl⟩⟩
  | some window =>
    by_cases hopen : window.samples < 3 ∨ call.now - window.windowStartedMs < 30000
    · rw [step_accepted haccepted, if_pos hopen]
      exact ⟨rfl, accepted_same haccepted⟩
    · rw [decision, closing_eq_some.mpr ⟨haccepted, hopen⟩] at h
      cases h

/-- A step that decides carries the decision out, with the window emptied. -/
theorem step_decides {d : Decision} (h : decision policy call = some d) :
    ∃ emptied, SameLevels policy emptied ∧
      powerPolicyStep policy call.status call.now call.asleep = carryOut emptied d := by
  obtain ⟨window, hclosing, rfl⟩ := Option.map_eq_some_iff.mp h
  obtain ⟨haccepted, hfull⟩ := closing_eq_some.mp hclosing
  refine ⟨resetWindow window call.now,
    (accepted_same haccepted).trans (resetWindow_same window call.now), ?_⟩
  rw [step_accepted haccepted, if_neg hfull]
  rfl

/-- The window starts anew. -/
structure Emptied (policy : PowerPolicy) (now : Int) : Prop where
  samples : policy.samples = 0
  sum : policy.currentSum = 0
  source : policy.windowSource = -2
  full : policy.windowFull = -1
  started : policy.windowStartedMs = now

theorem resetWindow_emptied (policy : PowerPolicy) (now : Int) :
    Emptied (resetWindow policy now) now := ⟨rfl, rfl, rfl, rfl, rfl⟩

theorem closeWindow_emptied (window : PowerPolicy) (status : Status) (now : Int) :
    Emptied (closeWindow window status now).2 now ∧
      (closeWindow window status now).2.lastReadMs = window.lastReadMs := by
  rw [closeWindow]
  split
  · exact ⟨⟨rfl, rfl, rfl, rfl, rfl⟩, rfl⟩
  split
  · exact ⟨⟨rfl, rfl, rfl, rfl, rfl⟩, rfl⟩
  · exact ⟨⟨rfl, rfl, rfl, rfl, rfl⟩, rfl⟩

end Cases

/-! The readings in the window. -/

def PowerPolicy.ring (policy : PowerPolicy) : Ring Int 2 where
  count := policy.samples
  sum := policy.currentSum
  cells := policy.currentUa
  next := policy.nextSample

def SameKind (a b : Status) : Prop := supplyOf a = supplyOf b ∧ isFull a = isFull b

/-- A reading comes between five and fifteen seconds after the one before. -/
def Spaced (b a : Status) : Prop := 5000 ≤ b.readMs - a.readMs ∧ b.readMs - a.readMs ≤ 15000

/-- The window holds these readings, the newest first. -/
structure Gathered (policy : PowerPolicy) (recent : List Status) : Prop where
  ring : policy.ring.Holds (recent.map Status.currentUa)
  fresh : recent = [] → policy.windowSource = -2 ∧ policy.windowFull = -1
  kind : ∀ s ∈ recent, policy.windowSource = supplyCode (supplyOf s) ∧ policy.windowFull = fullCode s
  last : ∀ s, recent.head? = some s → policy.lastReadMs = s.readMs
  spaced : recent.IsChain Spaced
  positive : ∀ s ∈ recent, 0 < s.readMs

section Gathering
variable {policy window : PowerPolicy} {recent : List Status} {call : Call}

theorem supplyCode_injective {a b : Option (Fin 2)} (h : supplyCode a = supplyCode b) : a = b := by
  revert a b
  decide

theorem fullCode_injective {a b : Status} (h : fullCode a = fullCode b) : isFull a = isFull b := by
  rw [fullCode, fullCode] at h
  cases ha : isFull a with
  | true =>
    cases hb : isFull b with
    | true => rfl
    | false => simp [ha, hb] at h
  | false =>
    cases hb : isFull b with
    | true => simp [ha, hb] at h
    | false => rfl

theorem gathered_empty {now : Int} (h : Emptied policy now) : Gathered policy [] where
  ring := Ring.holds_nil h.samples h.sum
  fresh _ := ⟨h.source, h.full⟩
  kind _ hs := absurd hs List.not_mem_nil
  last _ hs := nomatch hs
  spaced := .nil
  positive _ hs := absurd hs List.not_mem_nil

theorem supplyCode_ge (supply : Option (Fin 2)) : -1 ≤ supplyCode supply := by
  revert supply
  decide

theorem fullCode_nonneg (status : Status) : 0 ≤ fullCode status := by
  rw [fullCode]
  split
  · decide
  · decide

/-- The reading is of another supply or Full state than those in the window. -/
def Changes (policy : PowerPolicy) (status : Status) : Prop :=
  (policy.windowSource ≠ -2 ∧ policy.windowSource ≠ supplyCode (supplyOf status)) ∨
    (0 ≤ policy.windowFull ∧ policy.windowFull ≠ fullCode status)

theorem withReading_changes (h : Changes policy call.status) : withReading policy call =
    insertReading (resetWindow { policy with lastReadMs := call.status.readMs } (call.now - 10000))
      call.status := by
  have hwindow : windowFor { policy with lastReadMs := call.status.readMs }
      (supplyCode (supplyOf call.status)) (fullCode call.status) call.now =
      resetWindow { policy with lastReadMs := call.status.readMs } (call.now - 10000) := if_pos h
  rw [← hwindow]
  rfl

theorem withReading_continues (h : ¬ Changes policy call.status) : withReading policy call =
    insertReading { policy with lastReadMs := call.status.readMs } call.status := by
  have hwindow : windowFor { policy with lastReadMs := call.status.readMs }
      (supplyCode (supplyOf call.status)) (fullCode call.status) call.now =
      { policy with lastReadMs := call.status.readMs } := if_neg h
  conv_rhs => rw [← hwindow]
  rfl

/-- One more reading in a window with those of its kind. -/
theorem gathered_add {status : Status} {kept : List Status}
    (hring : policy.ring.Holds (kept.map Status.currentUa)) (hlast : policy.lastReadMs = status.readMs)
    (hkind : ∀ s ∈ kept, SameKind s status) (hspaced : (status :: kept).IsChain Spaced)
    (hpos : ∀ s ∈ status :: kept, 0 < s.readMs) :
    Gathered (insertReading policy status) ((status :: kept).take 3) := by
  refine ⟨?_, nofun, fun s hs => ?_, fun s hs => ?_, hspaced.take 3, fun s hs => ?_⟩
  · rw [List.map_take]
    exact Ring.holds_push hring status.currentUa
  · rcases List.mem_cons.mp (List.mem_of_mem_take hs) with rfl | hs
    · exact ⟨rfl, rfl⟩
    · obtain ⟨hsupply, hfull⟩ := hkind s hs
      refine ⟨congrArg supplyCode hsupply.symm, ?_⟩
      change fullCode status = fullCode s
      rw [fullCode, fullCode, hfull]
  · cases hs
    exact hlast
  · exact hpos s (List.mem_of_mem_take hs)

/-- A reading goes into the window: after those before it, or alone when they are of another kind. -/
theorem withReading_gathered (h : Gathered policy recent) (hpos : 0 < call.status.readMs)
    (hspaced : ∀ s, recent.head? = some s → Spaced call.status s) :
    ∃ kept, (kept = recent ∨ kept = []) ∧
      Gathered (withReading policy call) ((call.status :: kept).take 3) := by
  by_cases hchange : Changes policy call.status
  · rw [withReading_changes hchange]
    have hempty := gathered_empty (resetWindow_emptied
      { policy with lastReadMs := call.status.readMs } (call.now - 10000))
    refine ⟨[], .inr rfl, gathered_add hempty.ring rfl (fun s hs => absurd hs List.not_mem_nil)
      (.singleton _) fun s hs => ?_⟩
    rw [List.mem_singleton.mp hs]
    exact hpos
  · rw [withReading_continues hchange]
    refine ⟨recent, .inl rfl, gathered_add h.ring rfl (fun s hs => ?_) ?_ fun s hs => ?_⟩
    · obtain ⟨hsource, hfull⟩ := h.kind s hs
      obtain ⟨hsame, hstate⟩ := not_or.mp hchange
      have hge := supplyCode_ge (supplyOf s)
      have hnonneg := fullCode_nonneg s
      refine ⟨supplyCode_injective ?_, fullCode_injective ?_⟩
      · rw [← hsource]
        by_contra hne
        exact hsame ⟨by omega, hne⟩
      · rw [← hfull]
        by_contra hne
        exact hstate ⟨by omega, hne⟩
    · cases hrecent : recent with
      | nil => exact .singleton _
      | cons s rest =>
        refine .cons_cons (hspaced s (by rw [hrecent]; rfl)) ?_
        rw [← hrecent]
        exact h.spaced
    · rcases List.mem_cons.mp hs with rfl | hs
      · exact hpos
      · exact h.positive s hs

/-- An accepted reading is in the window after it. -/
theorem accepted_gathered (h : Gathered policy recent) (hpos : 0 < call.status.readMs)
    (hw : accepted policy call = some window) :
    ∃ kept, (kept = recent ∨ kept = []) ∧ Gathered window ((call.status :: kept).take 3) := by
  simp only [accepted] at hw
  split at hw
  · cases hw
  split at hw
  · cases hw
  split at hw
  · cases hw
    have hempty := gathered_empty (resetWindow_emptied policy (call.now - 10000))
    obtain ⟨kept, hkept, hgathered⟩ := withReading_gathered hempty hpos (fun _ hs => nomatch hs)
    exact ⟨kept, .inr (hkept.elim id id), hgathered⟩
  rename_i hgap
  split at hw
  · cases hw
  rename_i hclose
  cases hw
  refine withReading_gathered h hpos fun s hs => ?_
  have hlast := h.last s hs
  have hread := h.positive s (List.mem_of_mem_head? hs)
  have hne : policy.lastReadMs ≠ 0 := by omega
  rw [Spaced, ← hlast]
  constructor
  · by_contra hlow
    exact hclose ⟨hne, by omega⟩
  · by_contra hhigh
    exact hgap ⟨hne, by omega⟩

end Gathering

/-! The runs, with a log of what became of each call. -/

structure Entry where
  call : Call
  accepted : Bool
  decision : Option Decision

/-- The policy with the log, the newest entry first. -/
structure Logged where
  policy : PowerPolicy
  log : List Entry

def entryOf (policy : PowerPolicy) (call : Call) : Entry where
  call
  accepted := (accepted policy call).isSome
  decision := decision policy call

def Logged.next (s : Logged) (call : Call) : Logged where
  policy := s.policy.next call
  log := entryOf s.policy call :: s.log

/-- A policy that was just made. -/
def logged (policy : PowerPolicy) : Logged where
  policy
  log := []

def Logged.lastDecision (s : Logged) : Option Decision := s.log.findSome? Entry.decision

/-- An accepted reading that did not reach a decision. -/
def Entry.Waits (e : Entry) : Prop := e.accepted = true ∧ e.decision = none

/-- The average is the truncated mean of the reading and of the two calls right before it, which
were accepted readings of the same kind, five to fifteen seconds apart, without a decision. -/
def MeanOfThree (log : List Entry) (status : Status) (average : Int) : Prop :=
  ∃ b a older, log = b :: a :: older ∧ (b.Waits ∧ a.Waits) ∧
    (SameKind b.call.status status ∧ SameKind a.call.status status) ∧
      (Spaced status b.call.status ∧ Spaced b.call.status a.call.status) ∧
        average = (a.call.status.currentUa + b.call.status.currentUa + status.currentUa).tdiv 3

/-- The window of the policy holds the readings of the newest entries. -/
def Windowed (s : Logged) : Prop :=
  ∃ recent older, s.log = recent ++ older ∧ (∀ e ∈ recent, e.Waits) ∧
    Gathered s.policy (recent.map fun e => e.call.status)

section Runs
variable {s : Logged} {call : Call} {policy window : PowerPolicy}

theorem windowed_next (h : Windowed s) (hpos : 0 < call.status.readMs) : Windowed (s.next call) := by
  obtain ⟨recent, older, hlog, hwaits, hgathered⟩ := h
  have hempty (hp : Emptied (s.next call).policy call.now) : Windowed (s.next call) :=
    ⟨[], (s.next call).log, rfl, fun e he => absurd he List.not_mem_nil, gathered_empty hp⟩
  have hpolicy : (s.next call).policy =
      (powerPolicyStep s.policy call.status call.now call.asleep).2 := rfl
  cases haccepted : accepted s.policy call with
  | none =>
    obtain ⟨last, hstep, _⟩ := step_rejected haccepted
    rw [hstep] at hpolicy
    refine hempty ?_
    rw [hpolicy]
    exact ⟨rfl, rfl, rfl, rfl, rfl⟩
  | some window =>
    have hstep := step_accepted haccepted
    by_cases hopen : window.samples < 3 ∨ call.now - window.windowStartedMs < 30000
    · rw [if_pos hopen] at hstep
      rw [hstep] at hpolicy
      obtain ⟨kept, hkept, hw⟩ := accepted_gathered hgathered hpos haccepted
      have hwait : (entryOf s.policy call).Waits :=
        ⟨congrArg Option.isSome haccepted, decision_eq_none (closing_eq_none haccepted hopen)⟩
      obtain ⟨entries, rest, hentries, hmap, hall⟩ : ∃ entries rest, s.log = entries ++ rest ∧
          entries.map (fun e => e.call.status) = kept ∧ ∀ e ∈ entries, e.Waits := by
        rcases hkept with rfl | rfl
        · exact ⟨recent, older, hlog, rfl, hwaits⟩
        · exact ⟨[], s.log, rfl, rfl, fun e he => absurd he List.not_mem_nil⟩
      refine ⟨(entryOf s.policy call :: entries).take 3,
        (entryOf s.policy call :: entries).drop 3 ++ rest, ?_, fun e he => ?_, ?_⟩
      · rw [← List.append_assoc, List.take_append_drop, List.cons_append, ← hentries]
        rfl
      · rcases List.mem_cons.mp (List.mem_of_mem_take he) with rfl | he
        · exact hwait
        · exact hall e he
      · rw [hpolicy, List.map_take, List.map_cons, hmap]
        exact hw
    · rw [if_neg hopen] at hstep
      rw [hstep] at hpolicy
      refine hempty ?_
      rw [hpolicy]
      exact (closeWindow_emptied window call.status call.now).1

theorem windowed_run {calls : List Call} (h : Windowed s)
    (hpos : ∀ call ∈ calls, 0 < call.status.readMs) : Windowed (calls.foldl Logged.next s) := by
  induction calls generalizing s with
  | nil => exact h
  | cons call rest ih =>
    exact ih (windowed_next h (hpos call List.mem_cons_self)) fun c hc =>
      hpos c (List.mem_cons_of_mem _ hc)

theorem windowed_logged {maxLevel now : Int} (h : powerPolicyNew maxLevel now = some policy) :
    Windowed (logged policy) := by
  rw [powerPolicyNew] at h
  split at h
  · cases h
  · cases h
    exact ⟨[], [], rfl, fun e he => absurd he List.not_mem_nil,
      gathered_empty ⟨rfl, rfl, rfl, rfl, rfl⟩⟩

/-- A decision is on the mean of the last three readings. -/
theorem windowed_decides (h : Windowed s) (hpos : 0 < call.status.readMs) {d : Decision}
    (hd : decision s.policy call = some d) : MeanOfThree s.log call.status d.average := by
  obtain ⟨recent, older, hlog, hwaits, hgathered⟩ := h
  obtain ⟨window, hclosing, rfl⟩ := Option.map_eq_some_iff.mp hd
  obtain ⟨haccepted, hfull⟩ := closing_eq_some.mp hclosing
  obtain ⟨kept, hkept, hw⟩ := accepted_gathered hgathered hpos haccepted
  have hcount : ((call.status :: kept).take 3).length = window.samples := by
    have := hw.ring.length
    rwa [List.length_map] at this
  have hbound : window.samples ≤ 3 := hw.ring.bound
  obtain ⟨b, a, rest, rfl⟩ : ∃ b a rest, kept = b :: a :: rest := by
    match kept with
    | [] => simp at hcount; omega
    | [b] => simp at hcount; omega
    | b :: a :: rest => exact ⟨b, a, rest, rfl⟩
  have hrecent := hkept.resolve_right nofun
  match recent with
  | [] => cases hrecent
  | [e] => cases hrecent
  | eb :: ea :: more =>
    cases hrecent
    have hthree : window.samples = 3 := by omega
    have hsum : window.currentSum =
        ([call.status, eb.call.status, ea.call.status].map Status.currentUa).sum := hw.ring.total
    have htotal : window.currentSum =
        ea.call.status.currentUa + eb.call.status.currentUa + call.status.currentUa := by
      rw [hsum]
      simp only [List.map_cons, List.map_nil, List.sum_cons, List.sum_nil]
      omega
    have hkind (s : Status) (hs : s ∈ [call.status, eb.call.status, ea.call.status]) :
        SameKind s call.status := by
      obtain ⟨hsource, hstate⟩ := hw.kind s hs
      obtain ⟨hsource', hstate'⟩ := hw.kind call.status List.mem_cons_self
      exact ⟨supplyCode_injective (hsource.symm.trans hsource'),
        fullCode_injective (hstate.symm.trans hstate')⟩
    refine ⟨eb, ea, more ++ older, hlog, ⟨hwaits eb (by simp), hwaits ea (by simp)⟩,
      ⟨hkind _ (by simp), hkind _ (by simp)⟩, ?_, ?_⟩
    · obtain ⟨hfirst, hsecond⟩ := List.isChain_cons_cons.mp hw.spaced
      exact ⟨hfirst, (List.isChain_cons_cons.mp hsecond).1⟩
    · change window.currentSum.tdiv window.samples = _
      rw [htotal, hthree]
      rfl

/-! The time between decisions. -/

/-- A reading of another supply or Full state than its window's, less than ten seconds after the
last decision: the window is back-dated to before that decision. -/
def Backdates (s : Logged) (call : Call) : Prop :=
  (accepted s.policy call).isSome ∧ Changes s.policy call.status ∧
    ∃ d, s.lastDecision = some d ∧ call.now < d.now + 10000

/-- The window has not begun before the last decision. -/
def Since (s : Logged) : Prop :=
  ∀ d, s.lastDecision = some d → d.now ≤ s.policy.windowStartedMs ∧
    (s.policy.lastReadMs = 0 ∨ d.now ≤ s.policy.lastReadMs)

/-- An accepted reading is stamped with the call's own time. -/
def Stamped (s : Logged) (call : Call) : Prop :=
  (accepted s.policy call).isSome → call.status.readMs = call.now

theorem lastDecision_next (s : Logged) (call : Call) :
    (s.next call).lastDecision = (decision s.policy call).or s.lastDecision := by
  have hentry : (entryOf s.policy call).decision = decision s.policy call := rfl
  rw [Logged.lastDecision, Logged.next, List.findSome?_cons, hentry]
  cases decision s.policy call with
  | none => rfl
  | some d => rfl

/-- The window that a reading goes into has not begun before the last decision either. -/
theorem accepted_started (h : accepted s.policy call = some window) (hsince : Since s)
    (hstamp : Stamped s call) (hfresh : ¬ Backdates s call) :
    window.lastReadMs = call.status.readMs ∧
      ∀ d, s.lastDecision = some d → d.now ≤ window.windowStartedMs := by
  have hread := hstamp (congrArg Option.isSome h)
  have haccepted : (accepted s.policy call).isSome := congrArg Option.isSome h
  simp only [accepted] at h
  split at h
  · cases h
  split at h
  · cases h
  split at h
  · rename_i hgap
    cases h
    have hsame : ¬ Changes (resetWindow s.policy (call.now - 10000)) call.status := by
      rintro (hsource | hfull)
      · exact hsource.1 rfl
      · exact absurd hfull.1 (show ¬ (0 : Int) ≤ -1 by decide)
    rw [withReading_continues hsame]
    refine ⟨rfl, fun d hd => ?_⟩
    have hlast := (hsince d hd).2.resolve_left hgap.1
    change d.now ≤ call.now - 10000
    omega
  split at h
  · cases h
  cases h
  by_cases hchange : Changes s.policy call.status
  · rw [withReading_changes hchange]
    refine ⟨rfl, fun d hd => ?_⟩
    change d.now ≤ call.now - 10000
    by_contra hearly
    exact hfresh ⟨haccepted, hchange, d, hd, by omega⟩
  · rw [withReading_continues hchange]
    exact ⟨rfl, fun d hd => (hsince d hd).1⟩

theorem since_next (hsince : Since s) (hnow : ∀ d, s.lastDecision = some d → d.now ≤ call.now)
    (hstamp : Stamped s call) (hfresh : ¬ Backdates s call) : Since (s.next call) := by
  have hpolicy : (s.next call).policy =
      (powerPolicyStep s.policy call.status call.now call.asleep).2 := rfl
  intro d hd
  rw [lastDecision_next] at hd
  cases haccepted : accepted s.policy call with
  | none =>
    obtain ⟨last, hstep, hlast⟩ := step_rejected haccepted
    have hnone : decision s.policy call = none := by
      rw [decision, closing, haccepted]
      rfl
    rw [hnone, Option.none_or] at hd
    rw [hpolicy, hstep]
    refine ⟨hnow d hd, ?_⟩
    change last = 0 ∨ d.now ≤ last
    rcases hlast with hzero | ⟨hfirst, hle⟩
    · exact .inl hzero
    · exact .inr (((hsince d hd).2.resolve_left hfirst).trans hle)
  | some window =>
    obtain ⟨hread, hstarted⟩ := accepted_started haccepted hsince hstamp hfresh
    have hnow' := hstamp (congrArg Option.isSome haccepted)
    have hstep := step_accepted haccepted
    by_cases hopen : window.samples < 3 ∨ call.now - window.windowStartedMs < 30000
    · rw [decision_eq_none (closing_eq_none haccepted hopen), Option.none_or] at hd
      rw [hpolicy, hstep, if_pos hopen]
      refine ⟨hstarted d hd, .inr ?_⟩
      rw [hread, hnow']
      exact hnow d hd
    · have hd' : d.now = call.now := by
        have hdecision : decision s.policy call = some _ :=
          congrArg (Option.map _) (closing_eq_some.mpr ⟨haccepted, hopen⟩)
        rw [hdecision] at hd
        cases hd
        rfl
      obtain ⟨hemptied, hlast⟩ := closeWindow_emptied window call.status call.now
      rw [hpolicy, hstep, if_neg hopen, hemptied.started, hlast, hread, hnow', hd']
      exact ⟨le_rfl, .inr le_rfl⟩

theorem decision_now {d : Decision} (h : decision policy call = some d) : d.now = call.now := by
  obtain ⟨window, _, rfl⟩ := Option.map_eq_some_iff.mp h
  rfl

/-- The last decision is of a call of the run. -/
theorem lastDecision_mem {policy : PowerPolicy} {calls : List Call} {d : Decision}
    (h : (calls.foldl Logged.next (logged policy)).lastDecision = some d) :
    ∃ call ∈ calls, d.now = call.now := by
  induction calls using List.reverseRecOn with
  | nil => cases h
  | append_singleton calls call ih =>
    rw [List.foldl_append, List.foldl_cons, List.foldl_nil, lastDecision_next] at h
    rcases Option.or_eq_some_iff.mp h with hnew | ⟨_, hold⟩
    · exact ⟨call, by simp, decision_now hnew⟩
    · obtain ⟨c, hc, hnow⟩ := ih hold
      exact ⟨c, List.mem_append_left _ hc, hnow⟩

theorem since_run {policy : PowerPolicy} {calls : List Call}
    (hmono : calls.Pairwise fun a b => a.now ≤ b.now)
    (hall : ∀ first call rest, calls = first ++ call :: rest →
      Stamped (first.foldl Logged.next (logged policy)) call ∧
        ¬ Backdates (first.foldl Logged.next (logged policy)) call) :
    Since (calls.foldl Logged.next (logged policy)) := by
  induction calls using List.reverseRecOn with
  | nil => exact nofun
  | append_singleton calls call ih =>
    obtain ⟨hbefore, _, hlater⟩ := List.pairwise_append.mp hmono
    obtain ⟨hstamp, hfresh⟩ := hall calls call [] rfl
    have hsince := ih hbefore fun first c rest heq =>
      hall first c (rest ++ [call]) (by rw [heq, List.append_assoc]; rfl)
    rw [List.foldl_append]
    refine since_next hsince (fun d hd => ?_) hstamp hfresh
    obtain ⟨c, hc, hnow⟩ := lastDecision_mem hd
    exact hnow ▸ hlater c hc call List.mem_cons_self

/-- Over every run: a step without a decision leaves the levels alone, and one that decides does so
on the truncated mean of the last three accepted readings, thirty seconds after the decision before it
where the readings are stamped with their calls' time and none back-dates its window to before a
decision. -/
theorem decisions_measured {maxLevel start : Int} (hnew : powerPolicyNew maxLevel start = some policy)
    {calls : List Call} (hpos : ∀ c ∈ calls ++ [call], 0 < c.status.readMs)
    (hmono : (calls ++ [call]).Pairwise fun a b => a.now ≤ b.now) :
    let s := calls.foldl Logged.next (logged policy)
    let step := powerPolicyStep s.policy call.status call.now call.asleep
    (decision s.policy call = none → step.1 = -1 ∧ SameLevels s.policy step.2) ∧
      ∀ d, decision s.policy call = some d →
        (∃ emptied, SameLevels s.policy emptied ∧ step = carryOut emptied d) ∧
        MeanOfThree s.log call.status d.average ∧
        ((∀ first c rest, calls ++ [call] = first ++ c :: rest →
            Stamped (first.foldl Logged.next (logged policy)) c) →
          (∀ first c rest, calls ++ [call] = first ++ c :: rest →
            ¬ Backdates (first.foldl Logged.next (logged policy)) c) →
          ∀ last, s.lastDecision = some last → last.now + 30000 ≤ d.now) := by
  intro s step
  have hwindowed := windowed_run (windowed_logged hnew) fun c hc =>
    hpos c (List.mem_append_left _ hc)
  refine ⟨step_undecided, fun d hd => ⟨step_decides hd, windowed_decides hwindowed (hpos call (by simp)) hd,
    fun hstamped hnone last hlast => ?_⟩⟩
  have hsince : Since (calls.foldl Logged.next (logged policy)) := by
    refine since_run (List.pairwise_append.mp hmono).1 fun first c rest heq => ?_
    have hsplit : calls ++ [call] = first ++ c :: (rest ++ [call]) := by
      rw [heq, List.append_assoc]
      rfl
    exact ⟨hstamped first c _ hsplit, hnone first c _ hsplit⟩
  obtain ⟨window, hclosing, rfl⟩ := Option.map_eq_some_iff.mp hd
  obtain ⟨haccepted, hfull⟩ := closing_eq_some.mp hclosing
  have hstarted := (accepted_started haccepted hsince (hstamped calls call [] rfl)
    (hnone calls call [] rfl)).2 last hlast
  change last.now + 30000 ≤ call.now
  omega

end Runs

section Samples

/-- A complete sample, with the computer's supply or none. -/
def sample (usbOnline currentUa readMs : Int) : Status where
  haveBatt := true
  cap := 80
  mv := 3900
  ma := 0
  plugged := usbOnline ≠ 0
  word := cstr "Charging"
  haveWifi := false
  level := 0
  quality := 0
  addr := []
  usbOnline
  acOnline := 0
  usbValid := true
  acValid := true
  onlineValid := true
  currentUa
  currentValid := true
  capValid := true
  wordValid := true
  readMs

/-- A call with a sample taken at its own time. -/
def prompt (usbOnline currentUa now : Int) : Call where
  status := sample usbOnline currentUa now
  now
  asleep := false

/-- The policy of a panel with the levels up to 255. -/
def policy255 : PowerPolicy := (powerPolicyNew 255 0).get rfl

/-- The third sample of ten seconds each decides on their mean. -/
theorem third_sample_decides :
    MeanOfThree ([prompt 0 (-200000) 10000, prompt 0 (-300000) 20000].foldl Logged.next
      (logged policy255)).log (sample 0 (-300000) 30000) (-266666) := by
  have hnew : powerPolicyNew 255 0 = some policy255 := (Option.some_get rfl).symm
  have hd : decision ([prompt 0 (-200000) 10000, prompt 0 (-300000) 20000].foldl Logged.next
      (logged policy255)).policy (prompt 0 (-300000) 30000) =
      some ⟨none, false, -266666, 30000⟩ := by
    decide +kernel
  exact ((decisions_measured hnew (by decide) (by decide)).2 _ hd).2.1

/-- The calls up to a decision at 30000, and two after it: one asleep and awake again at once, then a
supply that is plugged in five seconds later. -/
def wokenCalls : List Call :=
  [prompt 0 (-300000) 10000, prompt 0 (-300000) 20000, prompt 0 (-300000) 30000,
    { prompt 0 (-300000) 30000 with asleep := true }, prompt 0 (-300000) 30000, prompt 1 0 35000,
    prompt 1 0 45000]

/-- The next decision comes twenty-five seconds after that one. -/
theorem woken_decides_early :
    (wokenCalls ++ [prompt 1 0 55000]).Pairwise (fun a b => a.now ≤ b.now) ∧
      (∀ c ∈ wokenCalls ++ [prompt 1 0 55000], 0 < c.status.readMs ∧ c.status.readMs = c.now) ∧
        (wokenCalls.foldl Logged.next (logged policy255)).lastDecision.map Decision.now =
            some 30000 ∧
          (decision (wokenCalls.foldl Logged.next (logged policy255)).policy
            (prompt 1 0 55000)).map Decision.now = some 55000 := by
  decide +kernel

end Samples

end Taq102.Runtime
