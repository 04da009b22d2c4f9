import Taq102.Lib.History
import Taq102.Worker.Model

/-! What the worker's history may look like: children one after the other, one result for each,
read at most once, and no signal for a child that is gone. -/
namespace Taq102.Worker
open Taq102.Lib History Transition

def starts (log : List Event) : List Nat :=
  log.filterMap fun e => match e with
    | .started pid => some pid
    | _ => none

def reaps (log : List Event) : List Nat :=
  log.filterMap fun e => match e with
    | .reaped pid => some pid
    | _ => none

def results (log : List Event) : List Int :=
  log.filterMap fun e => match e with
    | .published result => some result
    | _ => none

def deliveries (log : List Event) : List Int :=
  log.filterMap fun e => match e with
    | .delivered result => some result
    | _ => none

def isStart : Event → Bool
  | .started _ => true
  | _ => false

/-- The events since the newest start. -/
def life (log : List Event) : List Event := since isStart log

/-- The child started last is the only one not reaped. -/
def Unreaped (log : List Event) (pid : Nat) : Prop := starts log = reaps log ++ [pid]

/-- The newest child was stopped. -/
def Halted (log : List Event) : Prop := ∃ pid cause, .stopped pid cause ∈ life log

/-- The newest child ended by itself with this status. -/
def EndedWith (log : List Event) (status : WaitStatus) : Prop :=
  ∃ pid, (starts log).getLast? = some pid ∧ .ended pid status ∈ life log

/-- What may happen after a history. A child starts when all before it are reaped and their
results, one for each, are read; only a child that is not reaped is signalled; the newest child's
only result overwrites no unread one and is -1 if it was stopped, otherwise its own status; a read takes the oldest unread
result; and the worker is freed after its release, with no child left. -/
def Allowed (past : List Event) : Event → Prop
  | .started pid => pid ≠ 0 ∧ starts past = reaps past ∧ results past = deliveries past ∧
      (results past).length = (starts past).length
  | .ended pid _ => Unreaped past pid ∧ ∀ status, .ended pid status ∉ life past
  | .signal target => ∃ pid, Unreaped past pid ∧ (target = pid ∨ target = -pid)
  | .stopped pid _ => Unreaped past pid ∧ (results past).length + 1 = (starts past).length
  | .reaped pid => Unreaped past pid ∧ ∃ status, .ended pid status ∈ life past
  | .published result => (results past).length + 1 = (starts past).length ∧
      results past = deliveries past ∧
      (Halted past ∧ result = -1 ∨
        ¬ Halted past ∧ ∃ status, EndedWith past status ∧ result = statusResult status)
  | .delivered result => results past = deliveries past ++ [result]
  | .released => True
  | .freed => .released ∈ past ∧ starts past = reaps past

/-- The worker's fields in terms of the history. -/
structure Tracks (w : ActionWorker) (procs : Nat → Option Proc) (log : List Event) : Prop where
  idle : w.pid = 0 → starts log = reaps log
  child : w.pid ≠ 0 → Unreaped log w.pid
  only : ∀ pid, procs pid ≠ none → w.pid ≠ 0 ∧ pid = w.pid
  held : w.pid ≠ 0 → procs w.pid ≠ none
  running : procs w.pid = some .running → ∀ status, .ended w.pid status ∉ life log
  ended : ∀ status, procs w.pid = some (.ended status) → .ended w.pid status ∈ life log
  busy : w.busy = true ↔ w.pid ≠ 0 ∧ w.stopped = false
  owed : (results log).length + (if w.busy then 1 else 0) = (starts log).length
  unread : results log = deliveries log ++ (if w.pending then [w.result] else [])
  quiet : w.busy = true → w.pending = false
  halted : w.pid ≠ 0 → (w.stopped = true ↔ Halted log)
  released : w.released = true → .released ∈ log

section Append
variable {log more : List Event} {e : Event}

@[simp] theorem starts_append : starts (log ++ more) = starts log ++ starts more :=
  List.filterMap_append

@[simp] theorem reaps_append : reaps (log ++ more) = reaps log ++ reaps more :=
  List.filterMap_append

@[simp] theorem results_append : results (log ++ more) = results log ++ results more :=
  List.filterMap_append

@[simp] theorem deliveries_append : deliveries (log ++ more) = deliveries log ++ deliveries more :=
  List.filterMap_append

@[simp] theorem starts_nil : starts [] = [] := rfl

@[simp] theorem reaps_nil : reaps [] = [] := rfl

@[simp] theorem results_nil : results [] = [] := rfl

@[simp] theorem deliveries_nil : deliveries [] = [] := rfl

@[simp] theorem starts_cons : starts (e :: log) = (match e with
    | .started pid => [pid]
    | _ => []) ++ starts log := by
  cases e <;> simp [starts]

@[simp] theorem reaps_cons : reaps (e :: log) = (match e with
    | .reaped pid => [pid]
    | _ => []) ++ reaps log := by
  cases e <;> simp [reaps]

@[simp] theorem results_cons : results (e :: log) = (match e with
    | .published result => [result]
    | _ => []) ++ results log := by
  cases e <;> simp [results]

@[simp] theorem deliveries_cons : deliveries (e :: log) = (match e with
    | .delivered result => [result]
    | _ => []) ++ deliveries log := by
  cases e <;> simp [deliveries]

@[simp] theorem life_start (pid : Nat) : life (log ++ [.started pid]) = [] := since_restart rfl

@[simp] theorem life_append (hmore : starts more = []) : life (log ++ more) = life log ++ more := by
  apply since_append
  intro e he
  have hnone := List.filterMap_eq_nil_iff.mp hmore e he
  cases e <;> first | rfl | cases hnone

end Append

/-- A history that was allowed all along and that the worker's fields agree with. -/
structure Sound (w : ActionWorker) (procs : Nat → Option Proc) (log : List Event) : Prop where
  justified : Justified Allowed log
  tracks : Tracks w procs log

section Sections
variable {w : ActionWorker} {procs : Nat → Option Proc} {log : List Event}

theorem Sound.stopChild (h : Sound w procs log) (cause : StopCause) :
    Sound (stopChild w cause).1 procs (log ++ (stopChild w cause).2) := by
  obtain ⟨hjust, ht⟩ := h
  by_cases hdone : w.pid = 0 ∨ w.stopped
  · rw [Worker.stopChild, if_pos hdone, List.append_nil]
    exact ⟨hjust, ht⟩
  rw [Worker.stopChild, if_neg hdone]
  simp only [not_or, Bool.not_eq_true] at hdone
  obtain ⟨hpid, hstopped⟩ := hdone
  have hchild : starts log = reaps log ++ [w.pid] := ht.child hpid
  have hbusy := ht.busy.mpr ⟨hpid, hstopped⟩
  have hpending := ht.quiet hbusy
  have howed := ht.owed
  rw [if_pos hbusy] at howed
  have hunread := ht.unread
  simp only [hpending, Bool.false_eq_true, if_false, List.append_nil] at hunread
  have hlog : log ++ [.signal (-w.pid), .signal w.pid, .stopped w.pid cause, .published (-1)] =
      log ++ [.signal (-w.pid)] ++ [.signal w.pid] ++ [.stopped w.pid cause] ++ [.published (-1)] := by
    simp
  simp only [hlog]
  constructor
  · apply Justified.snoc (Justified.snoc (Justified.snoc (Justified.snoc hjust _) _) _)
    · refine ⟨by simp [howed], by simp [hunread], .inl ⟨?_, rfl⟩⟩
      exact ⟨w.pid, cause, by simp⟩
    · simp [Allowed, Unreaped, hchild]
    · simp [Allowed, Unreaped, hchild]
    · simp [Allowed, Unreaped, hchild, howed]
  · exact {
      idle := fun h => absurd h hpid
      child := fun _ => by simp [Unreaped, hchild]
      only := ht.only
      held := ht.held
      running := fun h => by simpa using ht.running h
      ended := fun status h => by simp [ht.ended status h]
      busy := by simp
      owed := by simpa using howed
      unread := by simp [hunread]
      quiet := fun h => Bool.noConfusion h
      halted := fun _ => iff_of_true rfl ⟨w.pid, cause, by simp⟩
      released := fun h => by simp [ht.released h] }

/-- A child is started. -/
theorem Sound.start (h : Sound w procs log) (hidle : w.pid = 0) (hread : w.pending = false)
    {pid : Nat} (hpid : pid ≠ 0) (deadline : Int) :
    Sound { w with deadline, pid, busy := true, stopped := false }
      (Function.update procs pid (some .running)) (log ++ [.started pid]) := by
  obtain ⟨hjust, ht⟩ := h
  have hstarts := ht.idle hidle
  have hbusy : w.busy = false := by
    by_contra hb
    exact (ht.busy.mp (Bool.not_eq_false _ ▸ hb)).1 hidle
  have howed := ht.owed
  have hunread := ht.unread
  simp only [hbusy, hread, Bool.false_eq_true, if_false, List.append_nil, Nat.add_zero] at howed hunread
  have hnone (p : Nat) : procs p = none := by
    by_contra hne
    exact (ht.only p hne).1 hidle
  constructor
  · exact hjust.snoc ⟨hpid, hstarts, hunread, howed⟩
  · exact {
      idle := fun h => absurd h hpid
      child := fun _ => by simp [Unreaped, hstarts]
      only := fun p h => ⟨hpid, by
        by_contra hne
        rw [Function.update_of_ne hne] at h
        exact h (hnone p)⟩
      held := fun _ => by simp
      running := fun _ status => by simp
      ended := fun _ h => by simp at h
      busy := by simp [hpid]
      owed := by simp [howed]
      unread := by simp [hunread, hread]
      quiet := fun _ => hread
      halted := fun _ => by simp [Halted]
      released := fun h => by simp [ht.released h] }

/-- The UI reads the result. -/
theorem Sound.deliver (h : Sound w procs log) (hpending : w.pending = true) :
    Sound { w with pending := false } procs (log ++ [.delivered w.result]) := by
  obtain ⟨hjust, ht⟩ := h
  have hunread := ht.unread
  rw [if_pos hpending] at hunread
  exact ⟨hjust.snoc hunread, {
    idle := fun h => by simp [ht.idle h]
    child := fun h => by simpa [Unreaped] using ht.child h
    only := ht.only
    held := ht.held
    running := fun h => by simpa using ht.running h
    ended := fun status h => by simp [ht.ended status h]
    busy := ht.busy
    owed := by simpa using ht.owed
    unread := by simp [hunread]
    quiet := fun _ => rfl
    halted := fun h => by simpa [Halted] using ht.halted h
    released := fun h => by simp [ht.released h] }⟩

theorem Sound.release (h : Sound w procs log) :
    Sound { w with released := true } procs (log ++ [.released]) := by
  obtain ⟨hjust, ht⟩ := h
  exact ⟨hjust.snoc trivial, {
    idle := fun h => by simp [ht.idle h]
    child := fun h => by simpa [Unreaped] using ht.child h
    only := ht.only
    held := ht.held
    running := fun h => by simpa using ht.running h
    ended := fun status h => by simp [ht.ended status h]
    busy := ht.busy
    owed := by simpa using ht.owed
    unread := by simpa using ht.unread
    quiet := ht.quiet
    halted := fun h => by simpa [Halted] using ht.halted h
    released := fun _ => by simp }⟩

/-- The child ends by itself. -/
theorem Sound.ends (h : Sound w procs log) {pid : Nat} (hrunning : procs pid = some .running)
    (status : WaitStatus) :
    Sound w (Function.update procs pid (some (.ended status))) (log ++ [.ended pid status]) := by
  obtain ⟨hjust, ht⟩ := h
  obtain ⟨hpid, rfl⟩ := ht.only pid (by simp [hrunning])
  exact ⟨hjust.snoc ⟨ht.child hpid, ht.running hrunning⟩, {
    idle := fun h => absurd h hpid
    child := fun h => by simpa [Unreaped] using ht.child h
    only := fun p h => ⟨hpid, by
      by_contra hne
      rw [Function.update_of_ne hne] at h
      exact hne (ht.only p h).2⟩
    held := fun _ => by simp
    running := fun h => by simp at h
    ended := fun _ h => by
      simp only [Function.update_self, Option.some.injEq, Proc.ended.injEq] at h
      simp [h]
    busy := ht.busy
    owed := by simpa using ht.owed
    unread := by simpa using ht.unread
    quiet := ht.quiet
    halted := fun h => by simpa [Halted] using ht.halted h
    released := fun h => by simp [ht.released h] }⟩

theorem Sound.deadline (h : Sound w procs log) (deadline : Int) :
    Sound { w with deadline } procs log :=
  ⟨h.justified, { h.tracks with }⟩

end Sections

/-- The invariant of a run; after the worker is freed no child and no debt is left. -/
def Accounted (s : System) : Prop :=
  match s.worker with
  | some w => Sound w s.procs s.log
  | none => Justified Allowed s.log ∧ (∀ pid, s.procs pid = none) ∧
      (results s.log).length = (starts s.log).length ∧ starts s.log = reaps s.log

section Steps
variable {s : System} {w : ActionWorker}

end Steps

end Taq102.Worker
