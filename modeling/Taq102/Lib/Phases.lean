import Mathlib.Data.Fintype.Card
import Mathlib.Data.List.FinRange
import Taq102.Lib.Transition

/-! A coordinator and `n` workers that meet at two barriers. The coordinator names a phase and
opens the start barrier with the workers; they run their shares of the phase, their steps in any
order; all meet at the done barrier. -/
namespace Taq102.Lib.Phases
open Transition
variable {n : Nat} {π σ : Type*}

/-- How many have arrived in the round that is open, and the rounds that are complete. -/
structure Barrier where
  arrived : Nat
  round : Nat

/-- One more arrives; the last of the parties completes the round. -/
def Barrier.arrive (parties : Nat) (b : Barrier) : Barrier :=
  if b.arrived + 1 = parties then ⟨0, b.round + 1⟩ else ⟨b.arrived + 1, b.round⟩

/-- What the coordinator does next: a step of its own, or a phase of all workers. -/
inductive Task (π σ : Type*) where
  | act (f : σ → σ)
  | phase (p : π)

/-- Where the coordinator is; a wait carries the round it arrived in. -/
inductive Coordinator where
  | idle
  | named
  | starting (round : Nat)
  | started
  | finishing (round : Nat)
  deriving DecidableEq

/-- Where a worker is; at work it carries the steps it has left. -/
inductive Worker (σ : Type*) where
  | free
  | starting (round : Nat)
  | entered
  | working (rest : List (σ → σ))
  | finishing (round : Nat)

structure State (n : Nat) (π σ : Type*) where
  mem : σ
  phase : π
  start : Barrier
  done : Barrier
  next : Nat
  main : Coordinator
  worker : Fin n → Worker σ

inductive Turn (n : Nat) where
  | main
  | worker (i : Fin n)

section Program
variable (work : π → Fin n → List (σ → σ)) (tasks : Nat → Task π σ)

def stepMain (s : State n π σ) : Option (State n π σ) :=
  match s.main with
  | .idle =>
    match tasks s.next with
    | .act f => some { s with mem := f s.mem, next := s.next + 1 }
    | .phase p => some { s with phase := p, main := .named }
  | .named => some { s with start := s.start.arrive (n + 1), main := .starting s.start.round }
  | .starting r => if r < s.start.round then some { s with main := .started } else none
  | .started => some { s with done := s.done.arrive (n + 1), main := .finishing s.done.round }
  | .finishing r =>
    if r < s.done.round then some { s with main := .idle, next := s.next + 1 } else none

def stepWorker (s : State n π σ) (i : Fin n) : Option (State n π σ) :=
  let goes (w : Worker σ) : Fin n → Worker σ := Function.update s.worker i w
  match s.worker i with
  | .free => some { s with start := s.start.arrive (n + 1), worker := goes (.starting s.start.round) }
  | .starting r => if r < s.start.round then some { s with worker := goes .entered } else none
  | .entered => some { s with worker := goes (.working (work s.phase i)) }
  | .working (a :: rest) => some { s with mem := a s.mem, worker := goes (.working rest) }
  | .working [] =>
    some { s with done := s.done.arrive (n + 1), worker := goes (.finishing s.done.round) }
  | .finishing r => if r < s.done.round then some { s with worker := goes .free } else none

/-- One step of one thread; `none` while it is blocked. -/
def step (s : State n π σ) : Turn n → Option (State n π σ)
  | .main => stepMain tasks s
  | .worker i => stepWorker work s i

def init (mem : σ) (phase : π) : State n π σ where
  mem := mem
  phase := phase
  start := ⟨0, 0⟩
  done := ⟨0, 0⟩
  next := 0
  main := .idle
  worker := fun _ => .free

/-- One worker's steps, in their order. -/
def execute (steps : List (σ → σ)) (m : σ) : σ := steps.foldl (fun m a => a m) m

/-- Every worker's steps, one worker after the other. -/
def executeAll (steps : Fin n → List (σ → σ)) (m : σ) : σ :=
  (List.finRange n).foldl (fun m i => execute (steps i) m) m

/-- The memory after the first tasks, each run to its end by one thread. -/
def sequential (mem : σ) : Nat → σ
  | 0 => mem
  | k + 1 =>
    match tasks k with
    | .act f => f (sequential mem k)
    | .phase p => executeAll (work p) (sequential mem k)

/-- Steps of different workers in one phase may be exchanged. -/
def Independent : Prop :=
  ∀ p i j, i ≠ j → ∀ a ∈ work p i, ∀ b ∈ work p j, ∀ m, a (b m) = b (a m)

end Program

theorem execute_commute {a : σ → σ} {steps : List (σ → σ)} (h : ∀ b ∈ steps, ∀ m, a (b m) = b (a m))
    (m : σ) : execute steps (a m) = a (execute steps m) := by
  induction steps generalizing m with
  | nil => rfl
  | cons b rest ih =>
    have hb : b (a m) = a (b m) := (h b List.mem_cons_self m).symm
    have hrest : ∀ c ∈ rest, ∀ m, a (c m) = c (a m) := fun c hc => h c (List.mem_cons_of_mem b hc)
    change execute rest (b (a m)) = a (execute rest (b m))
    rw [hb]
    exact ih hrest (b m)

/-- The first step left to one worker may be taken before everything the others have left. -/
theorem executeAll_step {steps : Fin n → List (σ → σ)} {i : Fin n} {a : σ → σ}
    {rest : List (σ → σ)} (hi : steps i = a :: rest)
    (hcomm : ∀ j, j ≠ i → ∀ b ∈ steps j, ∀ m, a (b m) = b (a m)) (m : σ) :
    executeAll (Function.update steps i rest) (a m) = executeAll steps m := by
  have hpass (l : List (Fin n)) (hl : i ∉ l) (m : σ) :
      l.foldl (fun m j => execute (Function.update steps i rest j) m) (a m) =
        a (l.foldl (fun m j => execute (steps j) m) m) := by
    induction l generalizing m with
    | nil => rfl
    | cons j l ih =>
      have hj : j ≠ i := fun h => hl (h ▸ List.mem_cons_self)
      have hl' : i ∉ l := fun h => hl (List.mem_cons_of_mem j h)
      rw [List.foldl_cons, List.foldl_cons, Function.update_of_ne hj, execute_commute (hcomm j hj)]
      exact ih hl' _
  have hafter (l : List (Fin n)) (hl : i ∉ l) (m : σ) :
      l.foldl (fun m j => execute (Function.update steps i rest j) m) m =
        l.foldl (fun m j => execute (steps j) m) m := by
    refine List.foldl_ext _ _ m fun m j hj => ?_
    rw [Function.update_of_ne (ne_of_mem_of_not_mem hj hl)]
  obtain ⟨before, after, hsplit⟩ := List.append_of_mem (List.mem_finRange i)
  have hnodup : (before ++ i :: after).Nodup := hsplit ▸ List.nodup_finRange n
  have hbefore : i ∉ before := fun h =>
    (List.nodup_append.mp hnodup).2.2 i h i List.mem_cons_self rfl
  have hlater : i ∉ after := (List.nodup_cons.mp (List.nodup_append.mp hnodup).2.1).1
  unfold executeAll
  rw [hsplit, List.foldl_append, List.foldl_append, List.foldl_cons, List.foldl_cons,
    hpass before hbefore, Function.update_self, hi, hafter after hlater]
  rfl

theorem executeAll_nil {steps : Fin n → List (σ → σ)} (h : ∀ i, steps i = []) (m : σ) :
    executeAll steps m = m := by
  unfold executeAll
  induction List.finRange n with
  | nil => rfl
  | cons i l ih =>
    rw [List.foldl_cons, h i]
    exact ih

theorem execute_append (first rest : List (σ → σ)) (m : σ) :
    execute (first ++ rest) m = execute rest (execute first m) := List.foldl_append

theorem executeAll_flatMap (steps : Fin n → List (σ → σ)) (m : σ) :
    executeAll steps m = execute ((List.finRange n).flatMap steps) m := by
  unfold executeAll
  induction List.finRange n generalizing m with
  | nil => rfl
  | cons i l ih =>
    rw [List.foldl_cons, List.flatMap_cons, execute_append]
    exact ih _

/-! How many threads stand at a barrier. -/
section Headcount

/-- The workers with a property. -/
def headcount (p : Worker σ → Bool) (w : Fin n → Worker σ) : Nat :=
  (Finset.univ.filter fun i => p (w i) = true).card

theorem headcount_full {p : Worker σ → Bool} {w : Fin n → Worker σ} (h : headcount p w = n)
    (i : Fin n) : p (w i) = true := by
  have hcard : (Finset.univ.filter fun i => p (w i) = true).card = (Finset.univ : Finset (Fin n)).card := by
    rw [Finset.card_univ, Fintype.card_fin]
    exact h
  exact Finset.card_filter_eq_iff.mp hcard i (Finset.mem_univ i)

theorem exists_missing {p : Worker σ → Bool} {w : Fin n → Worker σ} (h : headcount p w < n) :
    ∃ i, p (w i) = false := by
  by_contra hnone
  have hall (i : Fin n) : p (w i) = true := by
    by_contra hne
    exact hnone ⟨i, Bool.eq_false_of_not_eq_true hne⟩
  unfold headcount at h
  rw [Finset.filter_true_of_mem fun i _ => hall i, Finset.card_univ, Fintype.card_fin] at h
  exact Nat.lt_irrefl n h

theorem headcount_zero {p : Worker σ → Bool} {w : Fin n → Worker σ} (h : ∀ i, p (w i) = false) :
    headcount p w = 0 := by
  unfold headcount
  rw [Finset.card_eq_zero, Finset.filter_eq_empty_iff]
  intro i _
  rw [h i]
  exact Bool.false_ne_true

theorem headcount_congr {p : Worker σ → Bool} {w : Fin n → Worker σ} {i : Fin n} {x : Worker σ}
    (h : p x = p (w i)) : headcount p (Function.update w i x) = headcount p w := by
  unfold headcount
  congr 1
  ext j
  by_cases hj : j = i
  · subst hj
    simp [h]
  · simp [hj]

theorem headcount_succ {p : Worker σ → Bool} {w : Fin n → Worker σ} {i : Fin n} {x : Worker σ}
    (hold : p (w i) = false) (hnew : p x = true) :
    headcount p (Function.update w i x) = headcount p w + 1 := by
  have hset : (Finset.univ.filter fun j => p (Function.update w i x j) = true) =
      insert i (Finset.univ.filter fun j => p (w j) = true) := by
    ext j
    by_cases hj : j = i
    · subst hj
      simp [hnew]
    · simp [hj]
  have hfresh : i ∉ Finset.univ.filter fun j => p (w j) = true := by
    simp [hold]
  unfold headcount
  rw [hset, Finset.card_insert_of_notMem hfresh]

end Headcount

@[simp] def Worker.starts (r : Nat) : Worker σ → Bool
  | .starting r' => decide (r' = r)
  | _ => false

@[simp] def Worker.finishes (r : Nat) : Worker σ → Bool
  | .finishing r' => decide (r' = r)
  | _ => false

theorem eq_of_starts {w : Worker σ} {r : Nat} (h : w.starts r = true) : w = .starting r := by
  cases w <;> simp_all

theorem eq_of_finishes {w : Worker σ} {r : Nat} (h : w.finishes r = true) : w = .finishing r := by
  cases w <;> simp_all

theorem Barrier.arrive_more {b : Barrier} (h : b.arrived < n) :
    b.arrive (n + 1) = ⟨b.arrived + 1, b.round⟩ := by
  rw [Barrier.arrive, if_neg (by omega)]

theorem Barrier.arrive_last {b : Barrier} (h : b.arrived = n) :
    b.arrive (n + 1) = ⟨0, b.round + 1⟩ := by
  rw [Barrier.arrive, if_pos (by omega)]

/-- The steps a worker has left of its share of the phase. -/
def Worker.left (share : List (σ → σ)) : Worker σ → List (σ → σ)
  | .free => []
  | .starting _ => share
  | .entered => share
  | .working rest => rest
  | .finishing _ => []

section Invariant
variable (work : π → Fin n → List (σ → σ)) (tasks : Nat → Task π σ) (mem : σ)

/-- A worker outside its share: free, at the start barrier or on its way back from the other. -/
def Worker.Rests (start done : Nat) : Worker σ → Prop
  | .free => True
  | .starting r => r = start
  | .finishing r => r < done
  | _ => False

def Coordinator.Rests (s : State n π σ) : Coordinator → Prop
  | .idle => s.mem = sequential work tasks mem s.next
  | .named => s.mem = sequential work tasks mem s.next ∧ tasks s.next = .phase s.phase
  | .starting r => r = s.start.round ∧ s.mem = sequential work tasks mem s.next ∧
      tasks s.next = .phase s.phase
  | .finishing r => r < s.done.round ∧ s.mem = sequential work tasks mem (s.next + 1)
  | .started => False

/-- Between two phases. -/
structure Resting (s : State n π σ) : Prop where
  rounds : s.start.round = s.done.round
  worker : ∀ i, (s.worker i).Rests s.start.round s.done.round
  main : s.main.Rests work tasks mem s
  startCount : s.start.arrived = headcount (Worker.starts s.start.round) s.worker +
    if s.main = .starting s.start.round then 1 else 0
  startOpen : s.start.arrived ≤ n
  doneCount : s.done.arrived = 0

/-- A worker inside a phase, with the rest of its share. -/
def Worker.Works (share : List (σ → σ)) (start done : Nat) : Worker σ → Prop
  | .starting r => r < start
  | .entered => True
  | .working rest => rest <:+ share
  | .finishing r => r = done
  | .free => False

def Coordinator.Works (start done : Nat) : Coordinator → Prop
  | .starting r => r < start
  | .started => True
  | .finishing r => r = done
  | _ => False

/-- In the phase of the current task. -/
structure Busy (s : State n π σ) : Prop where
  rounds : s.start.round = s.done.round + 1
  worker : ∀ i, (s.worker i).Works (work s.phase i) s.start.round s.done.round
  main : s.main.Works s.start.round s.done.round
  startCount : s.start.arrived = 0
  doneCount : s.done.arrived = headcount (Worker.finishes s.done.round) s.worker +
    if s.main = .finishing s.done.round then 1 else 0
  doneOpen : s.done.arrived ≤ n
  task : tasks s.next = .phase s.phase
  left : executeAll (fun i => (s.worker i).left (work s.phase i)) s.mem =
    sequential work tasks mem (s.next + 1)

variable {work tasks mem}
variable {s t : State n π σ}

theorem resting_init (phase : π) : Resting work tasks mem (init mem phase : State n π σ) := by
  refine ⟨rfl, fun i => trivial, rfl, ?_, Nat.zero_le n, rfl⟩
  have hnone : headcount (Worker.starts 0) (fun _ : Fin n => (Worker.free : Worker σ)) = 0 :=
    headcount_zero fun i => rfl
  change 0 = headcount (Worker.starts 0) (fun _ : Fin n => (Worker.free : Worker σ)) + 0
  rw [hnone]

theorem sequential_phase {k : Nat} {p : π} (h : tasks k = .phase p) :
    sequential work tasks mem (k + 1) = executeAll (work p) (sequential work tasks mem k) := by
  rw [sequential, h]

theorem sequential_act {k : Nat} {f : σ → σ} (h : tasks k = .act f) :
    sequential work tasks mem (k + 1) = f (sequential work tasks mem k) := by
  rw [sequential, h]

/-- Once all stand at the start barrier, the phase begins. -/
theorem busy_of_gathered {r : Nat} (hstart : s.start = ⟨0, r + 1⟩) (hdone : s.done = ⟨0, r⟩)
    (hmain : s.main = .starting r) (hall : ∀ i, s.worker i = .starting r)
    (htask : tasks s.next = .phase s.phase) (hmem : s.mem = sequential work tasks mem s.next) :
    Busy work tasks mem s := by
  have hnone : headcount (Worker.finishes s.done.round) s.worker = 0 := by
    refine headcount_zero fun i => ?_
    rw [hall i]
    rfl
  refine ⟨by rw [hstart, hdone], fun i => ?_, ?_, by rw [hstart], ?_, ?_, htask, ?_⟩
  · rw [hall i, hstart]
    exact Nat.lt_succ_self r
  · rw [hmain, hstart]
    exact Nat.lt_succ_self r
  · rw [hnone, hmain, hdone]
    rfl
  · rw [hdone]
    exact Nat.zero_le n
  · rw [sequential_phase htask, ← hmem]
    congr 1
    funext i
    rw [hall i]
    rfl

/-- Once all stand at the done barrier, the phase has been carried out. -/
theorem resting_of_finished {r : Nat} (hstart : s.start = ⟨0, r + 1⟩) (hdone : s.done = ⟨0, r + 1⟩)
    (hmain : s.main = .finishing r) (hall : ∀ i, s.worker i = .finishing r)
    (hmem : s.mem = sequential work tasks mem (s.next + 1)) : Resting work tasks mem s := by
  have hnone : headcount (Worker.starts s.start.round) s.worker = 0 := by
    refine headcount_zero fun i => ?_
    rw [hall i]
    rfl
  refine ⟨by rw [hstart, hdone], fun i => ?_, ?_, ?_, ?_, by rw [hdone]⟩
  · rw [hall i, hdone]
    exact Nat.lt_succ_self r
  · rw [hmain]
    refine ⟨?_, hmem⟩
    rw [hdone]
    exact Nat.lt_succ_self r
  · rw [hnone, hmain, hstart]
    rfl
  · rw [hstart]
    exact Nat.zero_le n

theorem Resting.main_step (h : Resting work tasks mem s) (hstep : stepMain tasks s = some t) :
    Resting work tasks mem t ∨ Busy work tasks mem t := by
  have hmain := h.main
  have hcount := h.startCount
  cases hc : s.main with
  | idle =>
    rw [hc] at hmain hcount
    cases htask : tasks s.next with
    | act f =>
      obtain rfl : { s with mem := f s.mem, next := s.next + 1 } = t := by
        simpa [stepMain, hc, htask] using hstep
      refine .inl ⟨h.rounds, h.worker, ?_, h.startCount, h.startOpen, h.doneCount⟩
      have hmem : s.mem = sequential work tasks mem s.next := hmain
      change Coordinator.Rests work tasks mem _ s.main
      rw [hc]
      change f s.mem = _
      rw [sequential_act htask, hmem]
    | phase p =>
      obtain rfl : { s with phase := p, main := .named } = t := by
        simpa [stepMain, hc, htask] using hstep
      exact .inl ⟨h.rounds, h.worker, ⟨hmain, htask⟩, by simpa using hcount, h.startOpen, h.doneCount⟩
  | named =>
    rw [hc] at hmain hcount
    obtain ⟨hmem, htask⟩ := hmain
    obtain rfl : { s with start := s.start.arrive (n + 1), main := .starting s.start.round } = t := by
      simpa [stepMain, hc] using hstep
    have hcount : s.start.arrived = headcount (Worker.starts s.start.round) s.worker := by
      simpa using hcount
    rcases Nat.lt_or_eq_of_le h.startOpen with hmore | hlast
    · left
      have harr := Barrier.arrive_more hmore
      refine ⟨?_, fun i => ?_, ?_, ?_, ?_, h.doneCount⟩
      · rw [harr]
        exact h.rounds
      · rw [harr]
        exact h.worker i
      · refine ⟨?_, hmem, htask⟩
        rw [harr]
      · rw [harr, if_pos rfl, ← hcount]
      · rw [harr]
        exact hmore
    · right
      have hfull : headcount (Worker.starts s.start.round) s.worker = n := by rw [← hcount, hlast]
      refine busy_of_gathered (r := s.start.round) (Barrier.arrive_last hlast) ?_ rfl
        (fun i => eq_of_starts (headcount_full hfull i)) htask hmem
      rw [h.rounds, ← h.doneCount]
  | starting r =>
    rw [hc] at hmain
    have hblocked : ¬ r < s.start.round := by rw [hmain.1]; exact Nat.lt_irrefl _
    rw [stepMain, hc] at hstep
    exact nomatch (if_neg hblocked).symm.trans hstep
  | started =>
    rw [hc] at hmain
    exact hmain.elim
  | finishing r =>
    rw [hc] at hmain hcount
    obtain ⟨hr, hmem⟩ := hmain
    obtain rfl : { s with main := .idle, next := s.next + 1 } = t := by
      simpa [stepMain, hc, hr] using hstep
    exact .inl ⟨h.rounds, h.worker, hmem, by simpa using hcount, h.startOpen, h.doneCount⟩

/-- The last of the workers to arrive finds the coordinator and the others at the barrier. -/
theorem gathered_of_last {p : Worker σ → Bool} {w : Fin n → Worker σ} {i : Fin n} {x : Worker σ}
    {c : Coordinator} {r : Coordinator} (hold : p (w i) = false) (hnew : p x = true)
    (hcount : headcount p w + (if c = r then 1 else 0) = n) :
    c = r ∧ ∀ j, p (Function.update w i x j) = true := by
  have hc : c = r := by
    by_contra hne
    rw [if_neg hne] at hcount
    have hall := headcount_full hcount i
    rw [hold] at hall
    exact Bool.false_ne_true hall
  rw [if_pos hc] at hcount
  refine ⟨hc, headcount_full ?_⟩
  rw [headcount_succ hold hnew, hcount]

theorem Resting.worker_step (h : Resting work tasks mem s) {i : Fin n}
    (hstep : stepWorker work s i = some t) : Resting work tasks mem t ∨ Busy work tasks mem t := by
  have hi := h.worker i
  have hothers (x : Worker σ) (hx : x.Rests s.start.round s.done.round) (j : Fin n) :
      (Function.update s.worker i x j).Rests s.start.round s.done.round := by
    by_cases hj : j = i
    · subst hj
      rwa [Function.update_self]
    · rw [Function.update_of_ne hj]
      exact h.worker j
  cases hw : s.worker i with
  | free =>
    obtain rfl : { s with
        start := s.start.arrive (n + 1)
        worker := Function.update s.worker i (.starting s.start.round) } = t := by
      simpa [stepWorker, hw] using hstep
    have hold : (s.worker i).starts s.start.round = false := by rw [hw]; rfl
    have hnew : (Worker.starting s.start.round : Worker σ).starts s.start.round = true :=
      decide_eq_true rfl
    rcases Nat.lt_or_eq_of_le h.startOpen with hmore | hlast
    · left
      have harr := Barrier.arrive_more hmore
      have hmain : s.main.Rests work tasks mem { s with
          start := s.start.arrive (n + 1)
          worker := Function.update s.worker i (.starting s.start.round) } := by
        have hm := h.main
        cases hc : s.main with
        | idle => rwa [hc] at hm
        | named => rwa [hc] at hm
        | starting r =>
          rw [hc] at hm
          refine ⟨?_, hm.2⟩
          rw [harr]
          exact hm.1
        | started =>
          rw [hc] at hm
          exact hm.elim
        | finishing r => rwa [hc] at hm
      refine ⟨?_, fun j => ?_, hmain, ?_, ?_, h.doneCount⟩
      · rw [harr]
        exact h.rounds
      · rw [harr]
        exact hothers (.starting s.start.round) rfl j
      · rw [harr, headcount_succ hold hnew, h.startCount]
        exact Nat.add_right_comm _ _ _
      · rw [harr]
        exact hmore
    · right
      obtain ⟨hc, hall⟩ := gathered_of_last hold hnew (h.startCount.symm.trans hlast)
      have hmain := h.main
      rw [hc] at hmain
      refine busy_of_gathered (r := s.start.round) (Barrier.arrive_last hlast) ?_ hc
        (fun j => eq_of_starts (hall j)) hmain.2.2 hmain.2.1
      rw [h.rounds, ← h.doneCount]
  | starting r =>
    rw [hw] at hi
    have hblocked : ¬ r < s.start.round := by rw [show r = s.start.round from hi]; exact Nat.lt_irrefl _
    rw [stepWorker, hw] at hstep
    exact nomatch (if_neg hblocked).symm.trans hstep
  | entered =>
    rw [hw] at hi
    exact hi.elim
  | working rest =>
    rw [hw] at hi
    exact hi.elim
  | finishing r =>
    rw [hw] at hi
    have hr : r < s.done.round := hi
    obtain rfl : { s with worker := Function.update s.worker i .free } = t := by
      simpa [stepWorker, hw, hr] using hstep
    refine .inl ⟨h.rounds, hothers _ trivial, ?_, ?_, h.startOpen, h.doneCount⟩
    · have hm := h.main
      cases hc : s.main <;> rw [hc] at hm <;> exact hm
    · rw [headcount_congr (by rw [hw]; rfl)]
      exact h.startCount

theorem Busy.main_step (h : Busy work tasks mem s) (hstep : stepMain tasks s = some t) :
    Resting work tasks mem t ∨ Busy work tasks mem t := by
  have hmain := h.main
  have hcount := h.doneCount
  cases hc : s.main with
  | idle =>
    rw [hc] at hmain
    exact hmain.elim
  | named =>
    rw [hc] at hmain
    exact hmain.elim
  | starting r =>
    rw [hc] at hmain hcount
    have hr : r < s.start.round := hmain
    obtain rfl : { s with main := .started } = t := by
      simpa [stepMain, hc, hr] using hstep
    exact .inr ⟨h.rounds, h.worker, trivial, h.startCount, by simpa using hcount, h.doneOpen, h.task,
      h.left⟩
  | started =>
    rw [hc] at hcount
    have hcount : s.done.arrived = headcount (Worker.finishes s.done.round) s.worker := by
      simpa using hcount
    obtain rfl : { s with done := s.done.arrive (n + 1), main := .finishing s.done.round } = t := by
      simpa [stepMain, hc] using hstep
    rcases Nat.lt_or_eq_of_le h.doneOpen with hmore | hlast
    · right
      have harr := Barrier.arrive_more hmore
      refine ⟨?_, fun i => ?_, ?_, h.startCount, ?_, ?_, h.task, h.left⟩
      · rw [harr]
        exact h.rounds
      · rw [harr]
        exact h.worker i
      · rw [harr]
        rfl
      · rw [harr, if_pos rfl, ← hcount]
      · rw [harr]
        exact hmore
    · left
      have hfull : headcount (Worker.finishes s.done.round) s.worker = n := by rw [← hcount, hlast]
      have hall (i : Fin n) : s.worker i = .finishing s.done.round :=
        eq_of_finishes (headcount_full hfull i)
      have hleft := h.left
      rw [executeAll_nil fun i => by rw [hall i]; rfl] at hleft
      refine resting_of_finished (r := s.done.round) ?_ (Barrier.arrive_last hlast) rfl hall hleft
      rw [← h.rounds, ← h.startCount]
  | finishing r =>
    rw [hc] at hmain
    have hblocked : ¬ r < s.done.round := by
      rw [show r = s.done.round from hmain]
      exact Nat.lt_irrefl _
    rw [stepMain, hc] at hstep
    exact nomatch (if_neg hblocked).symm.trans hstep

theorem Busy.worker_step (h : Busy work tasks mem s) (hcomm : Independent work) {i : Fin n}
    (hstep : stepWorker work s i = some t) : Resting work tasks mem t ∨ Busy work tasks mem t := by
  have hi := h.worker i
  have hothers (x : Worker σ) (hx : x.Works (work s.phase i) s.start.round s.done.round) (j : Fin n) :
      (Function.update s.worker i x j).Works (work s.phase j) s.start.round s.done.round := by
    by_cases hj : j = i
    · subst hj
      rwa [Function.update_self]
    · rw [Function.update_of_ne hj]
      exact h.worker j
  have hleft (x : Worker σ) : (fun j => (Function.update s.worker i x j).left (work s.phase j)) =
      Function.update (fun j => (s.worker j).left (work s.phase j)) i (x.left (work s.phase i)) := by
    funext j
    by_cases hj : j = i
    · subst hj
      rw [Function.update_self, Function.update_self]
    · rw [Function.update_of_ne hj, Function.update_of_ne hj]
  have hsame {x : Worker σ} (hx : x.left (work s.phase i) = (s.worker i).left (work s.phase i)) :
      executeAll (fun j => (Function.update s.worker i x j).left (work s.phase j)) s.mem =
        sequential work tasks mem (s.next + 1) := by
    rw [hleft, hx, Function.update_eq_self]
    exact h.left
  cases hw : s.worker i with
  | free =>
    rw [hw] at hi
    exact hi.elim
  | starting r =>
    rw [hw] at hi
    have hr : r < s.start.round := hi
    obtain rfl : { s with worker := Function.update s.worker i .entered } = t := by
      simpa [stepWorker, hw, hr] using hstep
    refine .inr ⟨h.rounds, hothers _ trivial, h.main, h.startCount, ?_, h.doneOpen, h.task,
      hsame (by rw [hw]; rfl)⟩
    rw [headcount_congr (by rw [hw]; rfl)]
    exact h.doneCount
  | entered =>
    obtain rfl : { s with worker := Function.update s.worker i (.working (work s.phase i)) } = t := by
      simpa [stepWorker, hw] using hstep
    refine .inr ⟨h.rounds, hothers _ (List.suffix_refl _), h.main, h.startCount, ?_, h.doneOpen,
      h.task, hsame (by rw [hw]; rfl)⟩
    rw [headcount_congr (by rw [hw]; rfl)]
    exact h.doneCount
  | working rest =>
    rw [hw] at hi
    have hsuffix : rest <:+ work s.phase i := hi
    cases rest with
    | nil =>
      obtain rfl : { s with
          done := s.done.arrive (n + 1)
          worker := Function.update s.worker i (.finishing s.done.round) } = t := by
        simpa [stepWorker, hw] using hstep
      have hold : (s.worker i).finishes s.done.round = false := by rw [hw]; rfl
      have hnew : (Worker.finishing s.done.round : Worker σ).finishes s.done.round = true :=
        decide_eq_true rfl
      have hrest := hsame (x := .finishing s.done.round) (by rw [hw]; rfl)
      rcases Nat.lt_or_eq_of_le h.doneOpen with hmore | hlast
      · right
        have harr := Barrier.arrive_more hmore
        refine ⟨?_, fun j => ?_, ?_, h.startCount, ?_, ?_, h.task, hrest⟩
        · rw [harr]
          exact h.rounds
        · rw [harr]
          exact hothers (.finishing s.done.round) rfl j
        · rw [harr]
          exact h.main
        · rw [harr, headcount_succ hold hnew, h.doneCount]
          exact Nat.add_right_comm _ _ _
        · rw [harr]
          exact hmore
      · left
        obtain ⟨hc, hall⟩ := gathered_of_last hold hnew (h.doneCount.symm.trans hlast)
        have hends (j : Fin n) := eq_of_finishes (hall j)
        rw [executeAll_nil fun j => by rw [hends j]; rfl] at hrest
        refine resting_of_finished (r := s.done.round) ?_ (Barrier.arrive_last hlast) hc hends hrest
        rw [← h.rounds, ← h.startCount]
    | cons a rest =>
      obtain rfl : { s with mem := a s.mem, worker := Function.update s.worker i (.working rest) } = t := by
        simpa [stepWorker, hw] using hstep
      have ha : a ∈ work s.phase i := hsuffix.subset List.mem_cons_self
      have hshorter : rest <:+ work s.phase i := (List.suffix_cons a rest).trans hsuffix
      refine .inr ⟨h.rounds, hothers _ hshorter, h.main, h.startCount, ?_, h.doneOpen, h.task, ?_⟩
      · rw [headcount_congr (by rw [hw]; rfl)]
        exact h.doneCount
      · change executeAll (fun j => (Function.update s.worker i (.working rest) j).left
          (work s.phase j)) (a s.mem) = _
        rw [hleft, ← h.left]
        refine executeAll_step (by rw [hw]; rfl) (fun j hj b hb m => ?_) s.mem
        have hshare : ∀ b ∈ (s.worker j).left (work s.phase j), b ∈ work s.phase j := by
          have hj := h.worker j
          intro b hb
          cases hwj : s.worker j with
          | working l =>
            rw [hwj] at hj hb
            exact List.IsSuffix.subset hj hb
          | free => rw [hwj] at hb; exact nomatch hb
          | starting r => rw [hwj] at hb; exact hb
          | entered => rw [hwj] at hb; exact hb
          | finishing r => rw [hwj] at hb; exact nomatch hb
        exact hcomm s.phase i j (Ne.symm hj) a ha b (hshare b hb) m
  | finishing r =>
    rw [hw] at hi
    have hblocked : ¬ r < s.done.round := by
      rw [show r = s.done.round from hi]
      exact Nat.lt_irrefl _
    rw [stepWorker, hw] at hstep
    exact nomatch (if_neg hblocked).symm.trans hstep

theorem resting_or_busy (hcomm : Independent work) {phase : π} {turns : List (Turn n)}
    (h : Run (Enabled (step work tasks)) (init mem phase) turns s) :
    Resting work tasks mem s ∨ Busy work tasks mem s := by
  refine h.invariant (fun s => Resting work tasks mem s ∨ Busy work tasks mem s)
    (.inl (resting_init phase)) fun s turn t hs hstep => ?_
  cases turn with
  | main => exact hs.elim (·.main_step hstep) (·.main_step hstep)
  | worker i => exact hs.elim (·.worker_step hstep) (·.worker_step hcomm hstep)

/-- Whatever the interleaving, the coordinator finds the memory of the sequential program. -/
theorem mem_of_idle (hcomm : Independent work) {phase : π} {turns : List (Turn n)}
    (h : Run (Enabled (step work tasks)) (init mem phase) turns s) (hidle : s.main = .idle) :
    s.mem = sequential work tasks mem s.next := by
  rcases resting_or_busy hcomm h with hr | hb
  · have hmain := hr.main
    rwa [hidle] at hmain
  · have hmain := hb.main
    rw [hidle] at hmain
    exact hmain.elim

/-- A worker that may take steps of a share. -/
def Worker.Active : Worker σ → Prop
  | .entered => True
  | .working _ => True
  | _ => False

/-- No worker is at work while the coordinator takes steps of its own. -/
theorem not_active_of_idle (hcomm : Independent work) {phase : π} {turns : List (Turn n)}
    (h : Run (Enabled (step work tasks)) (init mem phase) turns s) (hidle : s.main = .idle)
    (i : Fin n) : ¬ (s.worker i).Active := by
  rcases resting_or_busy hcomm h with hr | hb
  · have hi := hr.worker i
    intro hact
    cases hw : s.worker i <;> rw [hw] at hi hact <;> first | exact hi | exact hact
  · have hmain := hb.main
    rw [hidle] at hmain
    exact hmain.elim

/-- A worker that has something to do can take its step. -/
theorem stepWorker_isSome {i : Fin n} (hstart : ∀ r, s.worker i = .starting r → r < s.start.round)
    (hdone : ∀ r, s.worker i = .finishing r → r < s.done.round) :
    (stepWorker work s i).isSome = true := by
  cases hw : s.worker i with
  | free => simp [stepWorker, hw]
  | starting r => simp [stepWorker, hw, hstart r hw]
  | entered => simp [stepWorker, hw]
  | working rest => cases rest <;> simp [stepWorker, hw]
  | finishing r => simp [stepWorker, hw, hdone r hw]

/-- Some thread can always go on. -/
theorem exists_enabled (hcomm : Independent work) {phase : π} {turns : List (Turn n)}
    (h : Run (Enabled (step work tasks)) (init mem phase) turns s) :
    ∃ turn, (step work tasks s turn).isSome = true := by
  rcases resting_or_busy hcomm h with hr | hb
  · have hmain := hr.main
    cases hc : s.main with
    | idle =>
      refine ⟨.main, ?_⟩
      cases htask : tasks s.next <;> simp [step, stepMain, hc, htask]
    | named => exact ⟨.main, by simp [step, stepMain, hc]⟩
    | started =>
      rw [hc] at hmain
      exact hmain.elim
    | finishing r =>
      rw [hc] at hmain
      exact ⟨.main, by simp [step, stepMain, hc, hmain.1]⟩
    | starting r =>
      rw [hc] at hmain
      obtain rfl := hmain.1
      have hcount := hr.startCount
      rw [if_pos hc] at hcount
      have hopen := hr.startOpen
      obtain ⟨i, hi⟩ := exists_missing (w := s.worker) (p := Worker.starts s.start.round) (by omega)
      refine ⟨.worker i, stepWorker_isSome (fun r hw => ?_) (fun r hw => ?_)⟩
      · have hrest := hr.worker i
        rw [hw] at hi hrest
        have hne : ¬ r = s.start.round := of_decide_eq_false hi
        exact absurd hrest hne
      · have hrest := hr.worker i
        rwa [hw] at hrest
  · have hmain := hb.main
    cases hc : s.main with
    | idle =>
      rw [hc] at hmain
      exact hmain.elim
    | named =>
      rw [hc] at hmain
      exact hmain.elim
    | started => exact ⟨.main, by simp [step, stepMain, hc]⟩
    | starting r =>
      rw [hc] at hmain
      have hr : r < s.start.round := hmain
      exact ⟨.main, by simp [step, stepMain, hc, hr]⟩
    | finishing r =>
      rw [hc] at hmain
      obtain rfl : r = s.done.round := hmain
      have hcount := hb.doneCount
      rw [if_pos hc] at hcount
      have hopen := hb.doneOpen
      obtain ⟨i, hi⟩ := exists_missing (w := s.worker) (p := Worker.finishes s.done.round) (by omega)
      refine ⟨.worker i, stepWorker_isSome (fun r hw => ?_) (fun r hw => ?_)⟩
      · have hworks := hb.worker i
        rwa [hw] at hworks
      · have hworks := hb.worker i
        rw [hw] at hi hworks
        have hne : ¬ r = s.done.round := of_decide_eq_false hi
        exact absurd hworks hne

/-- The coordinator changes the memory by its own tasks only. -/
theorem stepMain_mem (h : stepMain tasks s = some t) :
    t.mem = s.mem ∨ ∃ f, tasks s.next = .act f ∧ t.mem = f s.mem := by
  cases hc : s.main with
  | idle =>
    cases htask : tasks s.next with
    | act f =>
      simp only [stepMain, hc, htask] at h
      cases h
      exact .inr ⟨f, rfl, rfl⟩
    | phase p =>
      simp only [stepMain, hc, htask] at h
      cases h
      exact .inl rfl
  | named =>
    simp only [stepMain, hc] at h
    cases h
    exact .inl rfl
  | starting r =>
    simp only [stepMain, hc] at h
    cases (Option.ite_none_right_eq_some.mp h).2
    exact .inl rfl
  | started =>
    simp only [stepMain, hc] at h
    cases h
    exact .inl rfl
  | finishing r =>
    simp only [stepMain, hc] at h
    cases (Option.ite_none_right_eq_some.mp h).2
    exact .inl rfl

/-- A worker changes the memory by the steps of its share only. -/
theorem stepWorker_mem {i : Fin n} (h : stepWorker work s i = some t) :
    t.mem = s.mem ∨ ∃ a rest, s.worker i = .working (a :: rest) ∧ t.mem = a s.mem := by
  cases hw : s.worker i with
  | free =>
    simp only [stepWorker, hw] at h
    cases h
    exact .inl rfl
  | starting r =>
    simp only [stepWorker, hw] at h
    cases (Option.ite_none_right_eq_some.mp h).2
    exact .inl rfl
  | entered =>
    simp only [stepWorker, hw] at h
    cases h
    exact .inl rfl
  | working rest =>
    cases rest with
    | nil =>
      simp only [stepWorker, hw] at h
      cases h
      exact .inl rfl
    | cons a rest =>
      simp only [stepWorker, hw] at h
      cases h
      exact .inr ⟨a, rest, rfl, rfl⟩
  | finishing r =>
    simp only [stepWorker, hw] at h
    cases (Option.ite_none_right_eq_some.mp h).2
    exact .inl rfl

/-- A property of the memory that every step of the program keeps holds at every moment. -/
theorem mem_keeps {P : σ → Prop} (hcomm : Independent work)
    (hact : ∀ k f m, tasks k = .act f → P m → P (f m))
    (hwork : ∀ p i, ∀ a ∈ work p i, ∀ m, P m → P (a m)) (hmem : P mem) {phase : π}
    {turns : List (Turn n)} (h : Run (Enabled (step work tasks)) (init mem phase) turns s) :
    P s.mem := by
  induction h with
  | nil => exact hmem
  | @snoc turns s t turn hrun hstep ih =>
    cases turn with
    | main =>
      rcases stepMain_mem hstep with hsame | ⟨f, htask, hf⟩
      · rw [hsame]
        exact ih
      · rw [hf]
        exact hact s.next f s.mem htask ih
    | worker i =>
      rcases stepWorker_mem hstep with hsame | ⟨a, rest, hw, ha⟩
      · rw [hsame]
        exact ih
      · rw [ha]
        rcases resting_or_busy hcomm hrun with hr | hb
        · have hrest := hr.worker i
          rw [hw] at hrest
          exact hrest.elim
        · have hworks := hb.worker i
          rw [hw] at hworks
          have hshare : a ∈ work s.phase i := List.IsSuffix.subset hworks List.mem_cons_self
          exact hwork s.phase i a hshare s.mem ih

end Invariant

end Taq102.Lib.Phases
