import Taq102.Lib.Transition
import Taq102.Panel.Effect
import Taq102.Runtime.Brightness

/-! A link that was switched off: what the runtime makes of the status while the worker that takes
it down ends on another thread. -/
namespace Taq102.Runtime
open Taq102.Lib CFloat Transition
open Panel (CcModel CcResult CcAction WifiState ccInit ccOpen ccClose ccTick ccHandleEvent)
open Touch (TouchEvent)
open Worker (ActionWorker System WaitStatus Event)

/-! The worker from its start on. -/

/-- The events since a start, after which the log was `n` long. -/
def later (n : Nat) (s : System) : List Event := s.log.drop n

/-- The worker's child ends with status 0, nothing stops it and nothing else is started. -/
def harmless (pid : Nat) : Event → Bool
  | .started _ => false
  | .ended p status => p != pid || status == .exited 0
  | .stopped p _ => p != pid
  | _ => true

/-- The child runs, and the worker is busy with it. -/
def Running (pid : Nat) (s : System) : Prop :=
  ∃ w, s.worker = some w ∧ w.pid = pid ∧ w.busy = true ∧ w.stopped = false ∧
    s.procs pid = some .running

/-- The child has exited. -/
def Exited (n pid : Nat) (s : System) : Prop := .ended pid (.exited 0) ∈ later n s

/-- The child runs or has exited, in a log that has grown from `n` events. -/
structure Underway (n pid : Nat) (s : System) : Prop where
  length : n ≤ s.log.length
  phase : Running pid s ∨ Exited n pid s

section Worker
variable {n pid : Nat} {s t : System}

theorem later_append {more : List Event} (hlength : n ≤ s.log.length) (hlog : t.log = s.log ++ more) :
    later n t = later n s ++ more := by
  rw [later, hlog, List.drop_append_of_le_length hlength]
  rfl

/-- What the system's steps do to the child: their events are appended, and unless one of these
does harm, the child runs on or has exited. -/
def Moves (pid : Nat) (s t : System) : Prop :=
  ∃ more, t.log = s.log ++ more ∧ ((∀ e ∈ more, harmless pid e = true) → Running pid s →
    Running pid t ∨ .ended pid (.exited 0) ∈ more)

theorem Moves.refl (pid : Nat) (s : System) : Moves pid s s :=
  ⟨[], (List.append_nil _).symm, fun _ h => .inl h⟩

theorem Moves.trans {u : System} (h : Moves pid s t) (h' : Moves pid t u) : Moves pid s u := by
  obtain ⟨more, hlog, hrun⟩ := h
  obtain ⟨more', hlog', hrun'⟩ := h'
  refine ⟨more ++ more', by rw [hlog', hlog, List.append_assoc], fun hall hs => ?_⟩
  rcases hrun (fun e he => hall e (List.mem_append_left _ he)) hs with ht | hended
  · rcases hrun' (fun e he => hall e (List.mem_append_right _ he)) ht with hu | hended
    · exact .inl hu
    · exact .inr (List.mem_append_right _ hended)
  · exact .inr (List.mem_append_left _ hended)

/-- Harmless events all the way: the child is underway all the way. -/
theorem Moves.underway (hmoves : Moves pid s t) (hlength : n ≤ s.log.length)
    (hall : ∀ e ∈ later n t, harmless pid e = true) :
    (∀ e ∈ later n s, harmless pid e = true) ∧ (Underway n pid s → Underway n pid t) := by
  obtain ⟨more, hlog, hrun⟩ := hmoves
  have hlater := later_append hlength hlog
  rw [hlater] at hall
  refine ⟨fun e he => hall e (List.mem_append_left _ he), fun h => ⟨?_, ?_⟩⟩
  · rw [hlog, List.length_append]
    exact hlength.trans (Nat.le_add_right _ _)
  · rcases h.phase with hrunning | hexited
    · rcases hrun (fun e he => hall e (List.mem_append_right _ he)) hrunning with hstill | hended
      · exact .inl hstill
      · refine .inr ?_
        rw [Exited, hlater]
        exact List.mem_append_right _ hended
    · refine .inr ?_
      rw [Exited, hlater]
      exact List.mem_append_left _ hexited

theorem Moves.length (h : Moves pid s t) : s.log.length ≤ t.log.length := by
  obtain ⟨more, hlog, _⟩ := h
  rw [hlog, List.length_append]
  exact Nat.le_add_right _ _

/-- Steps that append events while the worker holds no child. -/
theorem Moves.idle {more : List Event} (hlog : t.log = s.log ++ more) (hidle : ¬ Running pid s) :
    Moves pid s t := ⟨more, hlog, fun _ h => absurd h hidle⟩

theorem moves_ends {child : Nat} {status : WaitStatus} (h : Worker.ends s child status = some t) :
    Moves pid s t := by
  rw [Worker.ends] at h
  split at h
  · cases h
    refine ⟨[.ended child status], rfl, fun hall hs => ?_⟩
    obtain ⟨w, hworker, hpid, hbusy, hstopped, hproc⟩ := hs
    rcases eq_or_ne child pid with rfl | hne
    · have hharmless := hall _ List.mem_cons_self
      have hstatus : status = .exited 0 := by simpa [harmless] using hharmless
      rw [hstatus]
      exact .inr List.mem_cons_self
    · refine .inl ⟨w, hworker, hpid, hbusy, hstopped, ?_⟩
      exact (Function.update_of_ne hne.symm _ _).trans hproc
  · cases h

theorem monitor_log (s : System) (w : ActionWorker) (now : Int) (held : Bool) :
    ∃ more, (Worker.monitor s w now held).log = s.log ++ more := by
  rw [Worker.monitor]
  split
  · exact ⟨[], (List.append_nil _).symm⟩
  split
  · exact ⟨_, rfl⟩
  dsimp only
  split
  · exact ⟨_, rfl⟩
  · exact ⟨_, by rw [List.append_assoc, List.append_assoc]⟩
  · exact ⟨_, by rw [List.append_assoc]⟩

/-- A child that runs is not reaped. -/
theorem monitor_running {w : ActionWorker} (hpid : w.pid ≠ 0)
    (hproc : s.procs w.pid = some .running) (now : Int) (held : Bool) :
    Worker.monitor s w now held =
      let stop := if w.released ∨ now < 0 ∨ w.deadline ≤ now then
          Worker.stopChild w (if w.released then .release else .deadline)
        else (w, [])
      { s with worker := some stop.1, log := s.log ++ stop.2 } := by
  have hsame : (if w.released ∨ now < 0 ∨ w.deadline ≤ now then
      Worker.stopChild w (if w.released then .release else .deadline) else (w, [])).1.pid = w.pid := by
    split
    · rw [Worker.stopChild]
      split <;> rfl
    · rfl
  have hwait : Worker.waitpid s.procs w.pid held = .nothing := by
    rw [Worker.waitpid, hproc]
  rw [Worker.monitor, if_neg fun h => hpid h.1, if_neg hpid]
  simp only [hsame, hwait]

/-- The monitor lets a child that runs go on, unless it stops it. -/
theorem moves_monitor (hpid : pid ≠ 0) {w : ActionWorker} (hworker : s.worker = some w) (now : Int)
    (held : Bool) : Moves pid s (Worker.monitor s w now held) := by
  by_cases hrunning : Running pid s
  · obtain ⟨w', hworker', hchild, hbusy, hstopped, hproc⟩ := hrunning
    rw [hworker] at hworker'
    cases hworker'
    rw [← hchild] at hpid hproc
    rw [monitor_running hpid hproc]
    dsimp only
    split
    · rw [Worker.stopChild, if_neg (by simp [hpid, hstopped])]
      refine ⟨_, rfl, fun hall _ => ?_⟩
      have hstop := hall (.stopped w.pid (if w.released then .release else .deadline)) (by simp)
      simp [harmless, hchild] at hstop
    · exact ⟨[], rfl, fun _ _ => .inl ⟨w, rfl, hchild, hbusy, hstopped, hchild ▸ hproc⟩⟩
  · obtain ⟨more, hlog⟩ := monitor_log s w now held
    exact .idle hlog hrunning

theorem moves_poll {w : ActionWorker} (hworker : s.worker = some w) :
    Moves pid s (Worker.awPoll s w).1 := by
  rw [Worker.awPoll]
  split
  · refine ⟨[.delivered w.result], rfl, fun _ hs => .inl ?_⟩
    obtain ⟨w', hworker', hpid, hbusy, hstopped, hproc⟩ := hs
    rw [hworker] at hworker'
    cases hworker'
    exact ⟨_, rfl, hpid, hbusy, hstopped, hproc⟩
  · exact .refl pid s

theorem moves_start (hpid : pid ≠ 0) {w : ActionWorker} (hworker : s.worker = some w)
    (argv : List CStr) (timeoutS : Int) (env : Worker.StartEnv) :
    Moves pid s (Worker.awStart s w argv timeoutS env).1 := by
  rw [Worker.awStart]
  split
  · exact .refl pid s
  split
  · exact .refl pid s
  rename_i hfree
  have hidle : ¬ Running pid s := by
    rintro ⟨w', hworker', hchild, _⟩
    rw [hworker] at hworker'
    cases hworker'
    exact hfree (.inl (by rw [hchild]; exact hpid))
  split
  · exact .refl pid s
  dsimp only
  split
  · exact .idle (List.append_nil _).symm hidle
  · exact .idle rfl hidle

theorem moves_step (hpid : pid ≠ 0) (other : Other) (h : Worker.step s other.op = some t) :
    Moves pid s t := by
  cases other with
  | monitor now held =>
    rw [Other.op, Worker.step] at h
    obtain ⟨w, hworker, rfl⟩ := Option.map_eq_some_iff.mp h
    exact moves_monitor hpid hworker now held
  | exits child code => exact moves_ends h
  | killed child sig => exact moves_ends h

theorem moves_elapse (hpid : pid ≠ 0) (s : System) (others : List Other) :
    Moves pid s (elapse s others) := by
  induction others generalizing s with
  | nil => exact .refl pid s
  | cons other rest ih =>
    have hfirst : Moves pid s ((Worker.step s other.op).getD s) := by
      rcases hstep : Worker.step s other.op with _ | t
      · exact .refl pid s
      · exact moves_step hpid other hstep
    exact hfirst.trans (ih _)

end Worker

/-! What the runtime makes of the link. -/

/-- The worker, the readings, the wanted state and the one shown. -/
structure Link where
  worker : System
  readings : List Reading
  wanted : Int
  shown : WifiState

variable {F D : Type}

def link (w : World F) : Link where
  worker := w.worker
  readings := w.readings
  wanted := w.runtime.wantedWifi
  shown := w.runtime.panel.wifi

/-- A sample at or after the child's exit has no link. -/
def DownSince (n pid : Nat) (r : Reading) : Prop :=
  Exited n pid r.atSample → r.sample.haveWifi = false

/-- The worker does not complete between a sample that has the link and the test. -/
def Steady (r : Reading) : Prop :=
  r.sample.haveWifi = true → workerBusy r.atSample = true → workerBusy r.atTest = true

/-- The child was let alone, and the readings are those of a link that went down with it. -/
structure Undisturbed (n k pid : Nat) (l : Link) : Prop where
  events : ∀ e ∈ later n l.worker, harmless pid e = true
  readings : ∀ r ∈ l.readings.drop k, DownSince n pid r ∧ Steady r

/-- Unless something disturbs the child, the link stays off. -/
structure SwitchedOff (n k pid : Nat) (l : Link) : Prop where
  length : n ≤ l.worker.log.length
  count : k ≤ l.readings.length
  off : Undisturbed n k pid l → Underway n pid l.worker ∧ l.wanted = 0 ∧ l.shown ≠ .associating

section Steps
variable {n k pid : Nat} {l l' : Link} {w : World F} {now : Int}

/-- A step without a reading. -/
theorem SwitchedOff.step (h : SwitchedOff n k pid l) (hmoves : Moves pid l.worker l'.worker)
    (hreadings : l'.readings = l.readings)
    (hkept : (∀ e ∈ later n l'.worker, harmless pid e = true) → l.wanted = 0 →
      l.shown ≠ .associating → l'.wanted = 0 ∧ l'.shown ≠ .associating) : SwitchedOff n k pid l' := by
  refine ⟨h.length.trans hmoves.length, hreadings ▸ h.count, fun hcalm => ?_⟩
  obtain ⟨hevents, hunderway⟩ := hmoves.underway h.length hcalm.events
  obtain ⟨hbefore, hwanted, hshown⟩ := h.off ⟨hevents, hreadings ▸ hcalm.readings⟩
  exact ⟨hunderway hbefore, hkept hcalm.events hwanted hshown⟩

/-- A step of the worker alone. -/
theorem SwitchedOff.moves {worker : System} (h : SwitchedOff n k pid l)
    (hmoves : Moves pid l.worker worker) : SwitchedOff n k pid { l with worker } :=
  h.step hmoves rfl fun _ hwanted hshown => ⟨hwanted, hshown⟩

/-- A new state on the panel. -/
theorem SwitchedOff.shows {shown : WifiState} (h : SwitchedOff n k pid l)
    (hshown : l.shown ≠ .associating → shown ≠ .associating) : SwitchedOff n k pid { l with shown } :=
  h.step (.refl _ _) rfl fun _ hwanted hbefore => ⟨hwanted, hshown hbefore⟩

theorem drop_snoc {α : Type} {xs : List α} (hk : k ≤ xs.length) (x : α) :
    (xs ++ [x]).drop k = xs.drop k ++ [x] := by
  rw [List.drop_append_of_le_length hk]

theorem busy_of_running {s : System} (h : Running pid s) : workerBusy s = true := by
  obtain ⟨aw, hworker, _, hbusy, _⟩ := h
  rw [workerBusy, hworker]
  exact hbusy

/-- A reading takes the link over only when the worker has ended, and then there is no link. -/
theorem SwitchedOff.readStatus (hpid : pid ≠ 0) (h : SwitchedOff n k pid (link w)) (e : ReadEnv) :
    SwitchedOff n k pid (link (readStatus w now e)) := by
  let atSample := elapse w.worker e.before
  let atTest := elapse atSample e.between
  have hsample : Moves pid w.worker atSample := moves_elapse hpid _ _
  have htest : Moves pid atSample atTest := moves_elapse hpid _ _
  have hlength : n ≤ atSample.log.length := h.length.trans hsample.length
  refine ⟨hlength.trans htest.length, ?_, fun hcalm => ?_⟩
  · exact h.count.trans (by simp [link, Runtime.readStatus])
  obtain ⟨hevents, hunderwayTest⟩ := htest.underway hlength hcalm.events
  obtain ⟨hevents, hunderwaySample⟩ := hsample.underway h.length hevents
  have hreadings : (link (Runtime.readStatus w now e)).readings.drop k =
      w.readings.drop k ++ [⟨e.sample, atSample, atTest⟩] := drop_snoc h.count _
  obtain ⟨hunderway, hwanted, hshown⟩ := h.off
    ⟨hevents, fun r hr => hcalm.readings r (hreadings ▸ List.mem_append_left _ hr)⟩
  refine ⟨hunderwayTest (hunderwaySample hunderway), ?_, hshown⟩
  obtain ⟨hdown, hsteady⟩ := hcalm.readings ⟨e.sample, atSample, atTest⟩
    (hreadings ▸ List.mem_append_right _ List.mem_cons_self)
  change (if e.sample.haveWifi && !workerBusy atTest then 1 else w.runtime.wantedWifi) = 0
  rcases hlink : e.sample.haveWifi with _ | _
  · exact hwanted
  · have hrunning : Running pid atSample := by
      rcases (hunderwaySample hunderway).phase with hrunning | hexited
      · exact hrunning
      · cases (hdown hexited).symm.trans hlink
    rw [hsteady hlink (busy_of_running hrunning)]
    exact hwanted

theorem link_apply (w : World F) (level : Int) (ok : Bool) : link (apply w level ok) = link w := by
  simp only [apply]
  split <;> rfl

theorem SwitchedOff.pollWorker (hpid : pid ≠ 0) (h : SwitchedOff n k pid (link w))
    (others : List Other) : SwitchedOff n k pid (link (pollWorker w others)) := by
  have helapse := moves_elapse hpid w.worker others
  rw [Runtime.pollWorker]
  dsimp only
  split
  · exact h.moves helapse
  · rename_i aw hworker
    exact h.moves (helapse.trans (moves_poll hworker))

theorem wifiStateFrom_off (st : Status) (busy : Bool) (lastExit : Int) :
    wifiStateFrom st busy lastExit 0 ≠ .associating := by
  rw [wifiStateFrom]
  split
  · exact nofun
  split
  · exact nofun
  · exact nofun

theorem SwitchedOff.readouts (hpid : pid ≠ 0) (h : SwitchedOff n k pid (link w))
    (others : List Other) : SwitchedOff n k pid (link (readouts w others)) := by
  refine h.step (moves_elapse hpid w.worker others) rfl fun _ hwanted _ => ⟨hwanted, ?_⟩
  change wifiStateFrom _ _ _ w.runtime.wantedWifi ≠ _
  change w.runtime.wantedWifi = 0 at hwanted
  rw [hwanted]
  exact wifiStateFrom_off _ _ _

theorem link_decideAt (w : World F) (time : Int) (ok : Bool) : link (decideAt w time ok) = link w := by
  rw [decideAt]
  dsimp only
  split
  · rw [link_apply]
    rfl
  · rfl

theorem SwitchedOff.statusTick (hpid : pid ≠ 0) (h : SwitchedOff n k pid (link w)) (e : TickEnv) :
    SwitchedOff n k pid (link (statusTick w now e)) := by
  rw [Runtime.statusTick]
  split
  · exact h.readStatus hpid e.bar
  · exact h

theorem SwitchedOff.policyTick (hpid : pid ≠ 0) (h : SwitchedOff n k pid (link w)) (asleep : Bool)
    (e : TickEnv) : SwitchedOff n k pid (link (policyTick w now asleep e)) := by
  rw [Runtime.policyTick]
  split
  · have hdue : link (policyDue w now e) =
        link (if w.runtime.settings.brightnessAuto ≠ 0 then policyTurn w now e else w) := rfl
    rw [hdue]
    split
    · rw [policyTurn, link_decideAt]
      exact h.readStatus hpid e.policy
    · exact h
  · exact h

theorem link_saveTick (now : Int) (w : World F) (e : TickEnv) : link (saveTick w now e) = link w := by
  rw [saveTick]
  split <;> rfl

theorem link_switchLevel (w : World F) (arg : Int) (e : ActionEnv) :
    link (switchLevel w arg e) = link w := by
  rw [switchLevel]
  dsimp only
  split
  · rw [link_apply]
    rfl
  · rw [link_apply]

theorem moves_startWifi (hpid : pid ≠ 0) (s : System) (arg : Int) (e : Worker.StartEnv) :
    Moves pid s (startWifi s arg e).1 := by
  rw [startWifi]
  split
  · exact .refl pid s
  · rename_i aw hworker
    exact moves_start hpid hworker _ _ _

/-- A start that succeeds runs a child. -/
theorem startWifi_ok {s : System} {arg : Int} {e : Worker.StartEnv} (h : (startWifi s arg e).2 = 0) :
    ∃ child, child ≠ 0 ∧ e.fork = some child ∧
      (startWifi s arg e).1.log = s.log ++ [.started child] ∧ Running child (startWifi s arg e).1 := by
  rw [startWifi] at h ⊢
  split
  · rename_i hworker
    rw [hworker] at h
    cases h
  rename_i aw hworker
  rw [hworker] at h
  dsimp only at h
  rw [Worker.awStart] at h ⊢
  split
  · rw [if_pos ‹_›] at h
    cases h
  rw [if_neg ‹_›] at h
  split
  · rw [if_pos ‹_›] at h
    cases h
  rw [if_neg ‹_›] at h
  split
  · rw [if_pos ‹_›] at h
    cases h
  rw [if_neg ‹_›] at h
  dsimp only at h ⊢
  rcases hfork : (forked s e).fork with _ | child
  · rw [hfork] at h
    cases h
  · have hforkable : Worker.forkable s e = true := by
      by_contra hbad
      rw [forked, if_neg hbad] at hfork
      cases hfork
    rw [forked, if_pos hforkable] at hfork
    have hfresh : child ≠ 0 ∧ s.procs child = none := by
      simpa [Worker.forkable, hfork] using hforkable
    exact ⟨child, hfresh.1, hfork, rfl, _, rfl, rfl, rfl, rfl, Function.update_self ..⟩

/-- A toggle that is accepted starts another child. -/
theorem SwitchedOff.wifiToggle (hpid : pid ≠ 0) (h : SwitchedOff n k pid (link w)) (arg : Int)
    (e : ActionEnv) : SwitchedOff n k pid (link (wifiToggle w arg e)) := by
  let waited := elapse w.worker e.before
  have hwaited : Moves pid w.worker waited := moves_elapse hpid w.worker e.before
  have hmoves := hwaited.trans (moves_startWifi hpid waited arg e.start)
  rw [Runtime.wifiToggle]
  dsimp only
  split
  · rename_i hok
    obtain ⟨child, _, _, hlog, _⟩ := startWifi_ok hok
    have hlength : n ≤ waited.log.length := h.length.trans hwaited.length
    have hmem : .started child ∈ later n (startWifi waited arg e.start).1 := by
      rw [later_append hlength hlog]
      exact List.mem_append_right _ List.mem_cons_self
    refine h.step hmoves rfl fun hevents => ?_
    cases hevents _ hmem
  · exact h.moves hmoves

theorem SwitchedOff.takeAction (hpid : pid ≠ 0) (h : SwitchedOff n k pid (link w))
    (result : CcResult) (e : ActionEnv) :
    SwitchedOff n k pid (link (takeAction w result now e)) := by
  obtain ⟨action, arg⟩ := result
  cases action with
  | setBrightness =>
    change SwitchedOff n k pid (link (apply _ arg e.set))
    rw [link_apply]
    exact h
  | setAuto =>
    change SwitchedOff n k pid (link (switchLevel _ arg e))
    rw [link_switchLevel]
    exact h
  | wifiToggle => exact h.wifiToggle hpid arg e
  | setSleepMinutes => exact h
  | saveSettings => exact h
  | none => exact h
  | sleepNow => exact h
  | rebootRescue => exact h
  | rebootLoader => exact h

theorem SwitchedOff.takeActions (hpid : pid ≠ 0) (h : SwitchedOff n k pid (link w))
    (actions : List CcResult) (e : Nat → ActionEnv) :
    SwitchedOff n k pid (link (takeActions now actions e w)) := by
  induction actions generalizing w e with
  | nil => exact h
  | cons a rest ih => exact ih ((h.takeAction hpid a (e 0)).readouts hpid (e 0).readouts) _

end Steps

/-! The panel. -/

section Panel
variable {m : CcModel F}

theorem disarm_wifi (m : CcModel F) : (Panel.disarm m).wifi = m.wifi := by
  rw [Panel.disarm]
  split <;> rfl

theorem brightness_wifi (m : CcModel F) (now : Int) : (Panel.brightness m now).2.wifi = m.wifi := by
  rw [Panel.brightness]
  split <;> rfl

theorem tapReboot_wifi (m : CcModel F) (arm : Int) (action : CcAction) (now : Int) :
    (Panel.tapReboot m arm action now).2.wifi = m.wifi := by
  rw [Panel.tapReboot]
  split
  · exact disarm_wifi m
  · rfl

variable [CFloat F]

theorem ccClose_wifi (m : CcModel F) (now : Int) : (ccClose m now).wifi = m.wifi := by
  rw [ccClose]
  split <;> exact disarm_wifi m

theorem ccOpen_wifi (m : CcModel F) (now : Int) : (ccOpen m now).wifi = m.wifi := by
  rw [ccOpen]
  split <;> rfl

theorem ccTick_wifi (m : CcModel F) (now : Int) : (ccTick m now).wifi = m.wifi := by
  rw [ccTick]
  split
  · exact disarm_wifi _
  · rfl

theorem tapTile_wifi (h : m.wifi ≠ .associating) (tile : Panel.Capture) (now : Int) :
    (Panel.tapTile m tile now).2.wifi ≠ .associating := by
  cases tile with
  | wifi =>
    rw [Panel.tapTile]
    dsimp only
    split <;> exact nofun
  | off => exact (ccClose_wifi m now).symm ▸ h
  | rescue => exact (tapReboot_wifi m 1 .rebootRescue now).symm ▸ h
  | loader => exact (tapReboot_wifi m 2 .rebootLoader now).symm ▸ h
  | auto => exact h
  | timer => exact h
  | none => exact h
  | handle => exact h
  | bright => exact h
  | outside => exact h

theorem handleUp_wifi {D : Type} (h : m.wifi ≠ .associating) (e : TouchEvent F D) (now : Int) :
    (Panel.handleUp m e now).2.wifi ≠ .associating := by
  rw [Panel.handleUp]
  split
  · rw [ccClose_wifi]
    exact h
  split
  · exact h
  · exact tapTile_wifi (m := Panel.release m) h _ now

variable [CFloat D] [CDouble F D]

theorem handleDown_wifi (m : CcModel F) (e : TouchEvent F D) (now : Int) :
    (Panel.handleDown m e now).2.wifi = m.wifi := by
  rw [Panel.handleDown]
  split
  · rfl
  · dsimp only
    split
    · exact brightness_wifi _ now
    · exact brightness_wifi _ now

omit [CFloat F] in
theorem handleDrag_wifi (m : CcModel F) (e : TouchEvent F D) (now : Int) :
    (Panel.handleDrag m e now).2.wifi = m.wifi := by
  rw [Panel.handleDrag]
  dsimp only
  split
  · split
    · exact brightness_wifi _ now
    · rfl
  · split
    · exact brightness_wifi _ now
    · rfl

/-- Touches do not put the panel into the associating state. -/
theorem handle_wifi (h : m.wifi ≠ .associating) (e : TouchEvent F D) (now : Int) :
    (Panel.handle m e now).2.wifi ≠ .associating := by
  refine Panel.handle_cases (P := fun r => r.2.wifi ≠ .associating) m e now ?unseen ?busy ?press
    ?stray ?cancel ?drag ?swipe ?hold ?lift
  case unseen => exact fun _ => h
  case busy => exact fun _ _ _ => h
  case press => exact fun _ _ _ => (handleDown_wifi m e now).symm ▸ h
  case stray => exact fun _ _ _ => h
  case cancel => exact fun _ _ _ => h
  case drag => exact fun _ _ _ _ => (handleDrag_wifi m e now).symm ▸ h
  case swipe => exact fun _ _ _ _ => (ccClose_wifi m now).symm ▸ h
  case hold => exact fun _ _ _ => h
  case lift => exact fun _ _ _ _ => handleUp_wifi h e now

end Panel

/-! Runs. -/

section Runs
variable {n k pid : Nat} {w : World F} {now : Int} [CFloat F]

theorem SwitchedOff.tick (hpid : pid ≠ 0) (h : SwitchedOff n k pid (link w)) (asleep : Bool)
    (e : TickEnv) : SwitchedOff n k pid (link (controlRuntimeTick w now asleep e)) := by
  have hopen : SwitchedOff n k pid (link (w.withPanel (ccTick w.runtime.panel now))) :=
    h.shows (fun hshown => (ccTick_wifi w.runtime.panel now).symm ▸ hshown)
  let polled := Runtime.pollWorker (w.withPanel (ccTick w.runtime.panel now)) e.beforePoll
  have hstatus : SwitchedOff n k pid (link (Runtime.statusTick polled now e)) :=
    (hopen.pollWorker hpid e.beforePoll).statusTick hpid e
  have hpolicy : SwitchedOff n k pid
      (link (Runtime.policyTick (Runtime.statusTick polled now e) now asleep e)) :=
    hstatus.policyTick hpid asleep e
  rw [← link_saveTick now _ e] at hpolicy
  exact hpolicy.readouts hpid e.readouts

theorem SwitchedOff.sleep (h : SwitchedOff n k pid (link w)) (e : SaveTry) :
    SwitchedOff n k pid (link (controlRuntimeSleep w now e)) := by
  have hclosed : SwitchedOff n k pid { link w with shown := (ccClose w.runtime.panel now).wifi } :=
    h.shows fun hshown => (ccClose_wifi w.runtime.panel now).symm ▸ hshown
  rw [controlRuntimeSleep]
  dsimp only
  split
  · exact hclosed
  · exact hclosed

variable [CFloat D] [CDouble F D]

theorem SwitchedOff.touch (hpid : pid ≠ 0) (h : SwitchedOff n k pid (link w))
    (event : TouchEvent F D) (out : Bool) (max : Int) (e : Nat → ActionEnv) :
    SwitchedOff n k pid (link (touchPanel w event now out max e)) := by
  rcases touchPanel_cases w event now out max e with hok | herror
  · rw [hok]
    exact (h.shows fun hshown => handle_wifi hshown event now).takeActions hpid _ e
  · rw [herror]
    exact h

theorem switchedOff_step (hpid : pid ≠ 0) (h : SwitchedOff n k pid (link w)) (op : RuntimeOp F D) :
    SwitchedOff n k pid (link (step w op)) := by
  cases op with
  | tick now asleep e => exact h.tick hpid asleep e
  | touch event now out max e => exact h.touch hpid event out max e
  | sleep now e => exact h.sleep e
  | wake now ok =>
    rw [step, controlRuntimeWake, link_apply]
    exact h
  | openPanel now => exact h.shows fun hshown => (ccOpen_wifi w.runtime.panel now).symm ▸ hshown
  | closePanel now => exact h.shows fun hshown => (ccClose_wifi w.runtime.panel now).symm ▸ hshown
  | tickPanel now => exact h.shows fun hshown => (ccTick_wifi w.runtime.panel now).symm ▸ hshown
  | touchIdle now => exact h
  | disarm => exact h

omit [CFloat F] in
/-- A toggle to off that was accepted, with the worker and the readings then. -/
theorem switchedOff_toggle (now : Int) {pid : Nat} {e : ActionEnv} (hfork : e.start.fork = some pid)
    (hoff : (startWifi (elapse w.worker e.before) 0 e.start).2 = 0) :
    pid ≠ 0 ∧ SwitchedOff (startWifi (elapse w.worker e.before) 0 e.start).1.log.length
      w.readings.length pid (link (controlRuntimeAction w ⟨.wifiToggle, 0⟩ now e)) := by
  obtain ⟨child, hpid, hchild, _, hrunning⟩ := startWifi_ok hoff
  obtain rfl : pid = child := Option.some_inj.mp (hfork.symm.trans hchild)
  obtain ⟨started, hstarted⟩ : ∃ s, s = (startWifi (elapse w.worker e.before) 0 e.start).1 := ⟨_, rfl⟩
  have helapse := moves_elapse hpid started e.readouts
  have hlink : link (controlRuntimeAction w ⟨.wifiToggle, 0⟩ now e) =
      { worker := elapse started e.readouts
        readings := w.readings
        wanted := 0
        shown := wifiStateFrom w.runtime.status (workerBusy (elapse started e.readouts)) 0 0 } := by
    rw [controlRuntimeAction, takeAction, wifiToggle, hstarted]
    simp only [hoff, if_true]
    rfl
  rw [hlink, ← hstarted]
  rw [← hstarted] at hrunning
  refine ⟨hpid, helapse.length, le_rfl, fun hcalm => ?_⟩
  have hunderway := (helapse.underway le_rfl hcalm.events).2 ⟨le_rfl, .inl hrunning⟩
  exact ⟨hunderway, rfl, wifiStateFrom_off _ _ _⟩

/-- A link that was switched off stays off in every run in which the worker does not complete
between a sample that has the link and the test of the worker that follows it. -/
theorem link_stays_off {pid : Nat} {e : ActionEnv} {ops : List (RuntimeOp F D)} {w' : World F}
    (hfork : e.start.fork = some pid)
    (hoff : (startWifi (elapse w.worker e.before) 0 e.start).2 = 0)
    (hrun : Run (Fires step) (controlRuntimeAction w ⟨.wifiToggle, 0⟩ now e) ops w')
    (hexit : ∀ event ∈ later (startWifi (elapse w.worker e.before) 0 e.start).1.log.length w'.worker,
      harmless pid event = true)
    (hdown : ∀ r ∈ w'.readings.drop w.readings.length,
      DownSince (startWifi (elapse w.worker e.before) 0 e.start).1.log.length pid r)
    (hsteady : ∀ r ∈ w'.readings.drop w.readings.length, Steady r) :
    w'.runtime.wantedWifi = 0 ∧ w'.runtime.panel.wifi ≠ .associating := by
  obtain ⟨hpid, hstart⟩ := switchedOff_toggle now hfork hoff
  have hend : SwitchedOff (startWifi (elapse w.worker e.before) 0 e.start).1.log.length
      w.readings.length pid (link w') := by
    refine hrun.invariant (fun w => SwitchedOff _ _ pid (link w)) hstart ?_
    rintro w op w' hw rfl
    exact switchedOff_step hpid hw op
  exact (hend.off ⟨hexit, fun r hr => ⟨hdown r hr, hsteady r hr⟩⟩).2

end Runs

section Racing

instance (n pid : Nat) (s : System) : Decidable (Exited n pid s) :=
  inferInstanceAs (Decidable (_ ∈ _))

instance (n pid : Nat) (r : Reading) : Decidable (DownSince n pid r) :=
  inferInstanceAs (Decidable (_ → _))

instance (r : Reading) : Decidable (Steady r) := inferInstanceAs (Decidable (_ → _ → _))

def linked : Status := { noStatus with haveWifi := true, addr := cstr "10.0.0.2" }

/-- A start of the tablet while its link is up. -/
def linkedEnv : InitEnv :=
  { startEnv ⟨255, by decide, by decide⟩ with reading := quietRead linked }

theorem linked_starts : (controlRuntimeInit linkedEnv 0 : Option (World ℚ)).isSome = true := by
  decide +kernel

def linkedWorld : World ℚ := (controlRuntimeInit linkedEnv 0).get linked_starts

/-- The child exits and is reaped. -/
def completes : List Other := [.exits 100 0, .monitor 900 false]

/-- The script completes between two readings. -/
def quietExit : List (RuntimeOp ℚ ℚ) :=
  [.tick 1000 false (quietTick linked),
    .tick 2000 false { quietTick noStatus with beforePoll := completes }]

/-- The script completes between the sample of a reading and its test. -/
def racingExit : List (RuntimeOp ℚ ℚ) :=
  [.tick 1000 false { quietTick noStatus with
      bar := { before := [], sample := linked, between := completes } },
    .tick 2000 false (quietTick noStatus)]

theorem quiet_exit_stays_off :
    (quietExit.foldl step
      (controlRuntimeAction linkedWorld ⟨.wifiToggle, 0⟩ 500 quietAction)).runtime.wantedWifi = 0 ∧
    (quietExit.foldl step
      (controlRuntimeAction linkedWorld ⟨.wifiToggle, 0⟩ 500 quietAction)).runtime.panel.wifi ≠
        .associating :=
  link_stays_off (w := linkedWorld) (show quietAction.start.fork = some 100 from rfl)
    (by decide +kernel) (run_foldl step _ quietExit) (by decide +kernel) (by decide +kernel) (by decide +kernel)

/-- The runtime takes the link over that its own script has just taken down. -/
theorem racing_exit_associates :
    (startWifi linkedWorld.worker 0 quietAction.start).2 = 0 ∧
    (∀ event ∈ later (startWifi linkedWorld.worker 0 quietAction.start).1.log.length
      (racingExit.foldl step (controlRuntimeAction linkedWorld ⟨.wifiToggle, 0⟩ 500 quietAction)).worker,
      harmless 100 event = true) ∧
    (∀ r ∈ (racingExit.foldl step
      (controlRuntimeAction linkedWorld ⟨.wifiToggle, 0⟩ 500 quietAction)).readings.drop
        linkedWorld.readings.length,
      DownSince (startWifi linkedWorld.worker 0 quietAction.start).1.log.length 100 r) ∧
    (racingExit.foldl step
      (controlRuntimeAction linkedWorld ⟨.wifiToggle, 0⟩ 500 quietAction)).runtime.wantedWifi = 1 ∧
    (racingExit.foldl step
      (controlRuntimeAction linkedWorld ⟨.wifiToggle, 0⟩ 500 quietAction)).runtime.panel.wifi =
        .associating := by
  decide +kernel

end Racing

end Taq102.Runtime
