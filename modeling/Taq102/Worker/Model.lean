import Mathlib.Logic.Function.Basic
import Taq102.Lib.CString
import Taq102.Lib.Transition

/-! The action worker (`action_worker.c`): one child at a time, started, cancelled and polled by
the UI thread, stopped at its deadline and reaped by a monitor thread. Each section under the
lock is one step; the history records what the steps do to the outside. -/
namespace Taq102.Worker
open Taq102.Lib

/-- What `waitpid` reports of a child. -/
inductive WaitStatus where
  | exited (code : UInt8)
  | signalled (sig : Nat)
  | stopped (sig : Nat)
  deriving DecidableEq, Repr

/-- The result of a child that was reaped before it was stopped. -/
def statusResult : WaitStatus → Int
  | .exited code => code.toNat
  | .signalled sig => 128 + sig
  | .stopped _ => -1

/-- A child process until it is reaped. -/
inductive Proc where
  | running
  | ended (status : WaitStatus)
  deriving DecidableEq, Repr

inductive StopCause where
  | deadline
  | cancel
  | release
  deriving DecidableEq, Repr

/-- A signal's target is a process, or a group when negative. -/
inductive Event where
  | started (pid : Nat)
  | ended (pid : Nat) (status : WaitStatus)
  | signal (target : Int)
  | stopped (pid : Nat) (cause : StopCause)
  | reaped (pid : Nat)
  | published (result : Int)
  | delivered (result : Int)
  | released
  | freed
  deriving DecidableEq, Repr

structure ActionWorker where
  pid : Nat
  busy : Bool
  pending : Bool
  result : Int
  stopped : Bool
  released : Bool
  deadline : Int
  deriving DecidableEq, Repr

def awNew : ActionWorker :=
  { pid := 0, busy := false, pending := false, result := 0, stopped := false, released := false,
    deadline := 0 }

/-- The worker's memory, until it is freed, the program's children, and the history. -/
structure System where
  worker : Option ActionWorker
  procs : Nat → Option Proc
  log : List Event

def System.fresh : System := { worker := some awNew, procs := fun _ => none, log := [] }

/-- `kill` of the child's group and of the child, and the result that it was stopped. -/
def stopChild (w : ActionWorker) (cause : StopCause) : ActionWorker × List Event :=
  if w.pid = 0 ∨ w.stopped then (w, [])
  else
    ({ w with stopped := true, busy := false, result := -1, pending := true },
      [.signal (-w.pid), .signal w.pid, .stopped w.pid cause, .published (-1)])

inductive Waited where
  | nothing
  | reaped (status : WaitStatus)
  | echild
  deriving DecidableEq, Repr

/-- `waitpid` with `WNOHANG`; the kernel may not let go of a child that has ended. -/
def waitpid (procs : Nat → Option Proc) (pid : Nat) (held : Bool) : Waited :=
  match procs pid with
  | none => .echild
  | some .running => .nothing
  | some (.ended status) => if held then .nothing else .reaped status

/-- The child is gone: its result is published unless that was done when it was stopped. -/
def collect (w : ActionWorker) (result : Int) : ActionWorker × List Event :=
  if w.stopped then ({ w with pid := 0 }, [])
  else ({ w with result, pending := true, busy := false, pid := 0 }, [.published result])

/-- One locked iteration of the monitor. -/
def monitor (s : System) (w : ActionWorker) (now : Int) (held : Bool) : System :=
  if w.pid = 0 ∧ w.released = false then s
  else if w.pid = 0 then { s with worker := none, log := s.log ++ [.freed] }
  else
    let stop := if w.released ∨ now < 0 ∨ w.deadline ≤ now then
        stopChild w (if w.released then .release else .deadline)
      else (w, [])
    let w := stop.1
    let log := s.log ++ stop.2
    match waitpid s.procs w.pid held with
    | .nothing => { s with worker := some w, log }
    | .reaped status =>
      let gone := collect w (statusResult status)
      { worker := some gone.1, procs := Function.update s.procs w.pid none,
        log := log ++ [.reaped w.pid] ++ gone.2 }
    | .echild =>
      let gone := collect w (-1)
      { s with worker := some gone.1, log := log ++ gone.2 }

/-- What `aw_start` meets outside: the clock, whether the descriptors can be listed, and the
child `fork` makes. -/
structure StartEnv where
  now : Int
  listed : Bool
  fork : Option Nat
  deriving DecidableEq, Repr

def awStart (s : System) (w : ActionWorker) (argv : List CStr) (timeoutS : Int) (env : StartEnv) :
    System × Int :=
  if argv.headD [] = [] ∨ timeoutS ≤ 0 then (s, -1)
  else if w.pid ≠ 0 ∨ w.pending then (s, -1)
  else if env.listed = false ∨ env.now < 0 then (s, -1)
  else
    let w := { w with deadline := env.now + timeoutS * 1000 }
    match env.fork with
    | none => ({ s with worker := some w }, -1)
    | some pid =>
      ({ worker := some { w with pid, busy := true, stopped := false },
         procs := Function.update s.procs pid (some .running),
         log := s.log ++ [.started pid] }, 0)

def awCancel (s : System) (w : ActionWorker) : System :=
  if w.pid ≠ 0 ∧ w.stopped = false then
    let stop := stopChild w .cancel
    { s with worker := some stop.1, log := s.log ++ stop.2 }
  else s

/-- The exit status, if one is pending. -/
def awPoll (s : System) (w : ActionWorker) : System × Option Int :=
  if w.pending then
    ({ s with worker := some { w with pending := false }, log := s.log ++ [.delivered w.result] },
      some w.result)
  else (s, none)

def awBusy (w : ActionWorker) : Bool := w.busy

def awFree (s : System) (w : ActionWorker) : System :=
  let stop := stopChild w .release
  { s with worker := some { stop.1 with released := true }, log := s.log ++ stop.2 ++ [.released] }

/-- The UI's calls, the monitor's iterations and the children's ends. -/
inductive Op where
  | start (argv : List CStr) (timeoutS : Int) (env : StartEnv)
  | cancel
  | poll
  | free
  | monitor (now : Int) (held : Bool)
  | exits (pid : Nat) (code : UInt8)
  | killed (pid : Nat) (sig : Nat)

/-- A child that runs ends. -/
def ends (s : System) (pid : Nat) (status : WaitStatus) : Option System :=
  if s.procs pid = some .running then
    some { s with
      procs := Function.update s.procs pid (some (.ended status))
      log := s.log ++ [.ended pid status] }
  else none

/-- The pids `fork` may return: those of no child that is not reaped yet. -/
def forkable (s : System) (env : StartEnv) : Bool :=
  match env.fork with
  | none => true
  | some pid => decide (pid ≠ 0) && decide (s.procs pid = none)

/-- One step; a freed worker is not used any more. -/
def step (s : System) : Op → Option System
  | .start argv timeoutS env =>
    s.worker.bind fun w => if forkable s env then some (awStart s w argv timeoutS env).1 else none
  | .cancel => s.worker.map fun w => awCancel s w
  | .poll => s.worker.map fun w => (awPoll s w).1
  | .free => s.worker.map fun w => awFree s w
  | .monitor now held => s.worker.map fun w => monitor s w now held
  | .exits pid code => ends s pid (.exited code)
  | .killed pid sig => ends s pid (.signalled sig)

end Taq102.Worker
