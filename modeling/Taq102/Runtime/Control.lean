import Taq102.Panel.Model
import Taq102.Runtime.PowerPolicy
import Taq102.Runtime.Settings
import Taq102.Runtime.SleepState
import Taq102.Worker.Model

/-! The control runtime (`control_runtime.c`): preferences, telemetry and side effects of the
control centre. What it meets outside comes with each call; the other threads' steps are given
for each moment at which the runtime looks at what they share. -/
namespace Taq102.Runtime
open Taq102.Lib CFloat
open Panel (CcModel CcResult CcAction WifiState ccInit ccOpen ccClose ccTick ccHandleEvent)
open Touch (TouchEvent)

/-- The steps of the worker's monitor and of its children. -/
inductive Other where
  | monitor (now : Int) (held : Bool)
  | exits (pid : Nat) (code : UInt8)
  | killed (pid : Nat) (sig : Nat)
  deriving DecidableEq, Repr

def Other.op : Other → Worker.Op
  | .monitor now held => .monitor now held
  | .exits pid code => .exits pid code
  | .killed pid sig => .killed pid sig

/-- The worker after the others' steps; those that are not possible are left out. -/
def elapse (s : Worker.System) (others : List Other) : Worker.System :=
  others.foldl (fun s other => (Worker.step s other.op).getD s) s

def workerBusy (s : Worker.System) : Bool := s.worker.any Worker.awBusy

/-- One `read_status`: the sample, with the worker when it was taken and when it was tested. -/
structure Reading where
  sample : Status
  atSample : Worker.System
  atTest : Worker.System

/-- A backlight that can be opened: `backlight_open_at` takes no smaller maximum, and `read_level`
no larger one. -/
structure Backlight where
  max : Int
  usable : 8 ≤ max
  fits : max < 2 ^ 31

/-- What `backlight_set` writes. -/
def backlightSet (max level : Int) : Int :=
  let level := if level < 8 then 8 else level
  if level > max then max else level

structure ControlRuntime (F : Type) where
  panel : CcModel F
  settings : Settings
  backlight : Option Backlight
  policy : PowerPolicy
  idle : SleepTimer
  status : Status
  settingsPath : CStr
  wantedWifi : Int
  wifiExit : Int
  sleepRequested : Bool
  settingsPending : Bool
  settingsFailed : Bool
  saveAtMs : Int
  readAtMs : Int
  policyAtMs : Int
  actionNote : CStr

/-- The runtime with what it acts on: the worker, the files, the levels sent to the backlight, the
preferences that were saved, and the readings of the status. -/
structure World (F : Type) where
  runtime : ControlRuntime F
  worker : Worker.System
  files : Files
  sent : List Int
  saved : List Settings
  readings : List Reading

variable {F D : Type}

def World.withPanel (w : World F) (m : CcModel F) : World F :=
  { w with runtime := { w.runtime with panel := m } }

/-! Addresses. -/

def octet (field : CStr) : Option Nat :=
  if field = [] ∨ 3 < field.length ∨ ¬ field.all isDigit ∨
      (1 < field.length ∧ field.head? = some 48) ∨ 255 < digitsValue field then none
  else some (digitsValue field)

/-- `inet_pton` for an IPv4 address. -/
def inetPton (text : CStr) : Option (List Nat) :=
  let fields := text.splitOn 46
  if fields.length = 4 then fields.mapM octet else none

def usableAddress (addr : CStr) : Bool :=
  match inetPton addr with
  | none => false
  | some octets => octets ≠ [0, 0, 0, 0] && octets ≠ [255, 255, 255, 255]

def wifiStateFrom (st : Status) (workerBusy : Bool) (lastExit wantedOn : Int) : WifiState :=
  if workerBusy then .starting
  else if lastExit ≠ 0 then .failed
  else if wantedOn = 0 then .off
  else if st.haveWifi && usableAddress st.addr then .connected
  else .associating

/-! The parts of the runtime. -/

/-- A level for the backlight and the panel; `ok` is whether `backlight_set` succeeds. -/
def apply (w : World F) (level : Int) (ok : Bool) : World F :=
  let r := w.runtime
  let applied := if level > r.panel.brightnessMax then r.panel.brightnessMax else level
  if level < 8 then w
  else
    { w with
      runtime := { r with
        panel := { r.panel with
          brightness := applied
          dirty := if r.panel.brightness ≠ applied then 1 else r.panel.dirty }
        actionNote :=
          if r.backlight.isNone ∨ ok = false then snprintf 48 (cstr "Backlight unavailable")
          else r.actionNote }
      sent := match r.backlight with
        | some backlight => w.sent ++ [backlightSet backlight.max applied]
        | none => w.sent }

structure SaveTry where
  store : StoreEnv
  calls : SaveEnv

def save (w : World F) (e : SaveTry) : World F :=
  let r := w.runtime
  let tried : Int × Files :=
    if settingsStoreAvailable r.settingsPath e.store then
      settingsSave r.settings r.settingsPath e.calls w.files
    else (-1, w.files)
  { w with
    runtime := { r with
      settingsPending := false
      settingsFailed := decide (tried.1 < 0)
      panel := { r.panel with dirty := 1 } }
    files := tried.2
    saved := if tried.1 < 0 then w.saved else w.saved ++ [r.settings] }

structure ReadEnv where
  before : List Other
  sample : Status
  between : List Other

/-- Unplugging the charger counts as activity. -/
def noticeUnplugged (r : ControlRuntime F) (next : Status) (now : Int) : SleepTimer :=
  if next.onlineValid ∧ ¬ next.plugged ∧ (¬ r.status.onlineValid ∨ r.status.plugged) then
    sleepTimerTouch r.idle now
  else r.idle

def readStatus (w : World F) (now : Int) (e : ReadEnv) : World F :=
  let atSample := elapse w.worker e.before
  let atTest := elapse atSample e.between
  { w with
    runtime := { w.runtime with
      idle := noticeUnplugged w.runtime e.sample now
      status := e.sample
      wantedWifi := if e.sample.haveWifi && !workerBusy atTest then 1 else w.runtime.wantedWifi
      readAtMs := now + 1000 }
    worker := atTest
    readings := w.readings ++ [{ sample := e.sample, atSample, atTest }] }

def runtimeNote (r : ControlRuntime F) : CStr :=
  if r.settingsFailed then cstr "Settings not saved"
  else if r.actionNote ≠ [] then r.actionNote
  else if r.settings.brightnessAuto ≠ 0 then powerPolicyNote r.policy
  else []

/-- The panel's readings, as `readouts` sets them. -/
def readoutsOf (r : ControlRuntime F) (busy : Bool) : CcModel F :=
  { r.panel with
    cap := r.status.cap
    plugged := if r.status.plugged then 1 else 0
    levelDbm := r.status.level
    battWord := snprintf 16 r.status.word
    addr := snprintf 64 r.status.addr
    wifi := wifiStateFrom r.status busy r.wifiExit r.wantedWifi
    note := snprintf 48 (runtimeNote r) }

/-- The readings a repaint depends on. -/
def shown (m : CcModel F) : (Int × Int × Int) × (CStr × CStr × CStr) × WifiState :=
  ((m.cap, m.plugged, m.levelDbm), (m.battWord, m.addr, m.note), m.wifi)

def readouts (w : World F) (others : List Other) : World F :=
  let worker := elapse w.worker others
  let m := readoutsOf w.runtime (workerBusy worker)
  { w with
    runtime := { w.runtime with
      panel := { m with dirty := if shown w.runtime.panel ≠ shown m then 1 else m.dirty } }
    worker }

/-- `aw_poll`. -/
def pollWorker (w : World F) (others : List Other) : World F :=
  let s := elapse w.worker others
  match s.worker with
  | none => { w with worker := s }
  | some aw =>
    let polled := Worker.awPoll s aw
    { w with
      worker := polled.1
      runtime := { w.runtime with wifiExit := polled.2.getD w.runtime.wifiExit } }

/-! The calls on the runtime. -/

structure InitEnv where
  path : CStr
  files : Files
  load : LoadEnv
  store : StoreEnv
  backlight : Option Backlight
  allocated : Bool
  reading : ReadEnv
  ssid : CStr
  release : Option CStr
  buildId : Option CStr
  initial : Int
  set : Bool
  readouts : List Other

def noStatus : Status :=
  { haveBatt := false, cap := 0, mv := 0, ma := 0, plugged := false, word := [], haveWifi := false,
    level := 0, quality := 0, addr := [], usbOnline := 0, acOnline := 0, usbValid := false,
    acValid := false, onlineValid := false, currentUa := 0, currentValid := false, capValid := false,
    wordValid := false, readMs := 0 }

/-- The maximum of the slider. -/
def maximumOf (backlight : Option Backlight) : Int :=
  match backlight with
  | some backlight => backlight.max
  | none => 255

def openFailed (e : InitEnv) : Bool :=
  (match (settingsLoad e.path e.files e.load).2 with
    | .error enoent => !enoent
    | .ok () => false) || !settingsStoreAvailable e.path e.store

/-- The first level: the one of the hardware until Auto is established. -/
def initialLevel (e : InitEnv) (s : Settings) : Int :=
  if s.brightnessAuto ≠ 0 ∧ e.backlight.isSome ∧ 8 ≤ e.initial then e.initial else s.brightness

variable [CFloat F]

/-- The runtime before it looks at the status. -/
def freshRuntime (e : InitEnv) (policy : PowerPolicy) (now : Int) : ControlRuntime F :=
  let settings := (settingsLoad e.path e.files e.load).1
  { panel := { ccInit settings.brightness (maximumOf e.backlight) settings.brightnessAuto
        settings.sleepMinutes with
      ssid := e.ssid
      kernel := (e.release.getD []).take 31
      build := cut ((fgets 63 (e.buildId.getD [])).line.takeWhile (· ≠ 10)) }
    settings
    backlight := e.backlight
    policy
    idle := sleepTimerInit settings.sleepMinutes now
    status := noStatus
    settingsPath := e.path
    wantedWifi := 0
    wifiExit := 0
    sleepRequested := false
    settingsPending := false
    settingsFailed := openFailed e
    saveAtMs := 0
    readAtMs := 0
    policyAtMs := 0
    actionNote := [] }

def freshWorld (e : InitEnv) (policy : PowerPolicy) (now : Int) : World F :=
  { runtime := freshRuntime e policy now
    worker := Worker.System.fresh
    files := e.files
    sent := []
    saved := []
    readings := [] }

def controlRuntimeInit (e : InitEnv) (now : Int) : Option (World F) :=
  match powerPolicyNew (maximumOf e.backlight) now with
  | none => none
  | some policy =>
    if e.allocated = false then none
    else
      let w := readStatus (freshWorld e policy now) now e.reading
      some (readouts (apply w (initialLevel e w.runtime.settings) e.set) e.readouts)

structure TickEnv where
  beforePoll : List Other
  bar : ReadEnv
  policy : ReadEnv
  set : Bool
  save : SaveTry
  readouts : List Other

/-- A step of the policy, and the level it decides on. -/
def decideAt (w : World F) (time : Int) (ok : Bool) : World F :=
  let step := powerPolicyStep w.runtime.policy w.runtime.status time false
  let w := { w with runtime := { w.runtime with policy := step.2 } }
  if 8 ≤ step.1 then apply w step.1 ok else w

/-- The policy's turn, on a sample of its own. -/
def policyTurn (w : World F) (now : Int) (e : TickEnv) : World F :=
  let w := readStatus w now e.policy
  decideAt w (if w.runtime.status.readMs > now then w.runtime.status.readMs else now) e.set

def policyDue (w : World F) (now : Int) (e : TickEnv) : World F :=
  let w := if w.runtime.settings.brightnessAuto ≠ 0 then policyTurn w now e else w
  { w with runtime := { w.runtime with policyAtMs := now + 10000 } }

/-! The parts of a tick. -/

def statusTick (w : World F) (now : Int) (e : TickEnv) : World F :=
  if w.runtime.readAtMs ≤ now then readStatus w now e.bar else w

def policyTick (w : World F) (now : Int) (asleep : Bool) (e : TickEnv) : World F :=
  if asleep = false ∧ w.runtime.policyAtMs ≤ now then policyDue w now e else w

def saveTick (w : World F) (now : Int) (e : TickEnv) : World F :=
  if w.runtime.settingsPending ∧ w.runtime.saveAtMs ≤ now then save w e.save else w

def sleepTick (w : World F) (now : Int) (asleep : Bool) : World F :=
  { w with runtime := { w.runtime with
    sleepRequested :=
      if asleep = false ∧ sleepTimerDue w.runtime.idle now then true else w.runtime.sleepRequested } }

def controlRuntimeTick (w : World F) (now : Int) (asleep : Bool) (e : TickEnv) : World F :=
  let w := pollWorker (w.withPanel (ccTick w.runtime.panel now)) e.beforePoll
  let w := policyTick (statusTick w now e) now asleep e
  sleepTick (readouts (saveTick w now e) e.readouts) now asleep

structure ActionEnv where
  before : List Other
  start : Worker.StartEnv
  set : Bool
  save : SaveTry
  rescue : CStr
  loader : CStr
  readouts : List Other

/-- A change of the preferences is saved two seconds later. -/
def postpone (w : World F) (now : Int) : World F :=
  { w with runtime := { w.runtime with settingsPending := true, saveAtMs := now + 2000 } }

def setBrightness (w : World F) (arg now : Int) (e : ActionEnv) : World F :=
  let r := w.runtime
  let w := { w with runtime := { r with settings := { r.settings with brightness := arg } } }
  postpone (apply w arg e.set) now

/-- The level after Auto was switched: the drag's, the learned or the stored one. -/
def switchLevel (w : World F) (arg : Int) (e : ActionEnv) : World F :=
  let r := w.runtime
  if arg = 0 ∧ r.panel.draggingBrightness ≠ 0 then
    apply { w with runtime := { r with settings := { r.settings with brightness := r.panel.brightness } } }
      r.panel.brightness e.set
  else apply w (if arg ≠ 0 then powerPolicyLevel r.policy else r.settings.brightness) e.set

def setAuto (w : World F) (arg now : Int) (e : ActionEnv) : World F :=
  let r := w.runtime
  let w := { w with runtime := { r with
    settings := { r.settings with brightnessAuto := arg }
    panel := { r.panel with autoOn := arg }
    policy := (powerPolicyStep r.policy r.status now true).2 } }
  let w := switchLevel w arg e
  postpone { w with runtime := { w.runtime with policyAtMs := now } } now

def setSleepMinutes (w : World F) (arg now : Int) : World F :=
  let r := w.runtime
  postpone { w with runtime := { r with
    settings := { r.settings with sleepMinutes := arg }
    idle := sleepTimerSetMinutes r.idle arg now } } now

/-- `fork` returns no pid that is in use. -/
def forked (s : Worker.System) (e : Worker.StartEnv) : Worker.StartEnv :=
  if Worker.forkable s e then e else { e with fork := none }

def wifiArgv (arg : Int) : List CStr :=
  [cstr "/usr/sbin/taq102-wifi", if arg ≠ 0 then cstr "up" else cstr "down"]

/-- `aw_start` of the Wi-Fi script. -/
def startWifi (s : Worker.System) (arg : Int) (e : Worker.StartEnv) : Worker.System × Int :=
  match s.worker with
  | none => (s, -1)
  | some aw => Worker.awStart s aw (wifiArgv arg) 45 (forked s e)

def wifiToggle (w : World F) (arg : Int) (e : ActionEnv) : World F :=
  let r := w.runtime
  let started := startWifi (elapse w.worker e.before) arg e.start
  let w := { w with worker := started.1 }
  if started.2 = 0 then
    { w with runtime := { r with wantedWifi := arg, wifiExit := 0, actionNote := [] } }
  else { w with runtime := { r with actionNote := snprintf 48 (cstr "Wi-Fi action unavailable") } }

/-- One action; a reboot that succeeds does not return. -/
def takeAction (w : World F) (result : CcResult) (now : Int) (e : ActionEnv) : World F :=
  let r := w.runtime
  match result.action with
  | .setBrightness => setBrightness w result.arg now e
  | .setAuto => setAuto w result.arg now e
  | .setSleepMinutes => setSleepMinutes w result.arg now
  | .sleepNow => { w with runtime := { r with sleepRequested := true } }
  | .wifiToggle => wifiToggle w result.arg e
  | .rebootRescue => { w with runtime := { r with actionNote := snprintf 48 e.rescue } }
  | .rebootLoader =>
    { w with runtime := { r with actionNote := snprintf 48 (cstr "Loader: " ++ e.loader.take 38) } }
  | .saveSettings => save w e.save
  | .none => w

def controlRuntimeAction (w : World F) (result : CcResult) (now : Int) (e : ActionEnv) : World F :=
  readouts (takeAction w result now e) e.readouts

def takeActions (now : Int) : List CcResult → (Nat → ActionEnv) → World F → World F
  | [], _, w => w
  | result :: rest, e, w =>
    takeActions now rest (fun i => e (i + 1)) (controlRuntimeAction w result now (e 0))

def controlRuntimeSleep (w : World F) (now : Int) (e : SaveTry) : World F :=
  let m := ccClose w.runtime.panel now
  let w := w.withPanel { m with slide := lit 0, slideFrom := lit 0 }
  let r := w.runtime
  let w := { w with runtime := { r with
    sleepRequested := false
    policy := (powerPolicyStep r.policy r.status now true).2 } }
  if w.runtime.settingsPending then save w e else w

def controlRuntimeWake (w : World F) (now : Int) (ok : Bool) : World F :=
  let r := w.runtime
  apply { w with runtime := { r with
    idle := sleepTimerTouch r.idle now
    readAtMs := now
    policyAtMs := now } } r.panel.brightness ok

/-- The calls of the application: those on the runtime, and those on its panel and its timer that
`control_input.c` makes between them. -/
inductive RuntimeOp (F D : Type) where
  | tick (now : Int) (asleep : Bool) (e : TickEnv)
  | touch (event : TouchEvent F D) (now : Int) (out : Bool) (max : Int) (e : Nat → ActionEnv)
  | sleep (now : Int) (e : SaveTry)
  | wake (now : Int) (ok : Bool)
  | openPanel (now : Int)
  | closePanel (now : Int)
  | tickPanel (now : Int)
  | touchIdle (now : Int)
  | disarm

variable [CFloat D] [CDouble F D]

/-- `cc_handle`, and its actions in their order. -/
def touchPanel (w : World F) (event : TouchEvent F D) (now : Int) (out : Bool) (max : Int)
    (e : Nat → ActionEnv) : World F :=
  let answer := ccHandleEvent w.runtime.panel event now out max
  let actions := match answer.1 with
    | .ok actions => actions
    | .error _ => []
  takeActions now actions e (w.withPanel answer.2)

def step (w : World F) : RuntimeOp F D → World F
  | .tick now asleep e => controlRuntimeTick w now asleep e
  | .touch event now out max e => touchPanel w event now out max e
  | .sleep now e => controlRuntimeSleep w now e
  | .wake now ok => controlRuntimeWake w now ok
  | .openPanel now => w.withPanel (ccOpen w.runtime.panel now)
  | .closePanel now => w.withPanel (ccClose w.runtime.panel now)
  | .tickPanel now => w.withPanel (ccTick w.runtime.panel now)
  | .touchIdle now => { w with runtime := { w.runtime with idle := sleepTimerTouch w.runtime.idle now } }
  | .disarm => w.withPanel { w.runtime.panel with armed := 0, dirty := 1 }

/-! A start of the tablet without a preferences file, with every call succeeding. -/

def goodSave : SaveTry where
  store := { copied := true, writable := true, mounted := true }
  calls := { fails := fun _ => false, suffix := cstr "a1b2c3", writes := [] }

def quietRead (sample : Status) : ReadEnv := { before := [], sample, between := [] }

def quietTick (sample : Status) : TickEnv where
  beforePoll := []
  bar := quietRead sample
  policy := quietRead sample
  set := true
  save := goodSave
  readouts := []

def quietAction : ActionEnv where
  before := []
  start := { now := 0, listed := true, fork := some 100 }
  set := true
  save := goodSave
  rescue := []
  loader := []
  readouts := []

/-- A start with a backlight of that maximum. -/
def startEnv (backlight : Backlight) : InitEnv where
  path := cstr "/data/settings"
  files := fun _ => none
  load := .works
  store := { copied := true, writable := true, mounted := true }
  backlight := some backlight
  allocated := true
  reading := quietRead noStatus
  ssid := []
  release := none
  buildId := none
  initial := 100
  set := true
  readouts := []

end Taq102.Runtime
