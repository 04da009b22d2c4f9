import Mathlib.Logic.Function.Basic
import Taq102.Runtime.RescueTarget
import Taq102.Runtime.RescueWrite

/-! The rescue reboot (`reboot_target_rescue` of `reboot_target.c`): the disk is found, the request is
written to it and read back, and the machine is asked to restart. -/
namespace Taq102.Runtime
open Taq102.Lib

/-- What `reboot` comes to; on success it does not return. -/
inductive RebootAnswer where
  | restarts
  | fails
  | returns
  deriving DecidableEq, Repr

inductive RescueCall where
  | target (call : TargetCall)
  | sync
  | reboot
  deriving DecidableEq, Repr

/-- What a rescue reboot meets. -/
structure RescueEnv where
  dir : Option BlockDirectory
  calls : Outcomes
  reboot : RebootAnswer

/-- The disks after it by their paths, the calls it made, its result if it has returned, and the text it
left in `err`. -/
structure RescueRun where
  disks : CStr → Int → UInt8
  log : List RescueCall
  ret : Option Int
  err : CStr

section Rescue
variable (scan : CStr → Option (Nat × CStr))

def emmcDevice (dir : Option BlockDirectory) (n : Nat) : Int × CStr :=
  emmcDeviceAt scan (some (cstr "/sys/class/block")) (some (cstr "/dev")) dir n

def rebootTargetRescue (offBits errn : Nat) (e : RescueEnv) (disks : CStr → Int → UInt8) : RescueRun :=
  let found := emmcDevice scan e.dir pathMax
  if found.1 ≠ 0 then
    { disks, log := [], ret := some (-1),
      err := snprintf errn (cstr "Cannot resolve one eMMC rescue target") }
  else
    let run := bcbWriteVerify offBits (some found.2) 32800 errn e.calls (disks found.2)
    let disks := Function.update disks found.2 run.bytes
    let log := run.log.map RescueCall.target
    match run.ret with
    | none => { disks, log, ret := none, err := run.err }
    | some ret =>
      if ret ≠ 0 then { disks, log, ret := some (-1), err := run.err }
      else
        let log := log ++ [.sync, .reboot]
        match e.reboot with
        | .restarts => { disks, log, ret := none, err := run.err }
        | .fails =>
          { disks, log, ret := some (-1), err := snprintf errn (cstr "Reboot failed after verified BCB write") }
        | .returns =>
          { disks, log, ret := some (-1), err := snprintf errn (cstr "Reboot unexpectedly returned") }

/-- The path is the one of the only disk with the rescue partition. -/
def RescueDisk (dir : Option BlockDirectory) (dev : CStr) : Prop :=
  ∃ blocks parent, dir = some blocks ∧
    Resolves scan (cstr "/sys/class/block") (cstr "/dev") blocks pathMax parent ∧
    dev = cstr "/dev" ++ cstr "/" ++ parent

variable {scan}

theorem emmcDevice_found {dir : Option BlockDirectory} (h : (emmcDevice scan dir pathMax).1 = 0) :
    RescueDisk scan dir (emmcDevice scan dir pathMax).2 := by
  cases dir with
  | none => cases h
  | some blocks =>
    by_cases hresolves : ∃ parent, Resolves scan (cstr "/sys/class/block") (cstr "/dev") blocks pathMax parent
    · obtain ⟨parent, hparent⟩ := hresolves
      exact ⟨blocks, parent, rfl, hparent, by rw [emmcDevice, emmcDeviceAt_of_resolves hparent]⟩
    · rw [emmcDevice, emmcDeviceAt_of_not hresolves] at h
      cases h

theorem emmcDevice_of_rescueDisk {dir : Option BlockDirectory} {dev : CStr} (h : RescueDisk scan dir dev) :
    emmcDevice scan dir pathMax = (0, dev) := by
  obtain ⟨blocks, parent, rfl, hparent, rfl⟩ := h
  exact emmcDeviceAt_of_resolves hparent

/-- The text says something, as far as it fits. -/
def Explains (errn : Nat) (err : CStr) : Prop :=
  ∃ message : String, message ≠ "" ∧ err = snprintf errn (cstr message)

end Rescue

section Explained
variable {offBits offset errn : Nat} {dev : Option CStr} {sector : Int} {calls : Outcomes}
  {bytes : Int → UInt8}

theorem writeLoop_explains {calls : List Pwrite} {bytes : Int → UInt8} {done : Nat} {message : String}
    (h : (writeLoop offBits offset bytes done calls).progress = .stopped message) : message ≠ "" := by
  induction calls generalizing bytes done with
  | nil =>
    rw [writeLoop] at h
    dsimp only at h
    split at h <;> cases h
  | cons call rest ih =>
    rw [writeLoop] at h
    split at h
    · cases h
    dsimp only at h
    split at h
    · exact ih h
    · cases h
      decide
    · split at h
      · cases h
        decide
      · exact ih h

theorem readLoop_explains {calls : List Pread} {actual : List UInt8} {message : String}
    (h : (readLoop offBits offset actual calls).progress = .stopped message) : message ≠ "" := by
  induction calls generalizing actual with
  | nil =>
    rw [readLoop] at h
    dsimp only at h
    split at h <;> cases h
  | cons call rest ih =>
    rw [readLoop] at h
    split at h
    · cases h
    dsimp only at h
    split at h
    · exact ih h
    · cases h
      decide
    · split at h
      · cases h
        decide
      · exact ih h

theorem targetExtent_explains {stat : StatResult} {message : String} (h : targetExtent stat = .error message) :
    message ≠ "" := by
  unfold targetExtent at h
  split at h
  · cases h
    decide
  · split at h <;> cases h
    decide
  · cases h
    decide
  · cases h
  · cases h
    decide

theorem writeVerify_explains {ret : Int} (h : (writeVerify offBits offset errn calls bytes).ret = some ret)
    (hret : ret ≠ 0) : Explains errn (writeVerify offBits offset errn calls bytes).err := by
  unfold writeVerify at h ⊢
  dsimp only at h ⊢
  split at h
  · cases h
  · rename_i message hstopped
    exact ⟨message, writeLoop_explains hstopped, rfl⟩
  split at h
  · rename_i hsync
    rw [if_pos hsync]
    exact ⟨_, by decide, rfl⟩
  rename_i hsync
  rw [if_neg hsync]
  split at h
  · cases h
  · rename_i message hstopped
    exact ⟨message, readLoop_explains hstopped, rfl⟩
  split at h
  · rename_i hother
    rw [if_pos hother]
    exact ⟨_, by decide, rfl⟩
  rename_i hsame
  rw [if_neg hsame]
  split at h
  · rename_i hclose
    rw [if_pos hclose]
    exact ⟨_, by decide, rfl⟩
  · exact absurd (Option.some.inj h).symm hret

/-- A call that fails says why. -/
theorem bcbWriteVerify_explains {ret : Int}
    (h : (bcbWriteVerify offBits dev sector errn calls bytes).ret = some ret) (hret : ret ≠ 0) :
    Explains errn (bcbWriteVerify offBits dev sector errn calls bytes).err := by
  unfold bcbWriteVerify at h ⊢
  dsimp only at h ⊢
  split
  · exact ⟨_, by decide, rfl⟩
  rename_i hsector
  rw [if_neg hsector] at h
  split
  · exact ⟨_, by decide, rfl⟩
  rename_i hposition
  rw [if_neg hposition] at h
  split
  · exact ⟨_, by decide, rfl⟩
  rename_i hopens
  rw [if_neg hopens] at h
  split
  · rename_i message hextent
    exact ⟨message, targetExtent_explains hextent, rfl⟩
  rename_i extent hextent
  rw [hextent] at h
  dsimp only at h
  split
  · exact ⟨_, by decide, rfl⟩
  rename_i hroom
  rw [if_neg hroom] at h
  exact writeVerify_explains h hret

/-- What a call does to the device is in the window, and a success leaves the request there. -/
theorem bcbWriteVerify_window (offBits errn : Nat) (dev : Option CStr) (sector : Int) (calls : Outcomes)
    (bytes : Int → UInt8) {p : Int} (hp : ¬ Window sector p) :
    (bcbWriteVerify offBits dev sector errn calls bytes).bytes p = bytes p := by
  rcases bcbWriteVerify_cases offBits errn dev sector calls bytes with
    ⟨message, log, hrun, _⟩ | ⟨offset, hrange, _, _, hrun⟩
  · rw [hrun]
    rfl
  · rw [hrun]
    exact (writeVerify_within errn calls bytes hrange).1 p hp

theorem bcbWriteVerify_success (h : (bcbWriteVerify offBits dev sector errn calls bytes).ret = some 0) :
    WrittenAndVerified sector (bcbWriteVerify offBits dev sector errn calls bytes).log ∧
      ∀ i : Nat, i < 4096 → (bcbWriteVerify offBits dev sector errn calls bytes).bytes (512 * sector + i) =
        expectedBcb.getD i 0 := by
  rcases bcbWriteVerify_cases offBits errn dev sector calls bytes with
    ⟨message, log, hrun, _⟩ | ⟨offset, hrange, _, _, hrun⟩
  · rw [hrun] at h
    cases h
  · rw [hrun] at h ⊢
    exact writeVerify_success hrange h

end Explained

/-- No disk is resolved, the request is not written, or it is and the machine is asked to restart. -/
theorem rebootTargetRescue_cases (scan : CStr → Option (Nat × CStr)) (offBits errn : Nat) (e : RescueEnv)
    (disks : CStr → Int → UInt8) :
    let run := rebootTargetRescue scan offBits errn e disks
    (∀ ret, run.ret = some ret → ret = -1 ∧ Explains errn run.err) ∧
      ((¬ (∃ dev, RescueDisk scan e.dir dev) ∧ run.disks = disks ∧ run.log = []) ∨
        ∃ dev, RescueDisk scan e.dir dev ∧
          let call := bcbWriteVerify offBits (some dev) 32800 errn e.calls (disks dev)
          run.disks = Function.update disks dev call.bytes ∧
            (call.ret ≠ some 0 ∧ run.log = call.log.map .target ∨
              call.ret = some 0 ∧ run.log = call.log.map .target ++ [.sync, .reboot])) := by
  intro run
  by_cases hfound : (emmcDevice scan e.dir pathMax).1 = 0
  · have hdisk := emmcDevice_found hfound
    obtain ⟨dev, hdev⟩ : ∃ dev, dev = (emmcDevice scan e.dir pathMax).2 := ⟨_, rfl⟩
    obtain ⟨call, hcall⟩ : ∃ call, call = bcbWriteVerify offBits (some dev) 32800 errn e.calls (disks dev) :=
      ⟨_, rfl⟩
    rw [← hdev] at hdisk
    have hexplains (ret : Int) (h : call.ret = some ret) (hret : ret ≠ 0) : Explains errn call.err := by
      rw [hcall] at h ⊢
      exact bcbWriteVerify_explains h hret
    simp only [run, rebootTargetRescue, hfound, ← hdev, ← hcall, ne_eq, not_true_eq_false, if_false]
    cases hreturned : call.ret with
    | none =>
      refine ⟨nofun, .inr ⟨dev, hdisk, ?_⟩⟩
      rw [← hcall]
      exact ⟨rfl, .inl ⟨by rw [hreturned]; exact (Option.some_ne_none _).symm, rfl⟩⟩
    | some ret =>
      dsimp only
      by_cases hret : ret = 0
      · subst hret
        rw [if_neg (not_not.mpr rfl)]
        refine ⟨?_, .inr ⟨dev, hdisk, ?_⟩⟩
        · cases e.reboot with
          | restarts => exact nofun
          | fails =>
            intro ret h
            cases h
            exact ⟨rfl, _, by decide, rfl⟩
          | returns =>
            intro ret h
            cases h
            exact ⟨rfl, _, by decide, rfl⟩
        · rw [← hcall]
          cases e.reboot <;> exact ⟨rfl, .inr ⟨hreturned, rfl⟩⟩
      · rw [if_pos hret]
        refine ⟨fun ret' h => ?_, .inr ⟨dev, hdisk, ?_⟩⟩
        · cases h
          exact ⟨rfl, hexplains ret hreturned hret⟩
        · rw [← hcall]
          exact ⟨rfl, .inl ⟨by rw [hreturned]; exact fun h => hret (Option.some.inj h), rfl⟩⟩
  · have hnone : ¬ ∃ dev, RescueDisk scan e.dir dev := by
      rintro ⟨dev, hdisk⟩
      rw [emmcDevice_of_rescueDisk hdisk] at hfound
      exact hfound rfl
    have hrun : run = ⟨disks, [], some (-1), snprintf errn (cstr "Cannot resolve one eMMC rescue target")⟩ :=
      if_pos hfound
    rw [hrun]
    refine ⟨fun ret hret => ?_, .inl ⟨hnone, rfl, rfl⟩⟩
    cases hret
    exact ⟨rfl, _, by decide, rfl⟩

/-- The request has room on the target, and the calls on it do not fail. -/
structure Outcomes.Room (calls : Outcomes) : Prop where
  opens : calls.opens = true
  extent : ∃ extent, targetExtent calls.stat = .ok extent ∧ 512 * 32800 + 4096 ≤ extent
  good : calls.Good 32800

/-- Whatever the calls return: of all disks only the request's bytes of the disk with the only rescue
partition change; the machine is asked to restart only after the request was written to that disk,
synced and read back, and is asked to where nothing fails; and a failure says why. -/
theorem rescue_restarts (scan : CStr → Option (Nat × CStr)) (offBits errn : Nat) (e : RescueEnv)
    (disks : CStr → Int → UInt8) :
    let run := rebootTargetRescue scan offBits errn e disks
    (∀ dev p, run.disks dev p ≠ disks dev p → RescueDisk scan e.dir dev ∧ Window 32800 p) ∧
      (.reboot ∈ run.log → ∃ dev calls, RescueDisk scan e.dir dev ∧
        run.log = calls.map .target ++ [.sync, .reboot] ∧ WrittenAndVerified 32800 calls ∧
        ∀ i : Nat, i < 4096 → run.disks dev (512 * 32800 + i) = expectedBcb.getD i 0) ∧
      (∀ dev, RescueDisk scan e.dir dev → e.calls.Room → 2 * (512 * 32800 + 4096 : Int) < 2 ^ offBits →
        .reboot ∈ run.log) ∧
      ∀ ret, run.ret = some ret → ret = -1 ∧ Explains errn run.err := by
  intro run
  have htarget (log : List TargetCall) : .reboot ∉ log.map RescueCall.target := by simp
  obtain ⟨hexplains, ⟨hnone, hdisks, hlog⟩ | ⟨dev, hdisk, hdisks, hcall⟩⟩ :=
    rebootTargetRescue_cases scan offBits errn e disks
  · change run.disks = disks at hdisks
    change run.log = [] at hlog
    refine ⟨fun dev p hchanged => absurd (by rw [hdisks]) hchanged, fun hreboot => ?_,
      fun dev hdisk => absurd ⟨dev, hdisk⟩ hnone, hexplains⟩
    rw [hlog] at hreboot
    cases hreboot
  change run.disks = _ at hdisks
  refine ⟨fun dev' p hchanged => ?_, fun hreboot => ?_, fun dev' hdisk' hroom hwide => ?_, hexplains⟩
  · rw [hdisks] at hchanged
    by_cases hother : dev' = dev
    · subst hother
      rw [Function.update_self] at hchanged
      exact ⟨hdisk, by_contra fun hp => hchanged (bcbWriteVerify_window offBits errn _ _ _ _ hp)⟩
    · exact absurd (congrFun (Function.update_of_ne hother _ _) p) hchanged
  · rcases hcall with ⟨_, hlog⟩ | ⟨hret, hlog⟩
    · rw [show run.log = _ from hlog] at hreboot
      exact absurd hreboot (htarget _)
    · obtain ⟨hverified, hbytes⟩ := bcbWriteVerify_success hret
      refine ⟨dev, _, hdisk, hlog, hverified, fun i hi => ?_⟩
      rw [hdisks, Function.update_self]
      exact hbytes i hi
  · have hsame : dev' = dev := by
      have heq := (emmcDevice_of_rescueDisk hdisk').symm.trans (emmcDevice_of_rescueDisk hdisk)
      exact (Prod.mk.inj heq).2
    subst hsame
    obtain ⟨extent, hextent, hlarge⟩ := hroom.extent
    have hret : (bcbWriteVerify offBits (some dev') 32800 errn e.calls (disks dev')).ret = some 0 :=
      bcbWriteVerify_succeeds (Option.some_ne_none _) (by decide) (by decide) hwide hroom.opens hextent
        (by exact_mod_cast hlarge) hroom.good
    rcases hcall with ⟨hother, _⟩ | ⟨_, hlog⟩
    · exact absurd hret hother
    · rw [show run.log = _ from hlog]
      simp

end Taq102.Runtime
