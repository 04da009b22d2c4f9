import Mathlib.Data.List.GetD
import Taq102.Lib.CString

/-! The rescue request on the disk (`bcb_write_verify` of `reboot_target.c`), with its system calls
short, interrupted or failing in every way. -/
namespace Taq102.Runtime
open Taq102.Lib

/-- The number of values of a `uint64_t`. -/
def uint64Values : Nat := 18446744073709551616

def int64Largest : Int := 9223372036854775807

/-- Conversion to an `off_t` of this width. -/
def toOff (offBits v : Nat) : Int := Int.bmod v (2 ^ offBits)

/-- What a `pwrite` returns. -/
inductive PwriteResult where
  | interrupted
  | failed
  | wrote (count : Nat)
  deriving DecidableEq, Repr

/-- A `pwrite`: what it returns, and what it left in the rest of the range it was given. -/
structure Pwrite where
  result : PwriteResult
  torn : Int → Option UInt8

/-- A `pread`, with the bytes it sees on the device. -/
inductive Pread where
  | interrupted
  | failed
  | got (count : Nat) (seen : Int → UInt8)

/-- What the type and the size of the target turn out to be. -/
inductive StatResult where
  | failed
  | regular (size : Int)
  | block (extent : Option Nat)
  | other
  deriving DecidableEq, Repr

/-- The outcomes of the calls, in order where a call is repeated. -/
structure Outcomes where
  opens : Bool
  stat : StatResult
  pwrites : List Pwrite
  fsync : Bool
  preads : List Pread
  closes : Bool

/-- A position and a length that a transfer asked for, and the bytes it moved. -/
structure Transfer where
  position : Int
  length : Nat
  moved : List UInt8
  deriving DecidableEq, Repr

/-- A call on the open target, from the first write to the end. -/
inductive TargetCall where
  | pwrite (t : Transfer)
  | fsync (succeeded : Bool)
  | pread (t : Transfer)
  | close (succeeded : Bool)
  deriving DecidableEq, Repr

/-- How a loop of transfers stands: its next call has not returned, it failed, or it is done. -/
inductive Progress where
  | pending
  | stopped (message : String)
  | complete
  deriving DecidableEq, Repr

/-- The device, the writes made and how the writing stands. -/
structure WriteOutcome where
  bytes : Int → UInt8
  log : List Transfer
  progress : Progress

structure Verified where
  actual : List UInt8
  log : List Transfer
  progress : Progress

def expectedBcb : List UInt8 := cstr "boot-recovery" ++ List.replicate 4083 0

/-- The device after a `pwrite` of `data` that took the first `count` bytes. -/
def storeBytes (bytes : Int → UInt8) (position : Int) (data : List UInt8) (count : Nat)
    (torn : Int → Option UInt8) (p : Int) : UInt8 :=
  if position ≤ p ∧ p < position + data.length then
    if p < position + count then data.getD (p - position).toNat 0 else (torn p).getD (bytes p)
  else bytes p

section Loops
variable (offBits offset : Nat)

def writeLoop (bytes : Int → UInt8) (done : Nat) : List Pwrite → WriteOutcome
  | [] => { bytes := bytes, log := [], progress := if 4096 ≤ done then .complete else .pending }
  | call :: rest =>
    if 4096 ≤ done then { bytes := bytes, log := [], progress := .complete }
    else
      let data := expectedBcb.drop done
      let position := toOff offBits ((offset + done) % uint64Values)
      let made (count : Nat) : Transfer := ⟨position, data.length, data.take count⟩
      match call.result with
      | .interrupted =>
        let w := writeLoop (storeBytes bytes position data 0 call.torn) done rest
        { w with log := made 0 :: w.log }
      | .failed =>
        { bytes := storeBytes bytes position data 0 call.torn
          log := [made 0]
          progress := .stopped "Cannot write complete BCB" }
      | .wrote n =>
        let count := min n data.length
        let bytes := storeBytes bytes position data count call.torn
        if count = 0 then
          { bytes := bytes, log := [made 0], progress := .stopped "Cannot write complete BCB" }
        else
          let w := writeLoop bytes (done + count) rest
          { w with log := made count :: w.log }

def readLoop (actual : List UInt8) : List Pread → Verified
  | [] =>
    { actual := actual, log := [], progress := if 4096 ≤ actual.length then .complete else .pending }
  | call :: rest =>
    if 4096 ≤ actual.length then { actual := actual, log := [], progress := .complete }
    else
      let position := toOff offBits ((offset + actual.length) % uint64Values)
      let made (data : List UInt8) : Transfer := ⟨position, 4096 - actual.length, data⟩
      match call with
      | .interrupted =>
        let v := readLoop actual rest
        { v with log := made [] :: v.log }
      | .failed =>
        { actual := actual
          log := [made []]
          progress := .stopped "Cannot read complete BCB verification" }
      | .got n seen =>
        let count := min n (4096 - actual.length)
        if count = 0 then
          { actual := actual
            log := [made []]
            progress := .stopped "Cannot read complete BCB verification" }
        else
          let data := (List.range count).map fun (i : Nat) => seen (position + i)
          let v := readLoop (actual ++ data) rest
          { v with log := made data :: v.log }

end Loops

/-- A call of `bcb_write_verify`: the device after it, the calls it made on the target in their
order, its result if it has returned, and the text it left in `err`. -/
structure BcbRun where
  bytes : Int → UInt8
  log : List TargetCall
  ret : Option Int
  err : CStr

def targetExtent : StatResult → Except String Nat
  | .failed => .error "Cannot inspect BCB target"
  | .regular size => if 0 ≤ size then .ok size.toNat else .error "Unsupported BCB target type"
  | .block none => .error "Cannot read block device extent"
  | .block (some extent) => .ok extent
  | .other => .error "Unsupported BCB target type"

/-- `failure`, for a buffer of `errn` bytes. -/
def bcbFailure (errn : Nat) (bytes : Int → UInt8) (log : List TargetCall) (message : String) :
    BcbRun where
  bytes := bytes
  log := log
  ret := some (-1)
  err := snprintf errn (cstr message)

/-- The request written, synced, read back and compared. -/
def writeVerify (offBits offset errn : Nat) (calls : Outcomes) (bytes : Int → UInt8) : BcbRun :=
  let w := writeLoop offBits offset bytes 0 calls.pwrites
  let written := w.log.map TargetCall.pwrite
  let failed (log : List TargetCall) (message : String) : BcbRun :=
    bcbFailure errn w.bytes (log ++ [.close calls.closes]) message
  match w.progress with
  | .pending => { bcbFailure errn w.bytes written "" with ret := none }
  | .stopped message => failed written message
  | .complete =>
    let synced := written ++ [.fsync calls.fsync]
    if calls.fsync = false then failed synced "Cannot sync BCB"
    else
      let v := readLoop offBits offset [] calls.preads
      let read := synced ++ v.log.map TargetCall.pread
      match v.progress with
      | .pending => { bcbFailure errn w.bytes read "" with ret := none }
      | .stopped message => failed read message
      | .complete =>
        if expectedBcb ≠ v.actual then failed read "BCB verification mismatch"
        else if calls.closes = false then failed read "Cannot close BCB target"
        else { failed read "" with ret := some 0 }

def bcbWriteVerify (offBits : Nat) (dev : Option CStr) (sector : Int) (errn : Nat) (calls : Outcomes)
    (bytes : Int → UInt8) : BcbRun :=
  if dev = none ∨ sector < 0 ∨ (int64Largest - 4096) / 512 < sector then
    bcbFailure errn bytes [] "Invalid BCB sector"
  else
    let offset := sector.toNat * 512 % uint64Values
    let last := (offset + 4096) % uint64Values
    let position := toOff offBits last
    if position < 0 ∨ (position % uint64Values).toNat ≠ last then
      bcbFailure errn bytes [] "BCB offset exceeds platform range"
    else if calls.opens = false then bcbFailure errn bytes [] "Cannot open BCB target"
    else
      match targetExtent calls.stat with
      | .error message => bcbFailure errn bytes [.close calls.closes] message
      | .ok extent =>
        if extent < last then
          bcbFailure errn bytes [.close calls.closes] "BCB target is too small"
        else writeVerify offBits offset errn calls bytes

theorem expectedBcb_length : expectedBcb.length = 4096 := by
  have hword : (cstr "boot-recovery").length = 13 := by decide
  rw [expectedBcb, List.length_append, List.length_replicate, hword]

/-- A position that survives the conversion does so with every smaller one. -/
theorem toOff_of_le {offBits v u : Nat} (h : toOff offBits v = v) (hle : u ≤ v) :
    toOff offBits u = u ∧ (v = 0 ∨ 2 * v < 2 ^ offBits) := by
  have hpow : 2 ^ offBits = 1 ∨ ∃ k, 2 ^ offBits = 2 * k := by
    cases offBits with
    | zero => exact .inl rfl
    | succ n => exact .inr ⟨2 ^ n, Nat.pow_succ'⟩
  have hpos : 0 < 2 ^ offBits := Nat.two_pow_pos offBits
  rw [toOff, Int.bmod_def] at h
  rw [toOff, Int.bmod_def]
  generalize (2 ^ offBits : Nat) = m at h hpos hpow ⊢
  have hmod := Int.emod_lt_of_pos (v : Int) (by omega : (0 : Int) < m)
  split at h
  · have hu : (u : Int) % m = u := Int.emod_eq_of_lt (by omega) (by omega)
    rw [hu, if_pos (by omega)]
    refine ⟨rfl, ?_⟩
    rcases hpow with hone | ⟨k, hk⟩ <;> omega
  · omega

theorem toOff_le (offBits v : Nat) : toOff offBits v ≤ v := by
  have hmod : ((v : Int) % (2 ^ offBits : Nat)) ≤ v := by
    rw [← Int.natCast_mod]
    exact Int.ofNat_le.mpr (Nat.mod_le v _)
  rw [toOff, Int.bmod_def]
  split <;> omega

/-- The range is inside the address space of the code: none of its offsets wraps. -/
structure InRange (offBits : Nat) (sector : Int) (offset : Nat) : Prop where
  offset_eq : (offset : Int) = 512 * sector
  exact_off : ∀ d ≤ 4096, toOff offBits ((offset + d) % uint64Values) = (offset + d : Nat)
  last : (offset + 4096) % uint64Values = offset + 4096
  fits : 2 * (offset + 4096) < 2 ^ offBits

theorem inRange_of_guards {offBits : Nat} {sector : Int}
    (hsector : ¬ (sector < 0 ∨ (int64Largest - 4096) / 512 < sector)) :
    let offset := sector.toNat * 512 % uint64Values
    let last := (offset + 4096) % uint64Values
    ¬ (toOff offBits last < 0 ∨ (toOff offBits last % uint64Values).toNat ≠ last) →
      InRange offBits sector offset := by
  intro offset last hposition
  have hmax : (int64Largest - 4096) / 512 = 18014398509481975 := by decide
  have hvalues : uint64Values = 18446744073709551616 := rfl
  have hoffset : offset = sector.toNat * 512 := Nat.mod_eq_of_lt (by omega)
  have hlast : last = offset + 4096 := Nat.mod_eq_of_lt (by omega)
  have hkeep : toOff offBits last = last := by
    have hle := toOff_le offBits last
    have hsmall : toOff offBits last % uint64Values = toOff offBits last :=
      Int.emod_eq_of_lt (by omega) (by omega)
    rw [hsmall] at hposition
    omega
  have hexact (d : Nat) (hd : d ≤ 4096) : (offset + d) % uint64Values = offset + d :=
    Nat.mod_eq_of_lt (by omega)
  refine ⟨by omega, fun d hd => ?_, hlast, ?_⟩
  · rw [hexact d hd]
    exact (toOff_of_le hkeep (by omega)).1
  · rw [← hlast]
    exact (toOff_of_le hkeep (Nat.le_refl last)).2.resolve_left (by omega)

/-- The bytes of the rescue request on the device. -/
def Window (sector p : Int) : Prop := 512 * sector ≤ p ∧ p < 512 * sector + 4096

/-- A transfer of the rest of the request from one of its bytes on. -/
def Transfer.Within (sector : Int) (t : Transfer) : Prop :=
  ∃ done : Nat, done < 4096 ∧ t.position = 512 * sector + done ∧ t.length = 4096 - done

/-- Transfers each of which goes on where the one before stopped. -/
def Contiguous (position : Int) : List Transfer → Prop
  | [] => True
  | t :: rest => t.position = position ∧ Contiguous (position + t.moved.length) rest

theorem store_outside {bytes : Int → UInt8} {position : Int} {data : List UInt8} {p : Int}
    (h : p < position ∨ position + data.length ≤ p) (count : Nat) (torn : Int → Option UInt8) :
    storeBytes bytes position data count torn p = bytes p := if_neg (by omega)

section Loops
variable {offBits offset : Nat} {sector : Int}

theorem InRange.position (h : InRange offBits sector offset) {done : Nat} (hdone : done ≤ 4096) :
    toOff offBits ((offset + done) % uint64Values) = 512 * sector + done := by
  have hoffset := h.offset_eq
  rw [h.exact_off done hdone]
  omega

theorem InRange.store_outside (h : InRange offBits sector offset) {done : Nat} (hdone : done ≤ 4096)
    {p : Int} (hp : ¬ Window sector p) (bytes : Int → UInt8) (count : Nat) (torn : Int → Option UInt8) :
    storeBytes bytes (toOff offBits ((offset + done) % uint64Values)) (expectedBcb.drop done) count torn p =
      bytes p := by
  apply Runtime.store_outside
  rw [h.position hdone, List.length_drop, expectedBcb_length]
  rw [Window] at hp
  omega

/-- The writing stays in the window. -/
theorem writeLoop_within (h : InRange offBits sector offset) {done : Nat} (hdone : done ≤ 4096)
    (calls : List Pwrite) (bytes : Int → UInt8) :
    (∀ p, ¬ Window sector p → (writeLoop offBits offset bytes done calls).bytes p = bytes p) ∧
      ∀ t ∈ (writeLoop offBits offset bytes done calls).log, t.Within sector := by
  induction calls generalizing bytes done with
  | nil => exact ⟨fun _ _ => rfl, List.forall_mem_nil _⟩
  | cons call rest ih =>
    rw [writeLoop]
    by_cases hend : 4096 ≤ done
    · rw [if_pos hend]
      exact ⟨fun _ _ => rfl, List.forall_mem_nil _⟩
    rw [if_neg hend]
    have hlength : (expectedBcb.drop done).length = 4096 - done := by
      rw [List.length_drop, expectedBcb_length]
    have hmade (moved : List UInt8) : Transfer.Within sector
        ⟨toOff offBits ((offset + done) % uint64Values), (expectedBcb.drop done).length, moved⟩ :=
      ⟨done, Nat.not_le.mp hend, h.position hdone, hlength⟩
    have hstore := fun p (hp : ¬ Window sector p) => h.store_outside hdone hp bytes
    cases hresult : call.result with
    | interrupted =>
      obtain ⟨hbytes, hlog⟩ := ih hdone (storeBytes bytes _ (expectedBcb.drop done) 0 call.torn)
      exact ⟨fun p hp => (hbytes p hp).trans (hstore p hp 0 call.torn),
        List.forall_mem_cons.mpr ⟨hmade _, hlog⟩⟩
    | failed => exact ⟨fun p hp => hstore p hp 0 call.torn, List.forall_mem_singleton.mpr (hmade _)⟩
    | wrote n =>
      have hcount : min n (expectedBcb.drop done).length ≤ 4096 - done := by
        rw [hlength]
        exact Nat.min_le_right _ _
      dsimp only
      split
      · exact ⟨fun p hp => hstore p hp _ call.torn, List.forall_mem_singleton.mpr (hmade _)⟩
      · have hdone' : done + min n (expectedBcb.drop done).length ≤ 4096 := by omega
        obtain ⟨hbytes, hlog⟩ := ih hdone'
          (storeBytes bytes _ (expectedBcb.drop done) (min n (expectedBcb.drop done).length) call.torn)
        exact ⟨fun p hp => (hbytes p hp).trans (hstore p hp _ call.torn),
          List.forall_mem_cons.mpr ⟨hmade _, hlog⟩⟩

/-- The calls that were not interrupted. -/
def Pwrite.returned (call : Pwrite) : Bool := call.result ≠ .interrupted

def Pread.returned : Pread → Bool
  | .interrupted => false
  | .failed | .got _ _ => true

/-- Every call that is not interrupted writes a byte or ends the loop. -/
theorem writeLoop_ends (calls : List Pwrite) (bytes : Int → UInt8) (done : Nat)
    (h : 4096 - done ≤ calls.countP Pwrite.returned) :
    (writeLoop offBits offset bytes done calls).progress ≠ .pending := by
  induction calls generalizing bytes done with
  | nil =>
    have hend : 4096 ≤ done := by
      rw [List.countP_nil] at h
      omega
    rw [writeLoop, if_pos hend]
    exact Progress.noConfusion
  | cons call rest ih =>
    rw [writeLoop]
    by_cases hend : 4096 ≤ done
    · rw [if_pos hend]
      exact Progress.noConfusion
    rw [if_neg hend]
    rw [List.countP_cons] at h
    cases hresult : call.result with
    | interrupted =>
      have hreturned : Pwrite.returned call = false := by simp [Pwrite.returned, hresult]
      rw [hreturned] at h
      exact ih _ done h
    | failed => exact Progress.noConfusion
    | wrote n =>
      dsimp only
      split
      · exact Progress.noConfusion
      · apply ih
        split at h <;> omega

/-- The writes go on where they stopped, and once the loop is done they have moved the rest of the
request to the device, whatever was torn before. -/
theorem writeLoop_moves (h : InRange offBits sector offset) {done : Nat} (hdone : done ≤ 4096)
    (calls : List Pwrite) (bytes : Int → UInt8)
    (hsofar : ∀ i : Nat, i < done → bytes (512 * sector + i) = expectedBcb.getD i 0) :
    let w := writeLoop offBits offset bytes done calls
    Contiguous (512 * sector + done) w.log ∧
      (w.progress = .complete → w.log.flatMap Transfer.moved = expectedBcb.drop done ∧
        ∀ i : Nat, i < 4096 → w.bytes (512 * sector + i) = expectedBcb.getD i 0) := by
  induction calls generalizing bytes done with
  | nil =>
    refine ⟨trivial, fun hcomplete => ?_⟩
    have hend : 4096 ≤ done := by
      by_contra hless
      rw [writeLoop, if_neg hless] at hcomplete
      cases hcomplete
    have hall : expectedBcb.drop done = [] :=
      List.drop_eq_nil_of_le (by rw [expectedBcb_length]; exact hend)
    exact ⟨hall.symm, fun i hi => hsofar i (by omega)⟩
  | cons call rest ih =>
    rw [writeLoop]
    by_cases hend : 4096 ≤ done
    · rw [if_pos hend]
      have hall : expectedBcb.drop done = [] :=
        List.drop_eq_nil_of_le (by rw [expectedBcb_length]; exact hend)
      exact ⟨trivial, fun _ => ⟨hall.symm, fun i hi => hsofar i (by omega)⟩⟩
    rw [if_neg hend]
    have hlength : (expectedBcb.drop done).length = 4096 - done := by
      rw [List.length_drop, expectedBcb_length]
    have hstored (count : Nat) (i : Nat) (hi : i < done + count) (hcount : done + count ≤ 4096) :
        storeBytes bytes (toOff offBits ((offset + done) % uint64Values)) (expectedBcb.drop done) count
          call.torn (512 * sector + i) = expectedBcb.getD i 0 := by
      rw [h.position hdone]
      by_cases hold : i < done
      · rw [Runtime.store_outside (.inl (by omega))]
        exact hsofar i hold
      · rw [storeBytes, if_pos (by omega), if_pos (by omega), List.getD_eq_getElem _ _ (by omega),
          List.getElem_drop, List.getD_eq_getElem _ _ (by rw [expectedBcb_length]; omega)]
        congr 1
        omega
    cases hresult : call.result with
    | interrupted =>
      obtain ⟨hnext, hall⟩ := ih hdone
        (storeBytes bytes _ (expectedBcb.drop done) 0 call.torn) fun i hi => hstored 0 i hi hdone
      refine ⟨⟨h.position hdone, ?_⟩, fun hcomplete => ?_⟩
      · dsimp only
        rw [List.take_zero, List.length_nil, Nat.cast_zero, add_zero]
        exact hnext
      · obtain ⟨hmoved, hbytes⟩ := hall hcomplete
        refine ⟨?_, hbytes⟩
        dsimp only
        rw [List.flatMap_cons, List.take_zero, List.nil_append]
        exact hmoved
    | failed => exact ⟨⟨h.position hdone, trivial⟩, Progress.noConfusion⟩
    | wrote n =>
      have hcount : min n (expectedBcb.drop done).length ≤ 4096 - done := by
        rw [hlength]
        exact Nat.min_le_right _ _
      dsimp only
      generalize hk : min n (expectedBcb.drop done).length = k at hcount ⊢
      split
      · exact ⟨⟨h.position hdone, trivial⟩, Progress.noConfusion⟩
      · have hdone' : done + k ≤ 4096 := by omega
        have htake : ((expectedBcb.drop done).take k).length = k := by
          rw [List.length_take, hlength]
          omega
        obtain ⟨hnext, hall⟩ := ih hdone'
          (storeBytes bytes _ (expectedBcb.drop done) k call.torn) fun i hi => hstored k i hi hdone'
        refine ⟨⟨h.position hdone, ?_⟩, fun hcomplete => ?_⟩
        · dsimp only
          rw [htake]
          rw [Nat.cast_add, ← add_assoc] at hnext
          exact hnext
        · obtain ⟨hmoved, hbytes⟩ := hall hcomplete
          refine ⟨?_, hbytes⟩
          rw [List.flatMap_cons, hmoved, ← List.drop_drop]
          exact List.take_append_drop k (expectedBcb.drop done)

theorem readLoop_within (h : InRange offBits sector offset) (actual : List UInt8)
    (hactual : actual.length ≤ 4096) (calls : List Pread) :
    ∀ t ∈ (readLoop offBits offset actual calls).log, t.Within sector := by
  induction calls generalizing actual with
  | nil => exact List.forall_mem_nil _
  | cons call rest ih =>
    rw [readLoop]
    by_cases hend : 4096 ≤ actual.length
    · rw [if_pos hend]
      exact List.forall_mem_nil _
    rw [if_neg hend]
    have hmade (moved : List UInt8) : Transfer.Within sector
        ⟨toOff offBits ((offset + actual.length) % uint64Values), 4096 - actual.length, moved⟩ :=
      ⟨actual.length, Nat.not_le.mp hend, h.position hactual, rfl⟩
    cases call with
    | interrupted => exact List.forall_mem_cons.mpr ⟨hmade _, ih actual hactual⟩
    | failed => exact List.forall_mem_singleton.mpr (hmade _)
    | got n seen =>
      dsimp only
      split
      · exact List.forall_mem_singleton.mpr (hmade _)
      · refine List.forall_mem_cons.mpr ⟨hmade _, ih _ ?_⟩
        rw [List.length_append, List.length_map, List.length_range]
        omega

theorem readLoop_ends (calls : List Pread) (actual : List UInt8)
    (h : 4096 - actual.length ≤ calls.countP Pread.returned) :
    (readLoop offBits offset actual calls).progress ≠ .pending := by
  induction calls generalizing actual with
  | nil =>
    have hend : 4096 ≤ actual.length := by
      rw [List.countP_nil] at h
      omega
    rw [readLoop, if_pos hend]
    exact Progress.noConfusion
  | cons call rest ih =>
    rw [readLoop]
    by_cases hend : 4096 ≤ actual.length
    · rw [if_pos hend]
      exact Progress.noConfusion
    rw [if_neg hend]
    rw [List.countP_cons] at h
    cases call with
    | interrupted => exact ih actual h
    | failed => exact Progress.noConfusion
    | got n seen =>
      dsimp only
      split
      · exact Progress.noConfusion
      · apply ih
        rw [List.length_append, List.length_map, List.length_range]
        split at h <;> omega

/-- The reads go on where they stopped, and what they moved is what was read. -/
theorem readLoop_moves (h : InRange offBits sector offset) (actual : List UInt8)
    (hactual : actual.length ≤ 4096) (calls : List Pread) :
    let v := readLoop offBits offset actual calls
    Contiguous (512 * sector + actual.length) v.log ∧
      v.actual = actual ++ v.log.flatMap Transfer.moved := by
  induction calls generalizing actual with
  | nil => exact ⟨trivial, (List.append_nil actual).symm⟩
  | cons call rest ih =>
    rw [readLoop]
    by_cases hend : 4096 ≤ actual.length
    · rw [if_pos hend]
      exact ⟨trivial, (List.append_nil actual).symm⟩
    rw [if_neg hend]
    cases call with
    | interrupted =>
      obtain ⟨hnext, hread⟩ := ih actual hactual
      refine ⟨⟨h.position hactual, ?_⟩, hread⟩
      dsimp only
      rw [List.length_nil, Nat.cast_zero, add_zero]
      exact hnext
    | failed => exact ⟨⟨h.position hactual, trivial⟩, (List.append_nil actual).symm⟩
    | got n seen =>
      dsimp only
      split
      · exact ⟨⟨h.position hactual, trivial⟩, (List.append_nil actual).symm⟩
      · generalize hdata : List.map (fun (i : Nat) =>
            seen (toOff offBits ((offset + actual.length) % uint64Values) + i))
          (List.range (min n (4096 - actual.length))) = data
        have hlength : (actual ++ data).length ≤ 4096 := by
          rw [← hdata, List.length_append, List.length_map, List.length_range]
          omega
        obtain ⟨hnext, hread⟩ := ih (actual ++ data) hlength
        refine ⟨⟨h.position hactual, ?_⟩, ?_⟩
        · rw [List.length_append, Nat.cast_add, ← add_assoc] at hnext
          exact hnext
        · rw [List.flatMap_cons, hread]
          exact List.append_assoc _ _ _

/-- A call that moves bytes or is interrupted. -/
def Pwrite.Goes (call : Pwrite) : Prop :=
  call.result = .interrupted ∨ ∃ n, call.result = .wrote (n + 1)

/-- A call that hands over the request from the device, or is interrupted. -/
def Pread.Goes (sector : Int) : Pread → Prop
  | .interrupted => True
  | .failed => False
  | .got n seen => 0 < n ∧ ∀ i : Nat, i < 4096 → seen (512 * sector + i) = expectedBcb.getD i 0

theorem writeLoop_goes {calls : List Pwrite} (hgoes : ∀ call ∈ calls, call.Goes) (bytes : Int → UInt8)
    (done : Nat) (message : String) :
    (writeLoop offBits offset bytes done calls).progress ≠ .stopped message := by
  induction calls generalizing bytes done with
  | nil =>
    rw [writeLoop]
    dsimp only
    split <;> exact Progress.noConfusion
  | cons call rest ih =>
    have hrest := fun call hmem => hgoes call (List.mem_cons_of_mem _ hmem)
    rw [writeLoop]
    by_cases hend : 4096 ≤ done
    · rw [if_pos hend]
      exact Progress.noConfusion
    rw [if_neg hend]
    rcases hgoes call List.mem_cons_self with hresult | ⟨n, hresult⟩
    · rw [hresult]
      exact ih hrest _ done
    · rw [hresult]
      have hlength : (expectedBcb.drop done).length = 4096 - done := by
        rw [List.length_drop, expectedBcb_length]
      dsimp only
      rw [if_neg (by omega)]
      exact ih hrest _ _

theorem readLoop_goes (h : InRange offBits sector offset) {calls : List Pread}
    (hgoes : ∀ call ∈ calls, call.Goes sector) (actual : List UInt8) (hactual : actual.length ≤ 4096)
    (hsofar : actual = expectedBcb.take actual.length) :
    let v := readLoop offBits offset actual calls
    (∀ message, v.progress ≠ .stopped message) ∧ (v.progress = .complete → v.actual = expectedBcb) := by
  have hdone (hend : 4096 ≤ actual.length) : actual = expectedBcb := by
    rw [hsofar, List.take_of_length_le (by rw [expectedBcb_length]; exact hend)]
  induction calls generalizing actual with
  | nil =>
    rw [readLoop]
    dsimp only
    split
    · rename_i hend
      exact ⟨fun _ => Progress.noConfusion, fun _ => hdone hend⟩
    · exact ⟨fun _ => Progress.noConfusion, Progress.noConfusion⟩
  | cons call rest ih =>
    have hrest := fun call hmem => hgoes call (List.mem_cons_of_mem _ hmem)
    rw [readLoop]
    by_cases hend : 4096 ≤ actual.length
    · rw [if_pos hend]
      exact ⟨fun _ => Progress.noConfusion, fun _ => hdone hend⟩
    rw [if_neg hend]
    have hgo := hgoes call List.mem_cons_self
    cases call with
    | interrupted => exact ih hrest actual hactual hsofar hdone
    | failed => exact absurd hgo id
    | got n seen =>
      obtain ⟨hpos, hseen⟩ := hgo
      dsimp only
      rw [if_neg (by omega), h.position hactual]
      generalize hk : min n (4096 - actual.length) = k
      have hdata : (List.range k).map (fun (i : Nat) => seen (512 * sector + actual.length + i)) =
          (expectedBcb.drop actual.length).take k := by
        apply List.ext_getElem
        · rw [List.length_map, List.length_range, List.length_take, List.length_drop,
            expectedBcb_length]
          omega
        · intro i hi hi'
          rw [List.length_map, List.length_range] at hi
          rw [List.getElem_map, List.getElem_range, List.getElem_take, List.getElem_drop, add_assoc,
            ← Nat.cast_add, hseen _ (by omega), List.getD_eq_getElem]
      have hlength : (actual ++ (expectedBcb.drop actual.length).take k).length =
          actual.length + k := by
        rw [List.length_append, List.length_take, List.length_drop, expectedBcb_length]
        omega
      have hnext : actual ++ (expectedBcb.drop actual.length).take k =
          expectedBcb.take (actual.length + k) := by
        rw [List.take_add]
        conv_lhs => rw [hsofar]
        rw [List.length_take, expectedBcb_length, Nat.min_eq_left hactual]
      rw [hdata]
      refine ih hrest _ (by omega) (by rw [hlength]; exact hnext) fun hfull => ?_
      rw [hnext, List.take_of_length_le (by rw [expectedBcb_length]; omega)]

end Loops

/-- The type of the target is known and its extent ends before the request does. -/
def TooSmall (stat : StatResult) (sector : Int) : Prop :=
  ∃ extent, targetExtent stat = .ok extent ∧ (extent : Int) < 512 * sector + 4096

/-- The request was written without a gap, then synced, then read back without a gap, and the target
was closed. -/
def WrittenAndVerified (sector : Int) (log : List TargetCall) : Prop :=
  ∃ writes reads : List Transfer,
    log = writes.map .pwrite ++ .fsync true :: (reads.map .pread ++ [.close true]) ∧
      Contiguous (512 * sector) writes ∧ writes.flatMap Transfer.moved = expectedBcb ∧
      Contiguous (512 * sector) reads ∧ reads.flatMap Transfer.moved = expectedBcb

section Run
variable {offBits offset errn : Nat} {dev : Option CStr} {sector : Int} {calls : Outcomes}
  {bytes : Int → UInt8}

/-- A call fails before it touches the target, or its range is representable and on the target. -/
theorem bcbWriteVerify_cases (offBits errn : Nat) (dev : Option CStr) (sector : Int)
    (calls : Outcomes) (bytes : Int → UInt8) :
    (∃ message log, bcbWriteVerify offBits dev sector errn calls bytes =
        bcbFailure errn bytes log message ∧ (log = [] ∨ log = [.close calls.closes])) ∨
      ∃ offset, InRange offBits sector offset ∧ 0 ≤ sector ∧ ¬ TooSmall calls.stat sector ∧
        bcbWriteVerify offBits dev sector errn calls bytes =
          writeVerify offBits offset errn calls bytes := by
  rw [bcbWriteVerify]
  by_cases hsector : dev = none ∨ sector < 0 ∨ (int64Largest - 4096) / 512 < sector
  · exact .inl ⟨_, _, if_pos hsector, .inl rfl⟩
  rw [if_neg hsector]
  obtain ⟨_, hsector'⟩ := not_or.mp hsector
  dsimp only
  split
  · exact .inl ⟨_, _, rfl, .inl rfl⟩
  rename_i hposition
  have hrange := inRange_of_guards hsector' hposition
  split
  · exact .inl ⟨_, _, rfl, .inl rfl⟩
  split
  · exact .inl ⟨_, _, rfl, .inr rfl⟩
  rename_i extent hextent
  split
  · exact .inl ⟨_, _, rfl, .inr rfl⟩
  rename_i hlarge
  refine .inr ⟨_, hrange, by omega, ?_, rfl⟩
  rintro ⟨extent', hextent', hsmall⟩
  rw [hextent] at hextent'
  cases hextent'
  have hoffset := hrange.offset_eq
  rw [hrange.last] at hlarge
  omega

/-- What a call did before the target was closed, and how it ended. -/
theorem writeVerify_log (offBits offset errn : Nat) (calls : Outcomes) (bytes : Int → UInt8) :
    let w := writeLoop offBits offset bytes 0 calls.pwrites
    let v := readLoop offBits offset [] calls.preads
    let run := writeVerify offBits offset errn calls bytes
    run.bytes = w.bytes ∧ ∃ middle ending : List TargetCall,
      run.log = w.log.map .pwrite ++ middle ++ ending ∧
        (middle = [] ∨ middle = [.fsync false] ∨ middle = .fsync true :: v.log.map .pread) ∧
        (ending = [] ∨ ending = [.close calls.closes]) := by
  intro w v run
  have hread (ending : List TargetCall) :
      (w.log.map TargetCall.pwrite ++ [.fsync true] ++ v.log.map TargetCall.pread) ++ ending =
        w.log.map .pwrite ++ (.fsync true :: v.log.map .pread) ++ ending := by
    simp only [List.append_assoc, List.cons_append, List.nil_append]
  simp only [run, writeVerify]
  split
  · exact ⟨rfl, [], [], by simp only [List.append_nil]; rfl, .inl rfl, .inl rfl⟩
  · exact ⟨rfl, [], _, by rw [List.append_nil]; rfl, .inl rfl, .inr rfl⟩
  · split
    · rename_i hsync
      refine ⟨rfl, [.fsync false], _, ?_, .inr (.inl rfl), .inr rfl⟩
      rw [hsync]
      rfl
    · rename_i hsync
      rw [Bool.not_eq_false] at hsync
      rw [hsync]
      split
      · exact ⟨rfl, _, [], (List.append_nil _).symm.trans (hread []), .inr (.inr rfl), .inl rfl⟩
      · exact ⟨rfl, _, _, hread _, .inr (.inr rfl), .inr rfl⟩
      · split
        · exact ⟨rfl, _, _, hread _, .inr (.inr rfl), .inr rfl⟩
        · split
          · exact ⟨rfl, _, _, hread _, .inr (.inr rfl), .inr rfl⟩
          · exact ⟨rfl, _, _, hread _, .inr (.inr rfl), .inr rfl⟩

theorem writeVerify_within (errn : Nat) (calls : Outcomes) (bytes : Int → UInt8)
    (h : InRange offBits sector offset) :
    let run := writeVerify offBits offset errn calls bytes
    (∀ p, ¬ Window sector p → run.bytes p = bytes p) ∧
      ∀ t : Transfer, .pwrite t ∈ run.log ∨ .pread t ∈ run.log → t.Within sector := by
  intro run
  obtain ⟨hbytes, hwrites⟩ := writeLoop_within h (Nat.zero_le 4096) calls.pwrites bytes
  have hreads := readLoop_within h [] (Nat.zero_le 4096) calls.preads
  obtain ⟨hsame, middle, ending, hlog, hmiddle, hending⟩ :=
    writeVerify_log offBits offset errn calls bytes
  refine ⟨fun p hp => (congrFun hsame p).trans (hbytes p hp), fun t ht => ?_⟩
  have hsplit : t ∈ (writeLoop offBits offset bytes 0 calls.pwrites).log ∨
      t ∈ (readLoop offBits offset [] calls.preads).log := by
    simp only [run] at ht
    rw [hlog] at ht
    rcases hmiddle with rfl | rfl | rfl <;> rcases hending with rfl | rfl <;>
      · simp at ht
        tauto
  exact hsplit.elim (hwrites t) (hreads t)

/-- A call that returns 0 wrote the request, synced the device and then read the request back. -/
theorem writeVerify_success (h : InRange offBits sector offset)
    (hret : (writeVerify offBits offset errn calls bytes).ret = some 0) :
    WrittenAndVerified sector (writeVerify offBits offset errn calls bytes).log ∧
      ∀ i : Nat, i < 4096 →
        (writeVerify offBits offset errn calls bytes).bytes (512 * sector + i) =
          expectedBcb.getD i 0 := by
  obtain ⟨hwrites, hwritten⟩ := writeLoop_moves h (Nat.zero_le 4096) calls.pwrites bytes
    fun i hi => absurd hi (Nat.not_lt_zero i)
  obtain ⟨hreads, hread⟩ := readLoop_moves h [] (Nat.zero_le 4096) calls.preads
  rw [Nat.cast_zero, add_zero] at hwrites
  rw [List.length_nil, Nat.cast_zero, add_zero] at hreads
  rw [writeVerify] at hret ⊢
  split at hret
  · cases hret
  · cases hret
  rename_i hcomplete
  obtain ⟨hmoved, hbytes⟩ := hwritten hcomplete
  split at hret
  · cases hret
  rename_i hsync
  rw [Bool.not_eq_false] at hsync
  dsimp only at hret ⊢
  split at hret
  · cases hret
  · cases hret
  split at hret
  · cases hret
  rename_i hsame
  split at hret
  · cases hret
  rename_i hclose
  rw [Bool.not_eq_false] at hclose
  simp only [hsync, hclose, if_neg hsame, Bool.true_eq_false, if_false]
  refine ⟨⟨_, _, ?_, hwrites, hmoved, hreads, ?_⟩, hbytes⟩
  · simp only [bcbFailure, List.append_assoc, List.cons_append, List.nil_append]
  · rw [← List.nil_append (List.flatMap _ _), ← hread]
    exact (not_not.mp hsame).symm

theorem writeVerify_returns (hwrites : 4096 ≤ calls.pwrites.countP Pwrite.returned)
    (hreads : 4096 ≤ calls.preads.countP Pread.returned) :
    (writeVerify offBits offset errn calls bytes).ret ≠ none := by
  have hwritten : (writeLoop offBits offset bytes 0 calls.pwrites).progress ≠ .pending :=
    writeLoop_ends calls.pwrites bytes 0 hwrites
  have hread : (readLoop offBits offset [] calls.preads).progress ≠ .pending :=
    readLoop_ends calls.preads [] hreads
  rw [writeVerify]
  split
  · rename_i hpending
    exact absurd hpending hwritten
  · exact Option.some_ne_none _
  · split
    · exact Option.some_ne_none _
    · dsimp only
      split
      · rename_i hpending
        exact absurd hpending hread
      · exact Option.some_ne_none _
      · split
        · exact Option.some_ne_none _
        · split <;> exact Option.some_ne_none _

/-- The calls on the target do not fail, and enough of them are not interrupted. -/
structure Outcomes.Good (calls : Outcomes) (sector : Int) : Prop where
  fsync : calls.fsync = true
  closes : calls.closes = true
  pwrites : ∀ call ∈ calls.pwrites, call.Goes
  preads : ∀ call ∈ calls.preads, call.Goes sector
  writes : 4096 ≤ calls.pwrites.countP Pwrite.returned
  reads : 4096 ≤ calls.preads.countP Pread.returned

theorem writeVerify_succeeds (h : InRange offBits sector offset) (hgood : calls.Good sector) :
    (writeVerify offBits offset errn calls bytes).ret = some 0 := by
  have hwritten : (writeLoop offBits offset bytes 0 calls.pwrites).progress = .complete := by
    cases hprogress : (writeLoop offBits offset bytes 0 calls.pwrites).progress with
    | pending => exact absurd hprogress (writeLoop_ends _ bytes 0 hgood.writes)
    | stopped message => exact absurd hprogress (writeLoop_goes hgood.pwrites bytes 0 message)
    | complete => rfl
  obtain ⟨hgoes, hsame⟩ := readLoop_goes h hgood.preads [] (Nat.zero_le 4096) rfl
  have hread : (readLoop offBits offset [] calls.preads).progress = .complete := by
    cases hprogress : (readLoop offBits offset [] calls.preads).progress with
    | pending => exact absurd hprogress (readLoop_ends _ [] hgood.reads)
    | stopped message => exact absurd hprogress (hgoes message)
    | complete => rfl
  have hequal : ¬ expectedBcb ≠ (readLoop offBits offset [] calls.preads).actual :=
    not_not.mpr (hsame hread).symm
  simp only [writeVerify, hwritten, hread, hgood.fsync, hgood.closes, if_neg hequal, Bool.true_eq_false,
    if_false]

/-- A request that has a place on the target is written there when nothing fails. -/
theorem bcbWriteVerify_succeeds (hdev : dev ≠ none) (hlow : 0 ≤ sector)
    (hhigh : sector ≤ (int64Largest - 4096) / 512) (hfits : 2 * (512 * sector + 4096) < 2 ^ offBits)
    (hopens : calls.opens = true) {extent : Nat} (hextent : targetExtent calls.stat = .ok extent)
    (hroom : 512 * sector + 4096 ≤ extent) (hgood : calls.Good sector) :
    (bcbWriteVerify offBits dev sector errn calls bytes).ret = some 0 := by
  have hguard : ¬ (sector < 0 ∨ (int64Largest - 4096) / 512 < sector) := by omega
  have hmax : (int64Largest - 4096) / 512 = 18014398509481975 := by decide
  have hvalues : uint64Values = 18446744073709551616 := rfl
  have hoffset : sector.toNat * 512 % uint64Values = sector.toNat * 512 := Nat.mod_eq_of_lt (by omega)
  have hlast : (sector.toNat * 512 + 4096) % uint64Values = sector.toNat * 512 + 4096 :=
    Nat.mod_eq_of_lt (by omega)
  have hexact : toOff offBits (sector.toNat * 512 + 4096) = (sector.toNat * 512 + 4096 : Nat) := by
    have hpow : ((2 ^ offBits : Nat) : Int) = 2 ^ offBits := by push_cast; rfl
    rw [toOff, Int.bmod_def, Int.emod_eq_of_lt (by omega) (by omega), if_pos (by omega)]
  have hposition : ¬ (toOff offBits (sector.toNat * 512 + 4096) < 0 ∨
      (toOff offBits (sector.toNat * 512 + 4096) % uint64Values).toNat ≠ sector.toNat * 512 + 4096) := by
    rw [hexact, Int.emod_eq_of_lt (by omega) (by omega)]
    omega
  have hrange := @inRange_of_guards offBits sector hguard
  simp only [hoffset, hlast] at hrange
  rw [bcbWriteVerify, if_neg (not_or.mpr ⟨hdev, hguard⟩)]
  simp only [hoffset, hlast, if_neg hposition, hopens, hextent, Bool.true_eq_false, if_false]
  rw [if_neg (by omega)]
  exact writeVerify_succeeds (hrange hposition) hgood

/-- Whatever the calls return, only the request's own bytes of the device change, and nothing is
written when the request has no place on it; a success means that the whole request was written, the
device then synced and the request then read back from it; and the loops end once enough calls are
not interrupted. -/
theorem bcbWriteVerify_safe (offBits errn : Nat) (dev : Option CStr) (sector : Int)
    (calls : Outcomes) (bytes : Int → UInt8) :
    let run := bcbWriteVerify offBits dev sector errn calls bytes
    (∀ p, ¬ Window sector p → run.bytes p = bytes p) ∧
      (∀ t : Transfer, .pwrite t ∈ run.log ∨ .pread t ∈ run.log → t.Within sector ∧
        0 ≤ t.position ∧ 2 * (t.position + t.length) < 2 ^ offBits) ∧
      (sector < 0 ∨ 2 ^ offBits ≤ 2 * (512 * sector + 4096) ∨ TooSmall calls.stat sector →
        run.bytes = bytes ∧ (∀ t : Transfer, .pwrite t ∉ run.log) ∧ run.ret = some (-1)) ∧
      (run.ret = some 0 → WrittenAndVerified sector run.log ∧
        ∀ i : Nat, i < 4096 → run.bytes (512 * sector + i) = expectedBcb.getD i 0) ∧
      (4096 ≤ calls.pwrites.countP Pwrite.returned → 4096 ≤ calls.preads.countP Pread.returned →
        run.ret ≠ none) := by
  intro run
  rcases bcbWriteVerify_cases offBits errn dev sector calls bytes with
    ⟨message, log, hrun, hlog⟩ | ⟨offset, hrange, hsector, hroom, hrun⟩
  · change run = _ at hrun
    rw [hrun]
    have hnothing (t : Transfer) : .pwrite t ∉ log ∧ .pread t ∉ log := by
      rcases hlog with rfl | rfl <;> simp
    refine ⟨fun _ _ => rfl, ?_, fun _ => ⟨rfl, fun t => (hnothing t).1, rfl⟩, ?_, fun _ _ => ?_⟩
    · rintro t (hwrite | hread)
      · exact absurd hwrite (hnothing t).1
      · exact absurd hread (hnothing t).2
    · intro hret
      cases hret
    · exact Option.some_ne_none _
  · change run = _ at hrun
    rw [hrun]
    obtain ⟨hbytes, hlog⟩ := writeVerify_within errn calls bytes hrange
    have hoffset := hrange.offset_eq
    have hfits : (2 * (offset + 4096) : Int) < 2 ^ offBits := by exact_mod_cast hrange.fits
    refine ⟨hbytes, fun t ht => ?_, ?_, writeVerify_success hrange, writeVerify_returns⟩
    · obtain ⟨done, hdone, hposition, hlength⟩ := hlog t ht
      exact ⟨hlog t ht, by omega, by omega⟩
    · rintro (hneg | hwide | hsmall)
      · omega
      · omega
      · exact absurd hsmall hroom

end Run

/-- Every transfer moves one byte, and an interrupted call comes before the others. -/
def byteByByte : Outcomes where
  opens := true
  stat := .block (some 16777216)
  pwrites := ⟨.interrupted, fun _ => some 0xff⟩ :: List.replicate 4096 ⟨.wrote 1, fun _ => none⟩
  fsync := true
  preads := .interrupted :: List.replicate 4096 (.got 1 fun p => expectedBcb.getD (p - 1536).toNat 0)
  closes := true

theorem byteByByte_good : byteByByte.Good 3 where
  fsync := rfl
  closes := rfl
  pwrites call hmem := by
    rcases List.mem_cons.mp hmem with rfl | hmem
    · exact .inl rfl
    · rw [List.eq_of_mem_replicate hmem]
      exact .inr ⟨0, rfl⟩
  preads call hmem := by
    rcases List.mem_cons.mp hmem with rfl | hmem
    · trivial
    · rw [List.eq_of_mem_replicate hmem]
      refine ⟨Nat.one_pos, fun i hi => congrArg (expectedBcb.getD · 0) ?_⟩
      omega
  writes := by
    rw [byteByByte, List.countP_cons, List.countP_replicate]
    exact Nat.le_add_right _ _
  reads := by
    rw [byteByByte, List.countP_cons, List.countP_replicate]
    exact Nat.le_add_right _ _

/-- An image of ten sectors. -/
def smallImage : Outcomes :=
  ⟨true, .regular 5120, [⟨.wrote 4096, fun _ => none⟩], true, [], true⟩

/-- At its third sector the small image has no room for the request and stays as it is; written a
byte at a time to a device that has room, the request is there, synced and read back. -/
theorem third_sector_requests :
    (bcbWriteVerify 64 (some (cstr "/dev/mmcblk0")) 3 128 smallImage fun _ => 0xa5).bytes =
        (fun _ => 0xa5) ∧
      let run := bcbWriteVerify 64 (some (cstr "/dev/mmcblk0")) 3 128 byteByByte fun _ => 0xa5
      run.ret = some 0 ∧ WrittenAndVerified 3 run.log ∧
        ∀ i : Nat, i < 4096 → run.bytes (512 * 3 + i) = expectedBcb.getD i 0 := by
  have hsmall : TooSmall smallImage.stat 3 := ⟨5120, rfl, by decide⟩
  have hret : (bcbWriteVerify 64 (some (cstr "/dev/mmcblk0")) 3 128 byteByByte fun _ => 0xa5).ret =
      some 0 :=
    bcbWriteVerify_succeeds (by decide) (by decide) (by decide) (by decide) rfl rfl (by decide)
      byteByByte_good
  obtain ⟨_, _, hunchanged, _⟩ :=
    bcbWriteVerify_safe 64 128 (some (cstr "/dev/mmcblk0")) 3 smallImage fun _ => 0xa5
  obtain ⟨_, _, _, hverified, _⟩ :=
    bcbWriteVerify_safe 64 128 (some (cstr "/dev/mmcblk0")) 3 byteByByte fun _ => 0xa5
  exact ⟨(hunchanged (.inr (.inr hsmall))).1, hret, hverified hret⟩

end Taq102.Runtime
