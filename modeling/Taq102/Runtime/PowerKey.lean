import Taq102.Lib.Blocks
import Taq102.Lib.PyBytes
import Taq102.Lib.Transition

/-! The power key (`power_key.c`): records of an input device, collected from reads that may cut them
anywhere. -/
namespace Taq102.Runtime
open Taq102.Lib Blocks PyBytes Transition

/-- The bytes of a record that is not complete yet. -/
structure PowerKey where
  bytes : List UInt8
  deriving DecidableEq, Repr

/-- An answer of the kernel to `read`, before the one that ends the call. -/
inductive KeyRead where
  | bytes (got : List UInt8)
  | interrupted
  deriving DecidableEq, Repr

/-- `EV_KEY`, `KEY_POWER` and a value of 1. -/
def isPress (record : List UInt8) : Bool :=
  natLittle (slice record 8 10) = 1 && natLittle (slice record 10 12) = 116 &&
    natLittle (slice record 12 16) = 1

/-- The reads of one call; `none` is an answer the kernel does not give. -/
def powerKeyReads : PowerKey → List KeyRead → Option (Bool × PowerKey)
  | key, [] => some (false, key)
  | key, .interrupted :: rest => powerKeyReads key rest
  | key, .bytes got :: rest =>
    let bytes := key.bytes ++ got
    if got = [] ∨ 16 < bytes.length then none
    else if bytes.length = 16 then
      (powerKeyReads ⟨[]⟩ rest).map fun r => (isPress bytes || r.1, r.2)
    else powerKeyReads ⟨bytes⟩ rest

/-- Whether a press was read. -/
def powerKeyRead (key : PowerKey) (hasFd : Bool) (reads : List KeyRead) : Option (Bool × PowerKey) :=
  if hasFd then powerKeyReads key reads else if reads = [] then some (false, key) else none

/-- The bytes of the reads. -/
def readBytes (reads : List KeyRead) : List UInt8 :=
  reads.flatMap fun
    | .bytes got => got
    | .interrupted => []

/-- The presses among the records that `later` completes. -/
def pressedIn (before later : List UInt8) : Bool :=
  ((blocks 16 (before ++ later)).drop (blocks 16 before).length).any isPress

theorem pressedIn_nil (before : List UInt8) : pressedIn before [] = false := by
  rw [pressedIn, List.append_nil, List.drop_length]
  rfl

/-- Records that later bytes complete are completed by the first or by the rest of them. -/
theorem pressedIn_append (before first rest : List UInt8) :
    pressedIn before (first ++ rest) = (pressedIn before first || pressedIn (before ++ first) rest) := by
  obtain ⟨more, hmore⟩ := blocks_begin 16 before first
  obtain ⟨last, hlast⟩ := blocks_begin 16 (before ++ first) rest
  rw [pressedIn, pressedIn, pressedIn, ← List.append_assoc, ← hlast, ← hmore]
  rw [List.append_assoc, List.drop_left, List.drop_left, ← List.append_assoc, List.drop_left]
  exact List.any_append

/-- One call: the key keeps what is left of the stream, and reports the presses completed. -/
theorem powerKeyReads_spec {key key' : PowerKey} {reads : List KeyRead} {pressed : Bool}
    {before : List UInt8} (hkey : key.bytes = remainder 16 before)
    (h : powerKeyReads key reads = some (pressed, key')) :
    pressed = pressedIn before (readBytes reads) ∧ key'.bytes = remainder 16 (before ++ readBytes reads) := by
  induction reads generalizing key before pressed with
  | nil =>
    cases h
    exact ⟨(pressedIn_nil before).symm, by rw [hkey]; exact congrArg _ (List.append_nil _).symm⟩
  | cons read rest ih =>
    cases read with
    | interrupted => exact ih hkey h
    | bytes got =>
      have hbytes : readBytes (.bytes got :: rest) = got ++ readBytes rest := rfl
      simp only [powerKeyReads] at h
      rw [hbytes, pressedIn_append, ← List.append_assoc]
      split at h
      · cases h
      rename_i hroom
      rw [not_or, Nat.not_lt] at hroom
      have hlength : (remainder 16 before).length + got.length ≤ 16 := by
        rw [← hkey, ← List.length_append]
        exact hroom.2
      split at h
      · rename_i hfull
        rw [hkey, List.length_append] at hfull
        obtain ⟨⟨again, key''⟩, hrest, heq⟩ := Option.map_eq_some_iff.mp h
        cases heq
        have hempty : remainder 16 (before ++ got) = [] := remainder_append_of_eq (by decide) hfull
        obtain ⟨hagain, hleft⟩ := ih hempty.symm hrest
        have hclosed : pressedIn before got = isPress (key.bytes ++ got) := by
          rw [pressedIn, blocks_append_of_eq (by decide) hfull, List.drop_left, hkey]
          exact Bool.or_false _
        exact ⟨by rw [hagain, hclosed], hleft⟩
      · rename_i hshort
        rw [hkey, List.length_append] at hshort
        have hlt : (remainder 16 before).length + got.length < 16 := Nat.lt_of_le_of_ne hlength hshort
        have hkept : key.bytes ++ got = remainder 16 (before ++ got) := by
          rw [remainder_append_of_lt hlt, hkey]
        have hnone : pressedIn before got = false := by
          rw [pressedIn, blocks_append_of_lt hlt, List.drop_length]
          rfl
        rw [hnone, Bool.false_or]
        exact ih hkept h

/-- The key after a call. -/
def PowerKey.next (key : PowerKey) (reads : List KeyRead) : Option PowerKey :=
  (powerKeyReads key reads).map Prod.snd

theorem run_remainder {calls : List (List KeyRead)} {key : PowerKey}
    (h : Run (Enabled PowerKey.next) ⟨[]⟩ calls key) :
    key.bytes = remainder 16 (calls.flatMap readBytes) := by
  induction h with
  | nil => exact remainder_nil.symm
  | @snoc calls t u reads _ hstep ih =>
    obtain ⟨⟨pressed, key'⟩, hcall, rfl⟩ := Option.map_eq_some_iff.mp hstep
    rw [List.flatMap_append, List.flatMap_singleton]
    exact (powerKeyReads_spec ih hcall).2

theorem pressedIn_iff (before later : List UInt8) : pressedIn before later = true ↔
    ∃ k, before.length < 16 * (k + 1) ∧ 16 * (k + 1) ≤ (before ++ later).length ∧
      isPress (((before ++ later).drop (16 * k)).take 16) = true := by
  rw [pressedIn, List.any_eq_true]
  have hcount (xs : List UInt8) : (blocks 16 xs).length = xs.length / 16 := by
    rw [blocks, List.length_map, List.length_range]
  have hblock {k : Nat} (hk : k < (before ++ later).length / 16) :
      (blocks 16 (before ++ later))[k]? = some (((before ++ later).drop (16 * k)).take 16) := by
    rw [blocks, List.getElem?_map, List.getElem?_range hk]
    rfl
  constructor
  · rintro ⟨record, hmem, hpress⟩
    obtain ⟨i, hi⟩ := List.mem_iff_getElem?.mp hmem
    rw [List.getElem?_drop, hcount] at hi
    obtain ⟨hlt, _⟩ := List.getElem?_eq_some_iff.mp hi
    rw [hcount] at hlt
    rw [hblock hlt] at hi
    refine ⟨before.length / 16 + i, ?_, ?_, ?_⟩
    · omega
    · omega
    · rw [Option.some.inj hi]
      exact hpress
  · rintro ⟨k, hafter, hwithin, hpress⟩
    refine ⟨_, List.mem_iff_getElem?.mpr ⟨k - before.length / 16, ?_⟩, hpress⟩
    rw [List.getElem?_drop, hcount, show before.length / 16 + (k - before.length / 16) = k from by omega]
    exact hblock (by omega)

/-- Over any calls, however the device's records are cut into reads and the reads into calls, a call
reports a press exactly when it reads the last byte of one: none is lost, and none is seen twice. -/
theorem press_reported_once {calls : List (List KeyRead)} {reads : List KeyRead} {key key' : PowerKey}
    {pressed : Bool} (hrun : Run (Enabled PowerKey.next) ⟨[]⟩ calls key)
    (hcall : powerKeyRead key true reads = some (pressed, key')) :
    (pressed = true ↔ ∃ k, (calls.flatMap readBytes).length < 16 * (k + 1) ∧
      16 * (k + 1) ≤ (calls.flatMap readBytes ++ readBytes reads).length ∧
      isPress (((calls.flatMap readBytes ++ readBytes reads).drop (16 * k)).take 16) = true) := by
  rw [powerKeyRead, if_pos rfl] at hcall
  rw [(powerKeyReads_spec (run_remainder hrun) hcall).1]
  exact pressedIn_iff _ _

/-- A press of the key, without its time. -/
def pressRecord : List UInt8 := [0, 0, 0, 0, 0, 0, 0, 0, 1, 0, 116, 0, 1, 0, 0, 0]

theorem cut_press_reported : ∃ key key' : PowerKey,
    powerKeyRead key true [.interrupted, .bytes (pressRecord.drop 5)] = some (true, key') ∧
    ∃ k, 5 < 16 * (k + 1) ∧ 16 * (k + 1) ≤ 16 ∧
      isPress ((pressRecord.drop (16 * k)).take 16) = true := by
  have hrun : Run (Enabled PowerKey.next) ⟨[]⟩ [[.bytes (pressRecord.take 5)]] ⟨pressRecord.take 5⟩ :=
    .single rfl
  have hcall : powerKeyRead ⟨pressRecord.take 5⟩ true [.interrupted, .bytes (pressRecord.drop 5)] =
      some (true, ⟨[]⟩) := by decide
  exact ⟨_, _, hcall, (press_reported_once hrun hcall).mp rfl⟩

end Taq102.Runtime
