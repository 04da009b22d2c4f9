import Mathlib.Data.List.DropRight
import Taq102.Lib.Blocks
import Taq102.Lib.Outlet
import Taq102.Touch.ContactStream
import Taq102.Touch.Evdev

/-! `touch_input_read_fd` over the bytes of its descriptor. A read may cut a record anywhere and a
call may end after any read; the events handed out are those of one feed of the whole stream. -/
namespace Taq102.Touch.Reading
open Taq102.Lib CFloat Transition Blocks Evdev ContactStream

/-- `struct input_event`. -/
structure InputEvent where
  sec : Int
  usec : Int
  type : Nat
  code : Nat
  value : Int

/-- Little-endian bytes of an unsigned number. -/
def unsigned (bytes : List UInt8) : Nat := bytes.foldr (fun b n => b.toNat + 256 * n) 0

/-- Little-endian bytes in two's complement. -/
def signed (bytes : List UInt8) : Int := Int.bmod (unsigned bytes) (256 ^ bytes.length)

/-- The size of a record where a `long` has `word` bytes. -/
def inputEventSize (word : Nat) : Nat := 2 * word + 8

/-- The fields of a record's bytes. -/
def inputEvent (word : Nat) (record : List UInt8) : InputEvent where
  sec := signed (record.take word)
  usec := signed ((record.drop word).take word)
  type := unsigned ((record.drop (2 * word)).take 2)
  code := unsigned ((record.drop (2 * word + 2)).take 2)
  value := signed ((record.drop (2 * word + 4)).take 4)

/-- The reader with the start of a record, the bytes the kernel still holds, and all events that
the calls have handed out. -/
structure Descriptor (F D : Type) where
  unread : List UInt8
  partialBytes : List UInt8
  reader : Reader F D
  delivered : List (TouchEvent F D)

inductive Action (D : Type) where
  | call (out : Bool) (max : Int) (clock : Option Int)
  /-- `read` returns this many bytes. -/
  | read (count : Nat)
  /-- `read` returns 0. -/
  | ends
  | readFails (errno : Int)
  | answer (device : Device D)
  | refuse (errno : Int)
  /-- `touch_input_feed` without records. -/
  | drain (out : Bool) (max : Int)

variable {F D : Type}

def Descriptor.opened (r : Reader F D) (stream : List UInt8) : Descriptor F D :=
  { unread := stream, partialBytes := [], reader := r, delivered := [] }

/-- The events of a call that has returned some. -/
def handed (r : Reader F D) : List (TouchEvent F D) :=
  match r.pc, r.returned with
  | .idle, .ok events => events
  | _, _ => []

/-- The reader after a read that may have ended its call. -/
def Descriptor.settle (s : Descriptor F D) (r : Reader F D) : Descriptor F D :=
  { s with reader := r, delivered := s.delivered ++ handed r }

/-- The records up to the last SYN_REPORT. -/
def reported (raws : List (TouchRaw D)) : List (TouchRaw D) :=
  raws.rdropWhile fun raw => !raw.isSynReport

section Model
variable [CFloat D]

def InputEvent.raw (event : InputEvent) : TouchRaw D :=
  { type := event.type, code := event.code, value := event.value,
    t := ofInt event.sec + ofInt event.usec * lit 1e-6 }

/-- The records of a byte stream, decoded. -/
def rawRecords (word : Nat) (stream : List UInt8) : List (TouchRaw D) :=
  (blocks (inputEventSize word) stream).map fun record => (inputEvent word record).raw

variable [CFloat F] [CDouble F D]

/-- Everything the decoder has ready after these records. -/
def published (start : TouchInput F D) (raws : List (TouchRaw D)) : List (TouchEvent F D) :=
  (raws.foldl feedOne start).ready

/-- Bytes arrive; those that complete a record have it processed. -/
def Descriptor.receive (word : Nat) (s : Descriptor F D) (bytes : List UInt8) : Descriptor F D :=
  let partialBytes := s.partialBytes ++ bytes
  if partialBytes.length = inputEventSize word then
    { s with
      partialBytes := []
      reader := s.reader.processInputEvent ⟨(inputEvent word partialBytes).raw, 0⟩ }
  else { s with partialBytes }

/-- One call, or one answer of the kernel to the call in progress. A read is given at most the rest
of the record and at most what the kernel holds. -/
def Descriptor.next (word : Nat) (s : Descriptor F D) : Action D → Option (Descriptor F D)
  | .call out max clock =>
    match s.reader.pc with
    | .idle => some { s with reader := s.reader.enter out max clock }
    | _ => none
  | .read count =>
    match s.reader.pc with
    | .reading =>
      if 0 < count ∧ s.partialBytes.length + count ≤ inputEventSize word ∧ count ≤ s.unread.length then
        some { s.receive word (s.unread.take count) with unread := s.unread.drop count }
      else none
    | _ => none
  | .ends =>
    match s.reader.pc with
    | .reading => some (s.settle s.reader.finish)
    | _ => none
  | .readFails errno =>
    match s.reader.pc with
    | .reading => some (s.settle (s.reader.readFailed errno))
    | _ => none
  | .answer device =>
    match s.reader.pc with
    | .resync stage resume => some { s with reader := s.reader.answered device stage resume }
    | _ => none
  | .refuse errno =>
    match s.reader.pc with
    | .resync _ resume => some { s with reader := s.reader.resyncFailed resume errno }
    | _ => none
  | .drain out max =>
    match s.reader.pc with
    | .idle =>
      let drained := touchInputFeed s.reader.input [] out max
      some { s with
        reader := { s.reader with input := drained.2 }
        delivered := s.delivered ++ drained.1.getD [] }
    | _ => none

end Model

/-- The decoder as if the last events handed out still waited. -/
def putBack (ti : TouchInput F D) (events : List (TouchEvent F D)) : TouchInput F D :=
  { ti with ready := events ++ ti.ready }

@[simp] theorem putBack_discarding (ti : TouchInput F D) (events : List (TouchEvent F D)) :
    (putBack ti events).discarding = ti.discarding := rfl

@[simp] theorem putBack_currentSlot (ti : TouchInput F D) (events : List (TouchEvent F D)) :
    (putBack ti events).currentSlot = ti.currentSlot := rfl

@[simp] theorem putBack_slot (ti : TouchInput F D) (events : List (TouchEvent F D)) :
    (putBack ti events).slot = ti.slot := rfl

@[simp] theorem setSlot_putBack (ti : TouchInput F D) (events : List (TouchEvent F D))
    (i : Fin touchMaxSlots) (slot : TouchSlot F D) :
    (putBack ti events).setSlot i slot = putBack (ti.setSlot i slot) events := rfl

@[simp] theorem appendFrameEvent_putBack (ti : TouchInput F D) (events : List (TouchEvent F D))
    (kind : TouchKind) (i : Fin touchMaxSlots) (t : D) :
    appendFrameEvent (putBack ti events) kind i t = putBack (appendFrameEvent ti kind i t) events := rfl

/-- What a drain takes from the queue it hands out. -/
theorem putBack_drainReady (ti : TouchInput F D) (events : List (TouchEvent F D)) (out : Bool)
    (max : Int) : putBack (drainReady ti out max).2 (events ++ (drainReady ti out max).1.getD []) =
      putBack ti events := by
  rw [drainReady]
  split
  · rw [Option.getD_none, List.append_nil]
  · rw [Option.getD_some, putBack, putBack, List.append_assoc, List.take_append_drop]

theorem publishFrame_nil {ti : TouchInput F D} (h : ti.frame = []) : publishFrame ti = ti :=
  if_pos (List.isEmpty_iff.mpr h)

theorem publishFrame_putBack (ti : TouchInput F D) (events : List (TouchEvent F D)) :
    publishFrame (putBack ti events) = putBack (publishFrame ti) events := by
  by_cases h : ti.frame = []
  · have h' : (putBack ti events).frame = [] := h
    rw [publishFrame_nil h, publishFrame_nil h']
  · have h' : (putBack ti events).frame ≠ [] := h
    rw [publishFrame, publishFrame, if_neg (mt List.isEmpty_iff.mp h'),
      if_neg (mt List.isEmpty_iff.mp h), putBack, putBack, List.append_assoc]

section Decoder
variable [CFloat F] [CFloat D]

theorem cancelActiveToFrame_putBack (ti : TouchInput F D) (events : List (TouchEvent F D)) (t : D) :
    cancelActiveToFrame (putBack ti events) t = putBack (cancelActiveToFrame ti t) events := by
  rw [cancelActiveToFrame_eq, cancelActiveToFrame_eq]
  rfl

omit [CFloat D] in
theorem handleTrackingId_putBack (ti : TouchInput F D) (events : List (TouchEvent F D)) (value : Int)
    (t : D) : handleTrackingId (putBack ti events) value t = putBack (handleTrackingId ti value t) events := by
  simp only [handleTrackingId, putBack_currentSlot, putBack_slot, setSlot_putBack]
  cases selectedSlot ti.currentSlot with
  | none => rfl
  | some i =>
    by_cases hlift : value = -1
    · by_cases hact : (ti.slot i).active = true
      · simp [hlift, hact]
      · simp [hlift, hact]
    · by_cases hact : (ti.slot i).active = true
      · by_cases hid : (ti.slot i).trackingId = value
        · simp [hlift, hact, hid]
        · simp [hlift, hact, hid]
      · simp [hlift, hact]

omit [CFloat F] [CFloat D] in
theorem openFrameEvent_putBack (ti : TouchInput F D) (events : List (TouchEvent F D))
    (slot : TouchSlot F D) : openFrameEvent (putBack ti events) slot = openFrameEvent ti slot := rfl

variable [CDouble F D]

theorem filterPosition_putBack (ti : TouchInput F D) (events : List (TouchEvent F D))
    (slot : TouchSlot F D) (code : Nat) (value : Int) (t : D) :
    filterPosition (putBack ti events) slot code value t = filterPosition ti slot code value t := rfl

theorem handlePosition_putBack (ti : TouchInput F D) (events : List (TouchEvent F D)) (code : Nat)
    (value : Int) (t : D) : handlePosition (putBack ti events) code value t =
      putBack (handlePosition ti code value t) events := by
  simp only [handlePosition, putBack_currentSlot, putBack_slot, setSlot_putBack]
  cases selectedSlot ti.currentSlot with
  | none => rfl
  | some i =>
    by_cases hact : (ti.slot i).active = true
    · simp only [setSlot_self, hact, Bool.not_true, Bool.false_eq_true, if_false,
        filterPosition_putBack, openFrameEvent_putBack]
      split <;> rfl
    · simp [hact]

/-- What waits to be handed out has no part in what a record does. -/
theorem feedOne_putBack (ti : TouchInput F D) (events : List (TouchEvent F D)) (raw : TouchRaw D) :
    feedOne (putBack ti events) raw = putBack (feedOne ti raw) events := by
  have hresume : publishFrame { putBack ti events with discarding := false } =
      putBack (publishFrame { ti with discarding := false }) events :=
    publishFrame_putBack { ti with discarding := false } events
  simp only [feedOne, cancelActiveToFrame_putBack, hresume, publishFrame_putBack, putBack_discarding,
    handleTrackingId_putBack, handlePosition_putBack, apply_ite fun u => putBack u events]
  rfl

/-- Nothing becomes visible before SYN_REPORT. -/
theorem feedOne_ready {ti : TouchInput F D} {raw : TouchRaw D} (h : raw.isSynReport = false) :
    (feedOne ti raw).ready = ti.ready := by
  apply feedOne_cases (P := fun ti' => ti'.ready = ti.ready)
  case drop =>
    intro _
    rw [cancelActiveToFrame_eq]
  case report =>
    intro _ hreport
    rw [h] at hreport
    cases hreport
  case skip => exact fun _ _ _ => rfl
  case other => exact fun _ _ _ _ => rfl
  case select => exact fun _ _ _ => rfl
  case track => exact fun _ _ _ => (handleTrackingId_frameStep ti _ _).unpublished.ready
  case place => exact fun _ _ _ => (handlePosition_frameStep ti _ _ _).unpublished.ready

/-- Without SYN_DROPPED no packet is discarded. -/
theorem feedOne_discarding {ti : TouchInput F D} {raw : TouchRaw D} (hd : ti.discarding = false)
    (h : raw.isSynDropped = false) : (feedOne ti raw).discarding = false := by
  apply feedOne_cases (P := fun ti' => ti'.discarding = false)
  case drop =>
    intro hdrop
    rw [h] at hdrop
    cases hdrop
  case report =>
    intro _ _
    rw [publishFrame]
    split <;> rfl
  case skip => exact fun _ _ _ => hd
  case other => exact fun _ _ _ _ => hd
  case select => exact fun _ _ _ => hd
  case track => exact fun _ _ _ => (handleTrackingId_frameStep ti _ _).unpublished.discarding.trans hd
  case place => exact fun _ _ _ => (handlePosition_frameStep ti _ _ _).unpublished.discarding.trans hd

theorem foldl_discarding {ti : TouchInput F D} {raws : List (TouchRaw D)}
    (hd : ti.discarding = false) (h : ∀ raw ∈ raws, raw.isSynDropped = false) :
    (raws.foldl feedOne ti).discarding = false := by
  induction raws generalizing ti with
  | nil => exact hd
  | cons raw rest ih =>
    have hfirst : (feedOne ti raw).discarding = false := feedOne_discarding hd (h raw List.mem_cons_self)
    exact ih hfirst fun raw' hmem => h raw' (List.mem_cons_of_mem _ hmem)

/-- The records of a packet that is not complete publish nothing. -/
theorem ready_reported (ti : TouchInput F D) (raws : List (TouchRaw D)) :
    (raws.foldl feedOne ti).ready = ((reported raws).foldl feedOne ti).ready := by
  induction raws using List.reverseRecOn with
  | nil => rfl
  | append_singleton raws raw ih =>
    cases h : raw.isSynReport with
    | true => rw [reported, List.rdropWhile_concat_neg _ _ _ (by rw [h]; decide)]
    | false =>
      rw [reported, List.rdropWhile_concat_pos _ _ _ (by rw [h]; rfl), ← reported, List.foldl_append]
      exact (feedOne_ready h).trans ih

end Decoder

section Run
variable [CFloat F] [CFloat D] [CDouble F D]

/-- Between two calls, following the stream from a record's start with no snapshot owed. -/
structure AtRest (r : Reader F D) : Prop where
  idle : r.pc = .idle
  synced : r.resyncNeeded = false
  following : r.input.discarding = false

/-- After these bytes: a record not yet complete, a packet not yet reported and events not yet
handed out are all that the descriptor holds back. -/
structure Reads (word : Nat) (start : TouchInput F D) (read : List UInt8) (s : Descriptor F D) :
    Prop where
  partialBytes : s.partialBytes = remainder (inputEventSize word) read
  fed : putBack s.reader.input s.delivered = (rawRecords word read).foldl feedOne start
  synced : s.reader.resyncNeeded = false
  running : s.reader.pc = .idle ∨ s.reader.pc = .reading

omit [CFloat F] [CDouble F D] in
theorem rawRecords_nil (word : Nat) : rawRecords word [] = ([] : List (TouchRaw D)) := by
  rw [rawRecords, blocks_nil, List.map_nil]

theorem opened_reads (word : Nat) {r : Reader F D} (hr : AtRest r) (stream : List UInt8) :
    Reads word r.input [] (Descriptor.opened r stream) where
  partialBytes := remainder_nil.symm
  fed := by rw [rawRecords_nil]; rfl
  synced := hr.synced
  running := .inl hr.idle

omit [CFloat F] [CFloat D] [CDouble F D] in
/-- Entering a call reads nothing. -/
theorem enter_keeps {r : Reader F D} (hsynced : r.resyncNeeded = false) (out : Bool) (max : Int)
    (clock : Option Int) : (r.enter out max clock).input = r.input ∧
      (r.enter out max clock).resyncNeeded = false ∧
      ((r.enter out max clock).pc = .idle ∨ (r.enter out max clock).pc = .reading) := by
  rw [Reader.enter]
  split
  · exact ⟨rfl, hsynced, .inl rfl⟩
  · rw [hsynced]
    exact ⟨rfl, rfl, .inr rfl⟩

omit [CFloat F] [CFloat D] [CDouble F D] in
/-- The end of a call: what it hands out was the beginning of the queue. -/
theorem finish_keeps {r : Reader F D} (hsynced : r.resyncNeeded = false)
    (events : List (TouchEvent F D)) :
    putBack r.finish.input (events ++ handed r.finish) = putBack r.input events ∧
      r.finish.resyncNeeded = false ∧ r.finish.pc = .idle := by
  have hback := putBack_drainReady r.input events r.out r.max
  rw [Reader.finish]
  rcases hdrain : drainReady r.input r.out r.max with ⟨drained, ti⟩
  rw [hdrain] at hback
  cases drained with
  | none => exact ⟨hback, hsynced, rfl⟩
  | some given =>
    simp only [hsynced, Bool.not_false, Bool.or_true, if_true]
    exact ⟨hback, rfl, rfl⟩

theorem finish_reads {word : Nat} {start : TouchInput F D} {read : List UInt8} {s : Descriptor F D}
    (h : Reads word start read s) : Reads word start read (s.settle s.reader.finish) := by
  obtain ⟨hback, hsynced, hidle⟩ := finish_keeps h.synced s.delivered
  exact ⟨h.partialBytes, hback.trans h.fed, hsynced, .inl hidle⟩

theorem readFailed_reads {word : Nat} {start : TouchInput F D} {read : List UInt8}
    {s : Descriptor F D} (h : Reads word start read s) (hreading : s.reader.pc = .reading)
    (errno : Int) : Reads word start read (s.settle (s.reader.readFailed errno)) := by
  rw [Reader.readFailed]
  split
  · exact finish_reads h
  · have hnone : handed s.reader = [] := by rw [handed, hreading]
    split
    · refine ⟨h.partialBytes, ?_, h.synced, h.running⟩
      rw [Descriptor.settle, hnone, List.append_nil]
      exact h.fed
    · refine ⟨h.partialBytes, ?_, h.synced, .inl rfl⟩
      have hfailed : handed (s.reader.return (.error errno)) = [] := rfl
      rw [Descriptor.settle, hfailed, List.append_nil]
      exact h.fed

theorem drain_reads {word : Nat} {start : TouchInput F D} {read : List UInt8} {s t : Descriptor F D}
    {out : Bool} {max : Int} (h : Reads word start read s)
    (hnext : s.next word (.drain out max) = some t) : Reads word start read t := by
  have hback := putBack_drainReady s.reader.input s.delivered out max
  rw [Descriptor.next] at hnext
  split at hnext
  · cases hnext
    exact ⟨h.partialBytes, hback.trans h.fed, h.synced, h.running⟩
  · cases hnext

/-- A record that arrives is fed at once. -/
theorem processInputEvent_eq {r : Reader F D} (hsynced : r.resyncNeeded = false)
    (hd : r.input.discarding = false) (event : Queued D) : r.processInputEvent event =
      { r with input := feedOne r.input event.raw, pc := .reading } := by
  simp only [Reader.processInputEvent, Reader.feedRecord, hsynced, hd, Bool.false_and,
    Bool.false_eq_true, if_false]

theorem receive_reads {word : Nat} {start : TouchInput F D} {read piece : List UInt8}
    {s : Descriptor F D} (h : Reads word start read s) (hd : s.reader.input.discarding = false)
    (hroom : s.partialBytes.length + piece.length ≤ inputEventSize word) :
    Reads word start (read ++ piece) (s.receive word piece) := by
  have hpos : 0 < inputEventSize word := Nat.succ_pos _
  rw [h.partialBytes] at hroom
  rw [Descriptor.receive, h.partialBytes, List.length_append]
  split
  · rename_i hfull
    refine ⟨(remainder_append_of_eq hpos hfull).symm, ?_, ?_, ?_⟩
    · rw [processInputEvent_eq h.synced hd, rawRecords, blocks_append_of_eq hpos hfull, List.map_append,
        List.foldl_append, ← rawRecords, ← h.fed]
      exact (feedOne_putBack s.reader.input s.delivered _).symm
    · rw [processInputEvent_eq h.synced hd]
      exact h.synced
    · rw [processInputEvent_eq h.synced hd]
      exact .inr rfl
  · have hpart : (remainder (inputEventSize word) read).length + piece.length < inputEventSize word := by
      omega
    refine ⟨(remainder_append_of_lt hpart).symm, ?_, h.synced, h.running⟩
    rw [rawRecords, blocks_append_of_lt hpart]
    exact h.fed

/-- A stream without SYN_DROPPED is never discarded. -/
theorem Reads.discarding {word : Nat} {start : TouchInput F D} {read rest : List UInt8}
    {s : Descriptor F D} (h : Reads word start read s) (hstart : start.discarding = false)
    (hclean : ∀ raw ∈ (rawRecords word (read ++ rest) : List (TouchRaw D)), raw.isSynDropped = false) :
    s.reader.input.discarding = false := by
  have hbegin : (rawRecords word read : List (TouchRaw D)) <+: rawRecords word (read ++ rest) :=
    (blocks_begin _ _ _).map _
  have hfed : (putBack s.reader.input s.delivered).discarding = false := by
    rw [h.fed]
    exact foldl_discarding hstart fun raw hmem => hclean raw (hbegin.subset hmem)
  exact hfed

/-- No snapshot is asked for. -/
theorem Reads.not_resync {word : Nat} {start : TouchInput F D}
    {read : List UInt8} {s : Descriptor F D} (h : Reads word start read s) (stage : Stage)
    (resume : Resume D) : s.reader.pc ≠ .resync stage resume := by
  intro hpc
  rcases h.running with hidle | hreading
  · cases hidle.symm.trans hpc
  · cases hreading.symm.trans hpc

theorem call_reads {word : Nat} {start : TouchInput F D} {read : List UInt8} {s : Descriptor F D}
    (h : Reads word start read s) (out : Bool) (max : Int) (clock : Option Int) :
    Reads word start read { s with reader := s.reader.enter out max clock } := by
  obtain ⟨hinput, hsynced, hpc⟩ := enter_keeps h.synced out max clock
  refine ⟨h.partialBytes, ?_, hsynced, hpc⟩
  dsimp only
  rw [hinput]
  exact h.fed

/-- Reading `count` bytes. -/
theorem read_reads {word : Nat} {start : TouchInput F D} {read : List UInt8} {s : Descriptor F D}
    {count : Nat} (h : Reads word start read s) (hd : s.reader.input.discarding = false)
    (hroom : s.partialBytes.length + count ≤ inputEventSize word) (hcount : count ≤ s.unread.length) :
    Reads word start (read ++ s.unread.take count)
      { s.receive word (s.unread.take count) with unread := s.unread.drop count } := by
  have hlength : (s.unread.take count).length = count := List.length_take_of_le hcount
  rw [← hlength] at hroom
  have hreads := receive_reads h hd hroom
  exact ⟨hreads.partialBytes, hreads.fed, hreads.synced, hreads.running⟩

/-- The step lemma: bytes move from the kernel to the reader, and nothing else does. -/
theorem next_reads {word : Nat} {start : TouchInput F D} {stream read : List UInt8}
    {s t : Descriptor F D} {action : Action D} (hstart : start.discarding = false)
    (hclean : ∀ raw ∈ (rawRecords word stream : List (TouchRaw D)), raw.isSynDropped = false)
    (hstream : stream = read ++ s.unread) (h : Reads word start read s)
    (hnext : s.next word action = some t) :
    ∃ read', stream = read' ++ t.unread ∧ Reads word start read' t := by
  cases action with
  | call out max clock =>
    simp only [Descriptor.next] at hnext
    split at hnext
    · cases hnext
      exact ⟨read, hstream, call_reads h out max clock⟩
    · cases hnext
  | read count =>
    simp only [Descriptor.next] at hnext
    split at hnext
    · split at hnext
      · rename_i hcount
        cases hnext
        have hd : s.reader.input.discarding = false := h.discarding hstart (hstream ▸ hclean)
        refine ⟨read ++ s.unread.take count, ?_, read_reads h hd hcount.2.1 hcount.2.2⟩
        rw [List.append_assoc, List.take_append_drop, hstream]
      · cases hnext
    · cases hnext
  | ends =>
    simp only [Descriptor.next] at hnext
    split at hnext
    · cases hnext
      exact ⟨read, hstream, finish_reads h⟩
    · cases hnext
  | readFails errno =>
    simp only [Descriptor.next] at hnext
    split at hnext
    · rename_i hreading
      cases hnext
      exact ⟨read, hstream, readFailed_reads h hreading errno⟩
    · cases hnext
  | answer device =>
    rw [Descriptor.next] at hnext
    split at hnext
    · exact absurd ‹_› (h.not_resync _ _)
    · cases hnext
  | refuse errno =>
    rw [Descriptor.next] at hnext
    split at hnext
    · exact absurd ‹_› (h.not_resync _ _)
    · cases hnext
  | drain out max =>
    refine ⟨read, ?_, drain_reads h hnext⟩
    simp only [Descriptor.next] at hnext
    split at hnext
    · cases hnext
      exact hstream
    · cases hnext

/-- A call with room for `n` events that finds nothing to read. -/
def drainCall (n : Nat) : List (Action D) := [.call true n none, .readFails eagain]

def Descriptor.outlet (s : Descriptor F D) : Outlet (TouchEvent F D) := ⟨s.delivered, s.reader.input.ready⟩

omit [CFloat F] [CFloat D] [CDouble F D] in
theorem enter_unclocked {r : Reader F D} (hsynced : r.resyncNeeded = false) (max : Int) :
    r.enter true max none = { r with bound := true, out := true, max := max, pc := .reading } := by
  rw [Reader.enter, ite_self, hsynced]
  rfl

omit [CFloat F] [CFloat D] [CDouble F D] in
theorem drainReady_draw (ti : TouchInput F D) (n : Nat) :
    drainReady ti true n = (some (ti.ready.take n), { ti with ready := ti.ready.drop n }) := by
  have hvalid : ¬ ((n : Int) < 0 ∨ (0 < (n : Int) ∧ true = false)) := by
    rintro (hneg | ⟨_, hfalse⟩)
    · omega
    · cases hfalse
  rw [drainReady, if_neg hvalid, Int.toNat_natCast]

theorem drainCall_run (word : Nat) {s : Descriptor F D} (hidle : s.reader.pc = .idle)
    (hsynced : s.reader.resyncNeeded = false) (n : Nat) :
    ∃ t, Run (Enabled (Descriptor.next word)) s (drainCall n) t ∧ t.outlet = s.outlet.draw n ∧
      t.reader.pc = .idle ∧ t.reader.resyncNeeded = false := by
  let r : Reader F D := { s.reader with bound := true, out := true, max := n, pc := .reading }
  have hcall : s.next word (.call true n none) = some { s with reader := r } := by
    rw [Descriptor.next, hidle]
    dsimp only
    rw [enter_unclocked hsynced]
  have hfinish : r.finish = { r with input := { r.input with ready := r.input.ready.drop n } }.return
      (.ok (r.input.ready.take n)) := by
    rw [Reader.finish]
    dsimp only [r]
    rw [drainReady_draw, hsynced]
    simp only [Bool.not_false, Bool.or_true, if_true]
  have hends : Descriptor.next word { s with reader := r } (.readFails eagain) =
      some ({ s with reader := r }.settle r.finish) := rfl
  refine ⟨_, (Run.single hcall).snoc hends, ?_, ?_, ?_⟩
  · rw [hfinish]
    rfl
  · rw [hfinish]
    rfl
  · rw [hfinish]
    exact hsynced

theorem drainCalls_run (word : Nat) {s : Descriptor F D} (hidle : s.reader.pc = .idle)
    (hsynced : s.reader.resyncNeeded = false) (portions : List Nat) :
    ∃ t, Run (Enabled (Descriptor.next word)) s (portions.flatMap drainCall) t ∧
      t.outlet = portions.foldl Outlet.draw s.outlet := by
  induction portions generalizing s with
  | nil => exact ⟨s, .nil, rfl⟩
  | cons n rest ih =>
    obtain ⟨mid, hfirst, hdraw, hidle', hsynced'⟩ := drainCall_run word hidle hsynced n
    obtain ⟨t, hrest, hdraws⟩ := ih hidle' hsynced'
    refine ⟨t, hfirst.trans hrest, ?_⟩
    rw [hdraws, hdraw, List.foldl_cons]

/-- A feed with enough room hands out all that is published. -/
theorem touchInputFeed_all (start : TouchInput F D) (raws : List (TouchRaw D)) {max : Int}
    (hmax : ((published start raws).length : Int) ≤ max) :
    (touchInputFeed start raws true max).1 = some (published start raws) := by
  obtain ⟨n, rfl⟩ := Int.eq_ofNat_of_zero_le (Int.le_trans (Int.natCast_nonneg _) hmax)
  rw [touchInputFeed, drainReady_draw]
  exact congrArg some (List.take_of_length_le (Int.ofNat_le.mp hmax))

/-- However a stream without SYN_DROPPED is cut into reads and calls, the events handed out and those
waiting are at every moment what the reported packets publish. Once the stream is read, whatever
calls drain the queue complete the events that one feed of all its records hands out. -/
theorem reads_feed_stream (word : Nat) (r : Reader F D) (hr : AtRest r) (stream : List UInt8)
    (hclean : ∀ raw ∈ (rawRecords word stream : List (TouchRaw D)), raw.isSynDropped = false)
    (actions : List (Action D)) (s : Descriptor F D)
    (hrun : Run (Enabled (Descriptor.next word)) (Descriptor.opened r stream) actions s) :
    (∃ read, stream = read ++ s.unread ∧ s.delivered ++ s.reader.input.ready =
      published r.input (reported (rawRecords word read))) ∧
    (s.unread = [] → s.reader.input.ready = [] → ∀ max : Int, (s.delivered.length : Int) ≤ max →
      (touchInputFeed r.input (rawRecords word stream) true max).1 = some s.delivered) ∧
    (s.unread = [] → s.reader.pc = .idle →
      ∀ portions : List Nat, s.reader.input.ready.length ≤ portions.sum →
        ∃ t, Run (Enabled (Descriptor.next word)) s (portions.flatMap drainCall) t ∧
          ∀ max : Int, (t.delivered.length : Int) ≤ max →
            (touchInputFeed r.input (rawRecords word stream) true max).1 = some t.delivered) := by
  obtain ⟨read, hstream, hreads⟩ := hrun.invariant
    (fun s => ∃ read, stream = read ++ s.unread ∧ Reads word r.input read s)
    ⟨[], rfl, opened_reads word hr stream⟩
    (fun _ _ _ ⟨read, hstream, hreads⟩ hnext => next_reads hr.following hclean hstream hreads hnext)
  have htotal : s.outlet.total = published r.input (rawRecords word read) :=
    congrArg TouchInput.ready hreads.fed
  have hall (hunread : s.unread = []) (events : List (TouchEvent F D)) (hevents : events = s.outlet.total)
      (max : Int) (hmax : (events.length : Int) ≤ max) :
      (touchInputFeed r.input (rawRecords word stream) true max).1 = some events := by
    rw [hunread, List.append_nil] at hstream
    rw [htotal, ← hstream] at hevents
    rw [hevents] at hmax ⊢
    exact touchInputFeed_all r.input _ hmax
  refine ⟨⟨read, hstream, ?_⟩, ?_, ?_⟩
  · rw [published, ← ready_reported]
    exact htotal
  · intro hunread hempty
    exact hall hunread s.delivered (Outlet.given_of_waiting (o := s.outlet) hempty)
  · intro hunread hidle portions hsum
    obtain ⟨t, hdrains, hdraws⟩ := drainCalls_run word hidle hreads.synced portions
    refine ⟨t, hdrains, hall hunread t.delivered ?_⟩
    rw [← Outlet.given_draws (o := s.outlet) hsum, ← hdraws]
    rfl

end Run

/-- A contact lands and lifts: id 7, X 20, a report, id -1 and a report. -/
def tapStream : List UInt8 :=
  [1, 0, 0, 0, 144, 208, 3, 0, 3, 0, 0x39, 0, 7, 0, 0, 0,
    1, 0, 0, 0, 144, 208, 3, 0, 3, 0, 0x35, 0, 20, 0, 0, 0,
    1, 0, 0, 0, 144, 208, 3, 0, 0, 0, 0, 0, 0, 0, 0, 0,
    2, 0, 0, 0, 0, 0, 0, 0, 3, 0, 0x39, 0, 255, 255, 255, 255,
    2, 0, 0, 0, 0, 0, 0, 0, 0, 0, 0, 0, 0, 0, 0, 0]

/-- Records cut in the middle, a signal, an empty queue inside a record and calls without room. -/
def tapReads : List (Action ℚ) :=
  [.call true 0 none, .read 5, .readFails eintr, .read 11, .read 16, .readFails eagain,
    .call true 0 none, .read 13, .readFails eagain, .call true 0 none, .read 3, .ends,
    .call true 1 none, .read 16, .read 1, .readFails eagain, .call true 1 none, .read 15,
    .readFails eagain]

theorem tap_reads_feed : ∃ s : Descriptor ℚ ℚ,
    tapReads.foldlM (Descriptor.next 4) (Descriptor.opened (Reader.start plainFlip) tapStream) = some s ∧
      s.delivered.length = 2 ∧
      (touchInputFeed (touchInputNew plainFlip) (rawRecords 4 tapStream) true 2).1 = some s.delivered := by
  have hend : (tapReads.foldlM (Descriptor.next 4)
      (Descriptor.opened (Reader.start plainFlip) tapStream : Descriptor ℚ ℚ)).any (fun s =>
        s.unread.isEmpty && s.reader.input.ready.isEmpty && s.delivered.length == 2) = true := by
    decide +kernel
  obtain ⟨s, hsteps, hs⟩ := (Option.any_eq_true _ _).mp hend
  simp only [Bool.and_eq_true, List.isEmpty_iff, beq_iff_eq] at hs
  have hclean : ∀ raw ∈ (rawRecords 4 tapStream : List (TouchRaw ℚ)), raw.isSynDropped = false := by
    decide +kernel
  obtain ⟨_, hdrained, _⟩ := reads_feed_stream 4 (Reader.start plainFlip) ⟨rfl, rfl, rfl⟩ tapStream
    hclean tapReads s (run_foldlM _ hsteps)
  exact ⟨s, hsteps, hs.2, hdrained hs.1.1 hs.1.2 2 (by rw [hs.2]; decide)⟩

end Taq102.Touch.Reading
