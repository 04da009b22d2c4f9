import Mathlib.Data.List.Basic
import Mathlib.Tactic.Ring
import Taq102.Lib.CString
import Taq102.Lib.PyBytes

/-! The resource image of the boot loader (`make-resource.py`): the reader and the writer. -/
namespace Taq102.Tools
open Taq102.Lib PyBytes

/-- `str.encode`. -/
def encode (name : List Char) : List UInt8 := name.flatMap String.utf8EncodeChar

/-- `bytes.decode`, none where the bytes are no UTF-8. -/
def decode (bytes : List UInt8) : Option (List Char) :=
  bytes.toByteArray.utf8Decode?.map Array.toList

structure ResourceEntry where
  name : List Char
  payload : List UInt8
  deriving DecidableEq, Repr

inductive ResourceError where
  | notImage
  | notEntry (i : Nat)
  | notUtf8
  deriving DecidableEq, Repr

/-- What the reader exits with, or the exception it leaves to Python. -/
def ResourceError.message : ResourceError → String
  | .notImage => "not a resource image"
  | .notEntry i => "entry " ++ toString i ++ " is not an ENTR block"
  | .notUtf8 => "UnicodeDecodeError"

def rsce : List UInt8 := [82, 83, 67, 69]

def entr : List UInt8 := [69, 78, 84, 82]

def indexAt (blob : List UInt8) (i : Nat) : List UInt8 := slice blob (512 * (1 + i)) (512 * (2 + i))

def startAt (blob : List UInt8) (i : Nat) : Nat := natLittle (slice (indexAt blob i) 260 264)

def sizeAt (blob : List UInt8) (i : Nat) : Nat := natLittle (slice (indexAt blob i) 264 268)

def readEntry (blob : List UInt8) (i : Nat) : Except ResourceError ResourceEntry :=
  if slice (indexAt blob i) 0 4 ≠ entr then .error (.notEntry i)
  else
    match decode ((slice (indexAt blob i) 4 256).takeWhile (· ≠ 0)) with
    | none => .error .notUtf8
    | some name =>
      .ok { name := name,
            payload := slice blob (512 * startAt blob i) (512 * startAt blob i + sizeAt blob i) }

/-- The entries from the index `i` on. -/
def readFrom (blob : List UInt8) (i : Nat) : Nat → Except ResourceError (List ResourceEntry)
  | 0 => .ok []
  | count + 1 => do
    let entry ← readEntry blob i
    let rest ← readFrom blob (i + 1) count
    pure (entry :: rest)

def readEntries (blob : List UInt8) : Except ResourceError (List ResourceEntry) :=
  if slice blob 0 4 ≠ rsce then .error .notImage else readFrom blob 0 (natLittle (slice blob 12 16))

/-- The blocks of a payload. -/
def payloadBlocks (payload : List UInt8) : Nat := (payload.length + 512 - 1) / 512

/-- `bytes.ljust` with zeros. -/
def ljust (bytes : List UInt8) (width : Nat) : List UInt8 :=
  bytes ++ List.replicate (width - bytes.length) 0

/-- An index block; a name is assigned over as many bytes as it has characters. -/
def indexBlock (name : List Char) (start size : List UInt8) : List UInt8 :=
  let index := List.replicate 512 0
  let index := setSlice index 0 4 entr
  let index := setSlice index 4 (4 + name.length) (encode name)
  let index := setSlice index 260 264 start
  setSlice index 264 268 size

def writeLoop (start : Nat) (out payloads : List UInt8) : List ResourceEntry → Option (List UInt8)
  | [] => some (out ++ payloads)
  | entry :: rest => do
    let startBytes ← toLittle 4 start
    let sizeBytes ← toLittle 4 entry.payload.length
    let blocks := payloadBlocks entry.payload
    writeLoop (start + blocks) (out ++ indexBlock entry.name startBytes sizeBytes)
      (payloads ++ ljust entry.payload (blocks * 512)) rest

/-- None where a count, a start or a size needs more than four bytes. -/
def writeImage (header : List UInt8) (entries : List ResourceEntry) : Option (List UInt8) := do
  let count ← toLittle 4 entries.length
  writeLoop (1 + entries.length) (setSlice (header.take 512) 12 16 count) [] entries

theorem decode_encode (name : List Char) : decode (encode name) = some name := by
  have hencode : (encode name).toByteArray = name.utf8Encode := rfl
  rw [decode, hencode, List.utf8Decode?_utf8Encode]
  rfl

theorem length_le_encode (name : List Char) : name.length ≤ (encode name).length := by
  induction name with
  | nil => exact Nat.le_refl 0
  | cons c rest ih =>
    have hpos := c.utf8Size_pos
    rw [encode, List.flatMap_cons, List.length_append, String.length_utf8EncodeChar, List.length_cons]
    rw [encode] at ih
    omega

/-- A name whose characters take one byte each. -/
def Ascii (name : List Char) : Prop := (encode name).length = name.length

instance (name : List Char) : Decidable (Ascii name) := inferInstanceAs (Decidable (_ = _))

/-- The names the reader can return. -/
structure Named (name : List Char) : Prop where
  short : (encode name).length ≤ 252
  text : 0 ∉ encode name

section Index
variable {name : List Char} {start size : List UInt8}

/-- The bytes of an index block; those past its block are one for each byte that the name has
beyond its characters. -/
theorem indexBlock_eq (hname : Named name) (hstart : start.length = 4) :
    indexBlock name start size =
      entr ++ encode name ++ List.replicate (256 - 4 - (encode name).length) 0 ++
        List.replicate 4 0 ++ start ++ size ++ List.replicate 244 0 ++
        List.replicate ((encode name).length - name.length) 0 := by
  have hshort := hname.short
  have hchars := length_le_encode name
  have hentr : entr.length = 4 := rfl
  have hzeros (m n : Nat) : List.replicate (m + n) (0 : UInt8) = List.replicate m 0 ++ List.replicate n 0 :=
    List.replicate_add m n 0
  have hfirst : setSlice (List.replicate 512 0) 0 4 entr = entr ++ List.replicate 508 0 := by
    have hsplit : List.replicate 512 (0 : UInt8) =
        [] ++ List.replicate 4 0 ++ List.replicate 508 0 := hzeros 4 508
    rw [hsplit]
    exact setSlice_middle rfl rfl
  have hnamed : setSlice (entr ++ List.replicate 508 0) 4 (4 + name.length) (encode name) =
      entr ++ encode name ++ List.replicate (508 - name.length) 0 := by
    have hsplit : List.replicate 508 (0 : UInt8) =
        List.replicate name.length 0 ++ List.replicate (508 - name.length) 0 := by
      rw [← hzeros]
      congr 1
      omega
    rw [hsplit, ← List.append_assoc]
    exact setSlice_middle hentr.symm (by rw [hentr, List.length_replicate])
  have hrest : List.replicate (508 - name.length) (0 : UInt8) =
      List.replicate (256 - 4 - (encode name).length) 0 ++ List.replicate 4 0 ++
        List.replicate 4 0 ++ List.replicate 4 0 ++ List.replicate 244 0 ++
        List.replicate ((encode name).length - name.length) 0 := by
    rw [← hzeros, ← hzeros, ← hzeros, ← hzeros, ← hzeros]
    congr 1
    omega
  let front := entr ++ encode name ++ List.replicate (256 - 4 - (encode name).length) 0 ++
    List.replicate 4 0
  let back := List.replicate 244 (0 : UInt8) ++
    List.replicate ((encode name).length - name.length) 0
  have hfront : front.length = 260 := by
    simp only [front, List.length_append, List.length_replicate, hentr]
    omega
  have hsplit : entr ++ encode name ++ List.replicate (508 - name.length) 0 =
      front ++ List.replicate 4 0 ++ (List.replicate 4 0 ++ back) := by
    rw [hrest]
    simp only [front, back, List.append_assoc]
  have hassign : setSlice (front ++ List.replicate 4 0 ++ (List.replicate 4 0 ++ back)) 260 264 start =
      front ++ start ++ List.replicate 4 0 ++ back := by
    rw [setSlice_middle hfront.symm (by rw [hfront, List.length_replicate]), List.append_assoc _ _ back]
  have hlength : (front ++ start).length = 264 := by
    rw [List.length_append, hfront, hstart]
  rw [indexBlock, hfirst, hnamed, hsplit, hassign,
    setSlice_middle hlength.symm (by rw [hlength, List.length_replicate])]
  simp only [front, back, List.append_assoc]

theorem length_indexBlock (hname : Named name) (hstart : start.length = 4) (hsize : size.length = 4) :
    (indexBlock name start size).length = 512 + ((encode name).length - name.length) := by
  have hshort := hname.short
  have hentr : entr.length = 4 := rfl
  rw [indexBlock_eq hname hstart]
  simp only [List.length_append, List.length_replicate, hentr, hstart, hsize]
  omega

/-- The first 512 bytes of an index block hold its fields, however long the name. -/
theorem indexAt_eq (hname : Named name) (hstart : start.length = 4) (hsize : size.length = 4)
    {blob tail : List UInt8} {i : Nat}
    (h : blob.drop (512 * (1 + i)) = indexBlock name start size ++ tail) :
    indexAt blob i = entr ++ encode name ++ List.replicate (256 - 4 - (encode name).length) 0 ++
      List.replicate 4 0 ++ start ++ size ++ List.replicate 244 0 := by
  have hshort := hname.short
  have hentr : entr.length = 4 := rfl
  have hwidth : 512 * (2 + i) - 512 * (1 + i) = 512 := by omega
  rw [indexAt, slice, h, hwidth, indexBlock_eq hname hstart, List.append_assoc, List.take_left']
  simp only [List.length_append, List.length_replicate, hentr, hstart, hsize]
  omega

/-- An entry whose index block stands in its place is read from it. -/
theorem readEntry_eq (hname : Named name) (hstart : start.length = 4) (hsize : size.length = 4)
    {blob tail : List UInt8} {i : Nat}
    (h : blob.drop (512 * (1 + i)) = indexBlock name start size ++ tail) :
    startAt blob i = natLittle start ∧ sizeAt blob i = natLittle size ∧
      readEntry blob i = .ok {
        name := name
        payload := slice blob (512 * natLittle start) (512 * natLittle start + natLittle size) } := by
  have hshort := hname.short
  have hindex := indexAt_eq hname hstart hsize h
  have hentr : entr.length = 4 := rfl
  let zeros := List.replicate (256 - 4 - (encode name).length) (0 : UInt8)
  let front := entr ++ encode name ++ zeros ++ List.replicate 4 0
  have hfront : front.length = 260 := by
    simp only [front, zeros, List.length_append, List.length_replicate, hentr]
    omega
  have hmagic : slice (indexAt blob i) 0 4 = entr := by
    rw [hindex]
    simp only [List.append_assoc]
    rw [slice_append_left (Nat.le_refl 4)]
    rfl
  have hfield : slice (indexAt blob i) 4 256 = encode name ++ zeros := by
    rw [hindex]
    have hsplit : entr ++ encode name ++ zeros ++ List.replicate 4 0 ++ start ++ size ++
        List.replicate 244 0 = entr ++ (encode name ++ zeros) ++
          (List.replicate 4 0 ++ start ++ size ++ List.replicate 244 0) := by
      simp only [List.append_assoc]
    rw [hsplit]
    apply slice_middle hentr.symm
    simp only [zeros, List.length_append, List.length_replicate, hentr]
    omega
  have htext : (slice (indexAt blob i) 4 256).takeWhile (· ≠ 0) = encode name := by
    have hstop : ∀ b ∈ zeros.head?, decide (b ≠ 0) = false := by
      intro b hb
      have hzero := List.eq_of_mem_replicate (List.mem_of_head? hb)
      rw [hzero]
      rfl
    rw [hfield]
    exact takeWhile_append_of_stop
      (fun b hb => decide_eq_true (ne_of_mem_of_not_mem hb hname.text)) hstop
  have hstartAt : startAt blob i = natLittle start := by
    rw [startAt, hindex]
    change natLittle (slice (front ++ start ++ size ++ List.replicate 244 0) 260 264) = _
    rw [List.append_assoc (front ++ start), slice_middle hfront.symm (by rw [hfront, hstart])]
  have hsizeAt : sizeAt blob i = natLittle size := by
    have hlength : (front ++ start).length = 264 := by
      rw [List.length_append, hfront, hstart]
    rw [sizeAt, hindex]
    change natLittle (slice (front ++ start ++ size ++ List.replicate 244 0) 264 268) = _
    rw [slice_middle hlength.symm (by rw [hlength, hsize])]
  refine ⟨hstartAt, hsizeAt, ?_⟩
  rw [readEntry, if_neg (not_not.mpr hmagic), htext, decode_encode, hstartAt, hsizeAt]

/-- Behind a block of 512 bytes the next one is in its place. -/
theorem drop_next (hname : Named name) (hstart : start.length = 4) (hsize : size.length = 4)
    (hascii : Ascii name) {blob tail : List UInt8} {i : Nat}
    (h : blob.drop (512 * (1 + i)) = indexBlock name start size ++ tail) :
    blob.drop (512 * (1 + (i + 1))) = tail := by
  have hlength : (indexBlock name start size).length = 512 := by
    rw [length_indexBlock hname hstart hsize, hascii, Nat.sub_self]
  have hplace : 512 * (1 + (i + 1)) = 512 * (1 + i) + 512 := by omega
  rw [hplace, ← List.drop_drop, h, ← hlength, List.drop_left]

/-- Behind a longer block the next one is not found. -/
theorem indexAt_moved (hname : Named name) (hstart : start.length = 4) (hsize : size.length = 4)
    (hmore : name.length < (encode name).length) {blob tail : List UInt8} {i : Nat}
    (h : blob.drop (512 * (1 + i)) = indexBlock name start size ++ tail) :
    slice (indexAt blob (i + 1)) 0 4 ≠ entr := by
  have hshort := hname.short
  have hentr : entr.length = 4 := rfl
  let front := entr ++ encode name ++ List.replicate (256 - 4 - (encode name).length) 0 ++
    List.replicate 4 0 ++ start ++ size ++ List.replicate 244 0
  have hfront : front.length = 512 := by
    simp only [front, List.length_append, List.length_replicate, hstart, hsize, hentr]
    omega
  obtain ⟨excess, hexcess⟩ := Nat.exists_eq_add_of_lt hmore
  have hcount : (encode name).length - name.length = excess + 1 := by omega
  have hplace : 512 * (1 + (i + 1)) = 512 * (1 + i) + 512 := by omega
  -- the first byte there is one past the fields of the longer block
  have hdrop : blob.drop (512 * (1 + (i + 1))) = 0 :: (List.replicate excess 0 ++ tail) := by
    rw [hplace, ← List.drop_drop, h, indexBlock_eq hname hstart, hcount, List.append_assoc, ← hfront]
    exact List.drop_left
  have hwidth : 512 * (2 + (i + 1)) - 512 * (1 + (i + 1)) = 511 + 1 := by omega
  intro hword
  rw [slice, List.drop_zero, indexAt, slice, hdrop, hwidth, List.take_succ_cons, Nat.sub_zero,
    List.take_succ_cons] at hword
  exact absurd (List.cons.inj hword).1 (by decide)

end Index

/-- The index blocks of entries whose first payload starts at the block `start`. -/
def indexes (start : Nat) : List ResourceEntry → List UInt8
  | [] => []
  | entry :: rest =>
    indexBlock entry.name (littleBytes 4 start) (littleBytes 4 entry.payload.length) ++
      indexes (start + payloadBlocks entry.payload) rest

def padded (entries : List ResourceEntry) : List UInt8 :=
  entries.flatMap fun entry => ljust entry.payload (payloadBlocks entry.payload * 512)

/-- The starts and the sizes fit four bytes. -/
def StartsFit (start : Nat) : List ResourceEntry → Prop
  | [] => True
  | entry :: rest => start < 2 ^ 32 ∧ entry.payload.length < 2 ^ 32 ∧
      StartsFit (start + payloadBlocks entry.payload) rest

theorem toLittle_of_lt {v : Nat} (h : v < 2 ^ 32) : toLittle 4 v = some (littleBytes 4 v) := if_pos h

theorem writeLoop_eq {start : Nat} {entries : List ResourceEntry} (h : StartsFit start entries)
    (out payloads : List UInt8) : writeLoop start out payloads entries =
      some (out ++ indexes start entries ++ (payloads ++ padded entries)) := by
  induction entries generalizing start out payloads with
  | nil =>
    rw [writeLoop, indexes, padded, List.flatMap_nil, List.append_nil, List.append_nil]
  | cons entry rest ih =>
    obtain ⟨hstart, hsize, hrest⟩ := h
    rw [writeLoop, toLittle_of_lt hstart, toLittle_of_lt hsize]
    refine (ih hrest _ _).trans ?_
    rw [indexes, padded, padded, List.flatMap_cons]
    simp only [List.append_assoc]

theorem length_ljust (payload : List UInt8) :
    (ljust payload (payloadBlocks payload * 512)).length = 512 * payloadBlocks payload := by
  have hcover : payload.length ≤ payloadBlocks payload * 512 := by
    rw [payloadBlocks]
    omega
  rw [ljust, List.length_append, List.length_replicate]
  omega

/-- The regions the payloads are planned at. -/
def planned (start : Nat) : List ResourceEntry → List (Nat × Nat)
  | [] => []
  | entry :: rest => (512 * start, entry.payload.length) ::
      planned (start + payloadBlocks entry.payload) rest

/-- Entries with names of one byte a character are read back, with their payloads where they were
planned. -/
theorem readFrom_eq {entries : List ResourceEntry} {blob tail : List UInt8} {i start : Nat}
    (hname : ∀ entry ∈ entries, Named entry.name) (hascii : ∀ entry ∈ entries, Ascii entry.name)
    (hfit : StartsFit start entries)
    (hindex : blob.drop (512 * (1 + i)) = indexes start entries ++ tail)
    (hpayload : blob.drop (512 * start) = padded entries) :
    readFrom blob i entries.length = .ok entries ∧
      (List.range' i entries.length).map (fun j => (512 * startAt blob j, sizeAt blob j)) =
        planned start entries := by
  induction entries generalizing i start with
  | nil => exact ⟨rfl, rfl⟩
  | cons entry rest ih =>
    obtain ⟨hn, hnames⟩ := List.forall_mem_cons.mp hname
    obtain ⟨ha, hasciis⟩ := List.forall_mem_cons.mp hascii
    obtain ⟨hstart, hsize, hrest⟩ := hfit
    rw [indexes, List.append_assoc] at hindex
    obtain ⟨hs, hz, hread⟩ := readEntry_eq hn (length_littleBytes 4 start)
      (length_littleBytes 4 entry.payload.length) hindex
    rw [natLittle_littleBytes hstart, natLittle_littleBytes hsize] at hread
    rw [natLittle_littleBytes hstart] at hs
    rw [natLittle_littleBytes hsize] at hz
    have hnext := drop_next hn (length_littleBytes 4 start)
      (length_littleBytes 4 entry.payload.length) ha hindex
    have hbody : blob.drop (512 * start) =
        ljust entry.payload (payloadBlocks entry.payload * 512) ++ padded rest := by
      rw [hpayload, padded, List.flatMap_cons, padded]
    have hafter : blob.drop (512 * (start + payloadBlocks entry.payload)) = padded rest := by
      rw [Nat.mul_add, ← List.drop_drop, hbody, ← length_ljust, List.drop_left]
    have hslice : slice blob (512 * start) (512 * start + entry.payload.length) = entry.payload := by
      rw [slice, hbody, Nat.add_sub_cancel_left, ljust, List.append_assoc, List.take_left]
    obtain ⟨hreads, hplanned⟩ := ih hnames hasciis hrest hnext hafter
    constructor
    · rw [List.length_cons, readFrom, hread, hreads, hslice]
      rfl
    · rw [List.length_cons, List.range'_succ, List.map_cons, hplanned, planned, hs, hz]

theorem planned_apart (start : Nat) (entries : List ResourceEntry) :
    (planned start entries).Pairwise Apart ∧ ∀ r ∈ planned start entries, 512 * start ≤ r.1 := by
  induction entries generalizing start with
  | nil => exact ⟨List.Pairwise.nil, List.forall_mem_nil _⟩
  | cons entry rest ih =>
    obtain ⟨hapart, hbeyond⟩ := ih (start + payloadBlocks entry.payload)
    have hcover : entry.payload.length ≤ 512 * payloadBlocks entry.payload := by
      rw [payloadBlocks]
      omega
    have hnext : ∀ r ∈ planned (start + payloadBlocks entry.payload) rest,
        512 * start + entry.payload.length ≤ r.1 := by
      intro r hr
      have hle := hbeyond r hr
      omega
    constructor
    · exact List.pairwise_cons.mpr ⟨fun r hr => Or.inl (hnext r hr), hapart⟩
    · intro r hr
      rcases List.mem_cons.mp hr with rfl | hrest
      · exact Nat.le_refl _
      · exact (Nat.le_add_right _ _).trans (hnext r hrest)

def indexRegions (count : Nat) : List (Nat × Nat) :=
  (List.range' 0 count).map fun i => (512 * (1 + i), 512)

/-- The payloads, where the index blocks of an image locate them. -/
def payloadRegions (image : List UInt8) (count : Nat) : List (Nat × Nat) :=
  (List.range' 0 count).map fun i => (512 * startAt image i, sizeAt image i)

theorem indexRegions_apart (count : Nat) : (indexRegions count).Pairwise Apart := by
  rw [indexRegions, List.pairwise_map]
  refine (List.pairwise_lt_range' 1 Nat.one_pos).imp ?_
  intro i j hij
  left
  change 512 * (1 + i) + 512 ≤ 512 * (1 + j)
  omega

theorem regions_apart (entries : List ResourceEntry) :
    (indexRegions entries.length ++ planned (1 + entries.length) entries).Pairwise Apart := by
  obtain ⟨hapart, hbeyond⟩ := planned_apart (1 + entries.length) entries
  refine List.pairwise_append.mpr ⟨indexRegions_apart entries.length, hapart, ?_⟩
  intro r hr s hs
  obtain ⟨i, hi, rfl⟩ := List.mem_map.mp hr
  have hlt := (List.mem_range'_1.mp hi).2
  have hle := hbeyond s hs
  left
  change 512 * (1 + i) + 512 ≤ s.1
  omega

/-- What a rebuilt image owes its reader. -/
structure RoundTrip (entries : List ResourceEntry) (image : List UInt8) : Prop where
  back : readEntries image = .ok entries
  blocks : image.length % 512 = 0
  apart : (indexRegions entries.length ++ payloadRegions image entries.length).Pairwise Apart

theorem readFrom_entr {blob : List UInt8} {i count : Nat} {entries : List ResourceEntry}
    (h : readFrom blob i count = .ok entries) :
    ∀ j < count, slice (indexAt blob (i + j)) 0 4 = entr := by
  induction count generalizing i entries with
  | zero => exact fun j hj => absurd hj (Nat.not_lt_zero j)
  | succ count ih =>
    rw [readFrom] at h
    cases hentry : readEntry blob i with
    | error e =>
      rw [hentry] at h
      cases h
    | ok entry =>
      cases hrest : readFrom blob (i + 1) count with
      | error e =>
        rw [hentry, hrest] at h
        cases h
      | ok rest =>
        intro j hj
        cases j with
        | zero =>
          rw [Nat.add_zero]
          by_contra hmagic
          rw [readEntry, if_pos hmagic] at hentry
          cases hentry
        | succ j =>
          have hplace : i + (j + 1) = i + 1 + j := by omega
          rw [hplace]
          exact ih hrest j (Nat.lt_of_succ_lt_succ hj)

/-- A name with more bytes than characters moves the blocks behind its own, so the reader misses
the next one. -/
theorem names_ascii {entries : List ResourceEntry} {blob tail : List UInt8} {i start : Nat}
    (hname : ∀ entry ∈ entries, Named entry.name)
    (hindex : blob.drop (512 * (1 + i)) = indexes start entries ++ tail)
    (hentr : ∀ j < entries.length, slice (indexAt blob (i + j)) 0 4 = entr)
    (hblocks : (indexes start entries).length % 512 = 0) : ∀ entry ∈ entries, Ascii entry.name := by
  induction entries generalizing i start with
  | nil => exact List.forall_mem_nil _
  | cons entry rest ih =>
    obtain ⟨hn, hnames⟩ := List.forall_mem_cons.mp hname
    have hshort := hn.short
    have hchars := length_le_encode entry.name
    have hfirst := length_littleBytes 4 start
    have hsize := length_littleBytes 4 entry.payload.length
    have hlength := length_indexBlock hn hfirst hsize
    rw [indexes, List.append_assoc] at hindex
    rw [indexes, List.length_append, hlength] at hblocks
    have hascii : Ascii entry.name := by
      rw [Ascii]
      cases rest with
      | nil =>
        rw [indexes, List.length_nil] at hblocks
        omega
      | cons next rest =>
        by_contra hmore
        have hlt : entry.name.length < (encode entry.name).length :=
          Nat.lt_of_le_of_ne hchars (Ne.symm hmore)
        exact indexAt_moved hn hfirst hsize hlt hindex (hentr 1 (Nat.succ_lt_succ (Nat.succ_pos _)))
    have hwhole : (encode entry.name).length - entry.name.length = 0 := by
      rw [Ascii] at hascii
      omega
    have hnext := drop_next hn hfirst hsize hascii hindex
    refine List.forall_mem_cons.mpr ⟨hascii, ih hnames hnext ?_ (by omega)⟩
    intro j hj
    have hplace : i + 1 + j = i + (j + 1) := by omega
    rw [hplace]
    exact hentr (j + 1) (Nat.succ_lt_succ hj)

theorem length_padded (entries : List ResourceEntry) : (padded entries).length % 512 = 0 := by
  induction entries with
  | nil => rfl
  | cons entry rest ih =>
    rw [padded] at ih
    rw [padded, List.flatMap_cons, List.length_append, length_ljust]
    omega

theorem length_indexes {entries : List ResourceEntry} (hname : ∀ entry ∈ entries, Named entry.name)
    (hascii : ∀ entry ∈ entries, Ascii entry.name) (start : Nat) :
    (indexes start entries).length = 512 * entries.length := by
  induction entries generalizing start with
  | nil => rfl
  | cons entry rest ih =>
    obtain ⟨hn, hnames⟩ := List.forall_mem_cons.mp hname
    obtain ⟨ha, hasciis⟩ := List.forall_mem_cons.mp hascii
    rw [indexes, List.length_append, ih hnames hasciis, List.length_cons,
      length_indexBlock hn (length_littleBytes 4 _) (length_littleBytes 4 _), ha]
    omega

/-- The image of entries with every start and size in four bytes. -/
def imageOf (header : List UInt8) (entries : List ResourceEntry) : List UInt8 :=
  setSlice header 12 16 (littleBytes 4 entries.length) ++ indexes (1 + entries.length) entries ++
    padded entries

section Image
variable {header : List UInt8} (hheader : header.length = 512) (entries : List ResourceEntry)
include hheader

theorem length_counted : (setSlice header 12 16 (littleBytes 4 entries.length)).length = 512 := by
  rw [length_setSlice (by omega) (by omega) (length_littleBytes 4 _), hheader]

theorem writeImage_eq (hcount : entries.length < 2 ^ 32)
    (hfit : StartsFit (1 + entries.length) entries) :
    writeImage header entries = some (imageOf header entries) := by
  rw [writeImage, toLittle_of_lt hcount, List.take_of_length_le (Nat.le_of_eq hheader)]
  exact writeLoop_eq hfit _ []

theorem readEntries_imageOf (hmagic : slice header 0 4 = rsce) (hcount : entries.length < 2 ^ 32) :
    readEntries (imageOf header entries) = readFrom (imageOf header entries) 0 entries.length := by
  have hwidth : (littleBytes 4 entries.length).length = 16 - 12 := length_littleBytes 4 _
  have hlength := length_counted hheader entries
  have hrsce : slice (imageOf header entries) 0 4 = rsce := by
    rw [imageOf, List.append_assoc, slice_append_left (by omega),
      slice_setSlice_beside (by omega) (by omega) hwidth (Or.inl (by omega)), hmagic]
  have hnumber : natLittle (slice (imageOf header entries) 12 16) = entries.length := by
    rw [imageOf, List.append_assoc, slice_append_left (by omega),
      slice_setSlice (by omega) (by omega) hwidth, natLittle_littleBytes hcount]
  rw [readEntries, if_neg (not_not.mpr hrsce), hnumber]

theorem drop_imageOf : (imageOf header entries).drop (512 * (1 + 0)) =
    indexes (1 + entries.length) entries ++ padded entries := by
  have hplace : 512 * (1 + 0) = (setSlice header 12 16 (littleBytes 4 entries.length)).length :=
    (length_counted hheader entries).symm
  rw [imageOf, List.append_assoc, hplace, List.drop_left]

theorem length_imageOf : (imageOf header entries).length =
    512 + (indexes (1 + entries.length) entries).length + (padded entries).length := by
  rw [imageOf, List.length_append, List.length_append, length_counted hheader entries]

end Image

/-- The writer gives an image that reads back, in whole blocks that nothing shares, when and only
when every name takes one byte a character. -/
theorem writeImage_roundTrip_iff {header : List UInt8} {entries : List ResourceEntry}
    (hheader : header.length = 512) (hmagic : slice header 0 4 = rsce)
    (hname : ∀ entry ∈ entries, Named entry.name) (hcount : entries.length < 2 ^ 32)
    (hfit : StartsFit (1 + entries.length) entries) :
    ∃ image, writeImage header entries = some image ∧
      (RoundTrip entries image ↔ ∀ entry ∈ entries, Ascii entry.name) := by
  have hread := readEntries_imageOf hheader entries hmagic hcount
  have hindex := drop_imageOf hheader entries
  have hlength := length_imageOf hheader entries
  have hblocks := length_padded entries
  refine ⟨imageOf header entries, writeImage_eq hheader entries hcount hfit, ?_⟩
  constructor
  · intro h
    have hback := h.back
    have hwhole := h.blocks
    rw [hread] at hback
    rw [hlength] at hwhole
    exact names_ascii hname hindex (readFrom_entr hback) (by omega)
  · intro hascii
    have hindexes := length_indexes hname hascii (1 + entries.length)
    have hpayload : (imageOf header entries).drop (512 * (1 + entries.length)) = padded entries := by
      have hplace : 512 * (1 + entries.length) =
          (setSlice header 12 16 (littleBytes 4 entries.length) ++
            indexes (1 + entries.length) entries).length := by
        rw [List.length_append, length_counted hheader entries, hindexes]
        omega
      rw [imageOf, hplace]
      exact List.drop_left
    obtain ⟨hback, hplaced⟩ := readFrom_eq hname hascii hfit hindex hpayload
    constructor
    · rw [hread, hback]
    · omega
    · rw [payloadRegions, hplaced]
      exact regions_apart entries

theorem kernel_tree_rebuilt :
    ∃ image, writeImage (rsce ++ List.replicate 508 0)
        [⟨"rk-kernel.dtb".toList, [208, 13, 254, 237]⟩, ⟨"logo.bmp".toList, []⟩] = some image ∧
      RoundTrip [⟨"rk-kernel.dtb".toList, [208, 13, 254, 237]⟩, ⟨"logo.bmp".toList, []⟩] image := by
  have hname : ∀ entry ∈ [(⟨"rk-kernel.dtb".toList, [208, 13, 254, 237]⟩ : ResourceEntry),
      ⟨"logo.bmp".toList, []⟩], Named entry.name := by
    refine List.forall_mem_cons.mpr ⟨⟨by decide, by decide⟩, ?_⟩
    exact List.forall_mem_singleton.mpr ⟨by decide, by decide⟩
  have hheader : (rsce ++ List.replicate 508 0).length = 512 := by
    rw [List.length_append, List.length_replicate]
    rfl
  obtain ⟨image, himage, hround⟩ := writeImage_roundTrip_iff hheader rfl hname (by decide)
    ⟨by decide, by decide, by decide, by decide, trivial⟩
  exact ⟨image, himage, hround.mpr (by decide)⟩

/-- The second entry is not found behind an accented name. -/
theorem accented_name_moves_index :
    (∀ entry ∈ [(⟨['é'], []⟩ : ResourceEntry), ⟨"rk-kernel.dtb".toList, []⟩], Named entry.name) ∧
      StartsFit 3 [⟨['é'], []⟩, ⟨"rk-kernel.dtb".toList, []⟩] ∧
      ∃ image, writeImage (rsce ++ List.replicate 508 0)
          [⟨['é'], []⟩, ⟨"rk-kernel.dtb".toList, []⟩] = some image ∧
        ¬RoundTrip [⟨['é'], []⟩, ⟨"rk-kernel.dtb".toList, []⟩] image := by
  refine ⟨?_, ⟨by decide, by decide, by decide, by decide, trivial⟩, ?_⟩
  · refine List.forall_mem_cons.mpr ⟨⟨by decide, by decide⟩, ?_⟩
    exact List.forall_mem_singleton.mpr ⟨by decide, by decide⟩
  · have hwritten : (writeImage (rsce ++ List.replicate 508 0)
        [⟨['é'], []⟩, ⟨"rk-kernel.dtb".toList, []⟩]).map
          (fun image => (slice image 0 4, natLittle (slice image 12 16), slice (indexAt image 1) 0 4)) =
        some (rsce, 2, [0, 69, 78, 84]) := by
      decide +kernel
    obtain ⟨image, himage, hparts⟩ := Option.map_eq_some_iff.mp hwritten
    obtain ⟨hrsce, hfields⟩ := Prod.ext_iff.mp hparts
    obtain ⟨hcount, hmoved⟩ := Prod.ext_iff.mp hfields
    dsimp only at hrsce hcount hmoved
    refine ⟨image, himage, fun h => ?_⟩
    have hback := h.back
    rw [readEntries, if_neg (not_not.mpr hrsce), hcount] at hback
    have hentr := readFrom_entr hback 1 (by decide)
    rw [hmoved] at hentr
    exact absurd hentr (by decide)

end Taq102.Tools
