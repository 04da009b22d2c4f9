import Mathlib.Algebra.Group.Int.Defs
import Mathlib.Data.List.Basic
import Taq102.Lib.PyBytes

/-! The tool that adds an entry to the reserve map of a device tree (`dtb-add-memreserve.py`). -/
namespace Taq102.Tools
open Taq102.Lib PyBytes

structure FdtHeader where
  magic : Nat
  total : Nat
  offStruct : Nat
  offStrings : Nat
  offRsvmap : Nat
  ver : Nat
  lastComp : Nat
  bootCpu : Nat
  sizeStrings : Nat
  sizeStruct : Nat
  deriving DecidableEq, Repr

def word (d : List UInt8) (off : Nat) : Nat := natBig (slice d off (off + 4))

def header (d : List UInt8) : FdtHeader :=
  { magic := word d 0
    total := word d 4
    offStruct := word d 8
    offStrings := word d 12
    offRsvmap := word d 16
    ver := word d 20
    lastComp := word d 24
    bootCpu := word d 28
    sizeStrings := word d 32
    sizeStruct := word d 36 }

inductive MemReserveError where
  | unpack
  | notTree (magic : Nat)
  | tooOld (ver : Nat)
  | overlap (a s : Nat)
  | unaligned
  | mismatch (built : Nat) (total : Int)
  deriving DecidableEq, Repr

/-- Python's `#x`. -/
def hex (n : Nat) : String := "0x" ++ String.ofList (Nat.toDigits 16 n)

/-- What the tool exits with, or the exception it leaves to Python. -/
def MemReserveError.message : MemReserveError → String
  | .unpack => "struct.error"
  | .notTree magic => "not a dtb: magic " ++ hex magic
  | .tooOld ver => "version " ++ toString ver ++ " too old for this script"
  | .overlap a s => "overlaps existing reserve " ++ hex a ++ "+" ++ hex s
  | .unaligned => "reserve map must stay 8-byte aligned"
  | .mismatch built total =>
    "size mismatch: built " ++ toString built ++ ", header says " ++ toString total

def unpackHeader (d : List UInt8) : Option FdtHeader :=
  if (slice d 0 40).length = 40 then some (header d) else none

def unpackPair (d : List UInt8) (p : Nat) : Option (Nat × Nat) :=
  if p + 16 ≤ d.length then
    some (natBig (slice d p (p + 8)), natBig (slice d (p + 8) (p + 16)))
  else none

/-- The pairs from `p` up to the zero pair. -/
def readMap (d : List UInt8) : Nat → Nat → Option (List (Nat × Nat))
  | 0, _ => none
  | fuel + 1, p =>
    match unpackPair d p with
    | none => none
    | some pair =>
      if pair.1 = 0 ∧ pair.2 = 0 then some [] else (readMap d fuel (p + 16)).map (pair :: ·)

def reserveMap (d : List UInt8) (p : Nat) : Option (List (Nat × Nat)) := readMap d (d.length + 1) p

def overlaps (addr size : Nat) (entry : Nat × Nat) : Bool :=
  addr < entry.1 + entry.2 && entry.1 < addr + size

def packPair (a s : Nat) : Option (List UInt8) :=
  if a < 2 ^ 64 ∧ s < 2 ^ 64 then some (bigBytes 8 a ++ bigBytes 8 s) else none

/-- The pairs and the zero pair. -/
def packMap : List (Nat × Nat) → Option (List UInt8)
  | [] => packPair 0 0
  | (a, s) :: rest => do
    let pair ← packPair a s
    let rest ← packMap rest
    pure (pair ++ rest)

def setWord (head : List UInt8) (off v : Nat) : List UInt8 :=
  setSlice head off (off + 4) (bigBytes 4 v)

def packInto (head : List UInt8) (off : Nat) (v : Int) : Option (List UInt8) :=
  if 0 ≤ v ∧ v < 2 ^ 32 ∧ off + 4 ≤ head.length then
    some (setWord head off v.toNat)
  else none

def patchHead (head : List UInt8) (newTotal newOffStruct newOffStrings : Int) :
    Option (List UInt8) := do
  let head ← packInto head 4 newTotal
  let head ← packInto head 8 newOffStruct
  packInto head 12 newOffStrings

def structBlock (d : List UInt8) : List UInt8 :=
  slice d (header d).offStruct ((header d).offStruct + (header d).sizeStruct)

def stringsBlock (d : List UInt8) : List UInt8 :=
  slice d (header d).offStrings ((header d).offStrings + (header d).sizeStrings)

/-- The output for the entries of the new map. -/
def rebuild (d : List UInt8) (entries : List (Nat × Nat)) : Except MemReserveError (List UInt8) :=
  match packMap entries with
  | none => .error .unpack
  | some rsvmap =>
    let newOffStruct : Int := (header d).offRsvmap + rsvmap.length
    let shift := newOffStruct - (header d).offStruct
    if shift % 8 ≠ 0 then .error .unaligned
    else
      let newOffStrings := (header d).offStrings + shift
      let newTotal := (header d).total + shift
      match patchHead (d.take (header d).offRsvmap) newTotal newOffStruct newOffStrings with
      | none => .error .unpack
      | some head =>
        let out := head ++ rsvmap ++ structBlock d ++ stringsBlock d
        if out.length ≠ newTotal then .error (.mismatch out.length newTotal) else .ok out

/-- `main`, from the bytes of the input to those of the output. -/
def addMemreserve (d : List UInt8) (addr size : Nat) : Except MemReserveError (List UInt8) :=
  match unpackHeader d with
  | none => .error .unpack
  | some h =>
    if h.magic ≠ 0xd00dfeed then .error (.notTree h.magic)
    else if h.ver < 17 then .error (.tooOld h.ver)
    else
      match reserveMap d h.offRsvmap with
      | none => .error .unpack
      | some entries =>
        match entries.find? (overlaps addr size) with
        | some (a, s) => .error (.overlap a s)
        | none => rebuild d (entries ++ [(addr, size)])

/-- More fuel than the bytes need changes nothing. -/
theorem readMap_fuel {d : List UInt8} {fuel p : Nat} (h : d.length < p + 16 * fuel) (more : Nat) :
    readMap d (fuel + more) p = readMap d fuel p := by
  induction fuel generalizing p with
  | zero =>
    have hshort : unpackPair d p = none := if_neg (by omega)
    cases more with
    | zero => rfl
    | succ more => rw [Nat.zero_add, readMap, readMap, hshort]
  | succ fuel ih =>
    rw [Nat.add_right_comm, readMap, readMap, ih (by omega)]

/-- The pairs of a map that ends where it is read to. -/
def Entry (e : Nat × Nat) : Prop := e.1 < 2 ^ 64 ∧ e.2 < 2 ^ 64 ∧ ¬(e.1 = 0 ∧ e.2 = 0)

theorem natBig_slice_lt (d : List UInt8) (lo k : Nat) : natBig (slice d lo (lo + k)) < 256 ^ k := by
  have hlength := length_slice d lo (lo + k)
  exact Nat.lt_of_lt_of_le (natBig_lt _) (Nat.pow_le_pow_right (by omega) (by omega))

theorem readMap_entries {d : List UInt8} {fuel p : Nat} {entries : List (Nat × Nat)}
    (h : readMap d fuel p = some entries) : ∀ e ∈ entries, Entry e := by
  induction fuel generalizing p entries with
  | zero => cases h
  | succ fuel ih =>
    rw [readMap, unpackPair] at h
    split at h
    · cases h
    next pair hpair =>
      split at h
      · cases h
        exact List.forall_mem_nil _
      next hzero =>
        obtain ⟨rest, hrest, rfl⟩ := Option.map_eq_some_iff.mp h
        refine List.forall_mem_cons.mpr ⟨?_, ih hrest⟩
        split at hpair
        · cases hpair
          exact ⟨natBig_slice_lt d p 8, natBig_slice_lt d (p + 8) 8, hzero⟩
        · cases hpair

/-- The bytes of pairs. -/
def packed (entries : List (Nat × Nat)) : List UInt8 :=
  entries.flatMap fun e => bigBytes 8 e.1 ++ bigBytes 8 e.2

theorem packed_cons (e : Nat × Nat) (rest : List (Nat × Nat)) :
    packed (e :: rest) = bigBytes 8 e.1 ++ bigBytes 8 e.2 ++ packed rest := List.flatMap_cons

theorem length_packed (entries : List (Nat × Nat)) : (packed entries).length = 16 * entries.length := by
  induction entries with
  | nil => rfl
  | cons e rest ih =>
    rw [packed_cons, List.length_append, List.length_append, length_bigBytes, length_bigBytes, ih,
      List.length_cons]
    omega

theorem packMap_eq {entries : List (Nat × Nat)} (h : ∀ e ∈ entries, Entry e) :
    packMap entries = some (packed (entries ++ [(0, 0)])) := by
  induction entries with
  | nil => rfl
  | cons e rest ih =>
    obtain ⟨⟨haddr, hsize, _⟩, hrest⟩ := List.forall_mem_cons.mp h
    have hpair : packPair e.1 e.2 = some (bigBytes 8 e.1 ++ bigBytes 8 e.2) := if_pos ⟨haddr, hsize⟩
    rw [packMap, hpair, ih hrest, List.cons_append, packed_cons]
    rfl

theorem unpackPair_packed {a c : List UInt8} {e : Nat × Nat} (haddr : e.1 < 2 ^ 64)
    (hsize : e.2 < 2 ^ 64) (rest : List (Nat × Nat)) :
    unpackPair (a ++ packed (e :: rest) ++ c) a.length = some e := by
  have hsplit : a ++ packed (e :: rest) ++ c =
      a ++ bigBytes 8 e.1 ++ (bigBytes 8 e.2 ++ packed rest ++ c) := by
    rw [packed_cons]
    simp only [List.append_assoc]
  have hsplit' : a ++ bigBytes 8 e.1 ++ (bigBytes 8 e.2 ++ packed rest ++ c) =
      a ++ bigBytes 8 e.1 ++ bigBytes 8 e.2 ++ (packed rest ++ c) := by
    simp only [List.append_assoc]
  have hroom : a.length + 16 ≤ (a ++ packed (e :: rest) ++ c).length := by
    rw [List.length_append, List.length_append, length_packed, List.length_cons]
    omega
  have hfirst : slice (a ++ packed (e :: rest) ++ c) a.length (a.length + 8) = bigBytes 8 e.1 := by
    rw [hsplit, slice_middle rfl (by rw [length_bigBytes])]
  have hsecond : slice (a ++ packed (e :: rest) ++ c) (a.length + 8) (a.length + 16) = bigBytes 8 e.2 := by
    rw [hsplit, hsplit', slice_middle] <;>
      simp only [List.length_append, length_bigBytes]
  rw [unpackPair, if_pos hroom, hfirst, hsecond, natBig_bigBytes haddr, natBig_bigBytes hsize]

/-- A packed map is read back. -/
theorem readMap_packed {a c : List UInt8} {entries : List (Nat × Nat)} (h : ∀ e ∈ entries, Entry e)
    {fuel : Nat} (hfuel : entries.length < fuel) :
    readMap (a ++ packed (entries ++ [(0, 0)]) ++ c) fuel a.length = some entries := by
  induction entries generalizing a fuel with
  | nil =>
    obtain ⟨fuel, rfl⟩ := Nat.exists_eq_add_one_of_ne_zero (Nat.ne_of_gt hfuel)
    rw [readMap, List.nil_append, unpackPair_packed (by decide) (by decide)]
    rfl
  | cons e rest ih =>
    obtain ⟨⟨haddr, hsize, hzero⟩, hrest⟩ := List.forall_mem_cons.mp h
    rw [List.length_cons] at hfuel
    obtain ⟨fuel, rfl⟩ := Nat.exists_eq_add_one_of_ne_zero (Nat.ne_of_gt (Nat.zero_lt_of_lt hfuel))
    have hnext : a ++ packed (e :: (rest ++ [(0, 0)])) ++ c =
        a ++ bigBytes 8 e.1 ++ bigBytes 8 e.2 ++ packed (rest ++ [(0, 0)]) ++ c := by
      rw [packed_cons]
      simp only [List.append_assoc]
    have hplace : (a ++ bigBytes 8 e.1 ++ bigBytes 8 e.2).length = a.length + 16 := by
      rw [List.length_append, List.length_append, length_bigBytes, length_bigBytes]
    have hread := ih (a := a ++ bigBytes 8 e.1 ++ bigBytes 8 e.2) hrest (Nat.lt_of_succ_lt_succ hfuel)
    rw [hplace, ← hnext] at hread
    rw [readMap, List.cons_append, unpackPair_packed haddr hsize]
    dsimp only
    rw [if_neg hzero, hread]
    rfl

theorem word_append {a : List UInt8} {off : Nat} (h : off + 4 ≤ a.length) (b : List UInt8) :
    word (a ++ b) off = word a off := by
  rw [word, slice_append_left h, word]

theorem word_take {d : List UInt8} {n off : Nat} (h : off + 4 ≤ n) (hn : n ≤ d.length) :
    word (d.take n) off = word d off := by
  have hlength : (d.take n).length = n := List.length_take_of_le hn
  conv_rhs => rw [← List.take_append_drop n d]
  rw [word_append (by omega)]

section SetWord
variable {head : List UInt8} {off : Nat} (h : off + 4 ≤ head.length) (v : Nat)
include h

theorem length_setWord : (setWord head off v).length = head.length :=
  length_setSlice (Nat.le_add_right off 4) h (by rw [length_bigBytes]; omega)

theorem word_setWord (hv : v < 2 ^ 32) : word (setWord head off v) off = v := by
  rw [word, setWord, slice_setSlice (Nat.le_add_right off 4) h (by rw [length_bigBytes]; omega),
    natBig_bigBytes hv]

theorem word_setWord_beside {off' : Nat} (hbeside : off' + 4 ≤ off ∨ off + 4 ≤ off') :
    word (setWord head off v) off' = word head off' := by
  rw [word, setWord, slice_setSlice_beside (Nat.le_add_right off 4) h
    (by rw [length_bigBytes]; omega) hbeside, word]

end SetWord

/-- A front with new words for the total size and the offsets of the two blocks. -/
def patched (front : List UInt8) (total offStruct offStrings : Nat) : List UInt8 :=
  setWord (setWord (setWord front 4 total) 8 offStruct) 12 offStrings

section Patch
variable {front : List UInt8} {t s g : Nat}

theorem length_patched (h : 16 ≤ front.length) : (patched front t s g).length = front.length := by
  have htotal : (setWord front 4 t).length = front.length := length_setWord (by omega) t
  have hstruct : (setWord (setWord front 4 t) 8 s).length = front.length := by
    rw [length_setWord (by omega), htotal]
  rw [patched, length_setWord (by omega), hstruct]

theorem packInto_iff {head out : List UInt8} {off : Nat} (h : off + 4 ≤ head.length) (v : Int) :
    packInto head off v = some out ↔ (0 ≤ v ∧ v < 2 ^ 32) ∧ out = setWord head off v.toNat := by
  rw [packInto]
  constructor
  · intro hpack
    split at hpack
    next hfits =>
      cases hpack
      exact ⟨⟨hfits.1, hfits.2.1⟩, rfl⟩
    · cases hpack
  · rintro ⟨⟨hlo, hhi⟩, rfl⟩
    rw [if_pos ⟨hlo, hhi, h⟩]

theorem patchHead_iff (h : 16 ≤ front.length) {total offStruct offStrings : Int} {head : List UInt8} :
    patchHead front total offStruct offStrings = some head ↔
      ((0 ≤ total ∧ total < 2 ^ 32) ∧ (0 ≤ offStruct ∧ offStruct < 2 ^ 32) ∧
        0 ≤ offStrings ∧ offStrings < 2 ^ 32) ∧
      head = patched front total.toNat offStruct.toNat offStrings.toNat := by
  have htotal : (setWord front 4 total.toNat).length = front.length := length_setWord (by omega) _
  have hstruct : (setWord (setWord front 4 total.toNat) 8 offStruct.toNat).length = front.length := by
    rw [length_setWord (by omega), htotal]
  constructor
  · intro hpatch
    obtain ⟨first, hfirst, hrest⟩ := Option.bind_eq_some_iff.mp hpatch
    obtain ⟨hfitsTotal, rfl⟩ := (packInto_iff (by omega) total).mp hfirst
    obtain ⟨second, hsecond, hlast⟩ := Option.bind_eq_some_iff.mp hrest
    obtain ⟨hfitsStruct, rfl⟩ := (packInto_iff (by omega) offStruct).mp hsecond
    obtain ⟨hfitsStrings, rfl⟩ := (packInto_iff (by omega) offStrings).mp hlast
    exact ⟨⟨hfitsTotal, hfitsStruct, hfitsStrings⟩, rfl⟩
  · rintro ⟨⟨hfitsTotal, hfitsStruct, hfitsStrings⟩, rfl⟩
    refine Option.bind_eq_some_iff.mpr ⟨_, (packInto_iff (by omega) total).mpr ⟨hfitsTotal, rfl⟩, ?_⟩
    refine Option.bind_eq_some_iff.mpr
      ⟨_, (packInto_iff (by omega) offStruct).mpr ⟨hfitsStruct, rfl⟩, ?_⟩
    exact (packInto_iff (by omega) offStrings).mpr ⟨hfitsStrings, rfl⟩

theorem header_patched (h : 40 ≤ front.length) (ht : t < 2 ^ 32) (hs : s < 2 ^ 32)
    (hg : g < 2 ^ 32) (rest : List UInt8) : header (patched front t s g ++ rest) =
      { header front with total := t, offStruct := s, offStrings := g } := by
  have htotal : (setWord front 4 t).length = front.length := length_setWord (by omega) t
  have hstruct : (setWord (setWord front 4 t) 8 s).length = front.length := by
    rw [length_setWord (by omega), htotal]
  have hfront : (patched front t s g).length = front.length := length_patched (by omega)
  have hother : ∀ off, off + 4 ≤ 4 ∨ 16 ≤ off → off + 4 ≤ 40 →
      word (patched front t s g ++ rest) off = word front off := by
    intro off hbeside hoff
    rw [word_append (by omega), patched, word_setWord_beside (by omega) _ (by omega),
      word_setWord_beside (by omega) _ (by omega), word_setWord_beside (by omega) _ (by omega)]
  have hnewTotal : word (patched front t s g ++ rest) 4 = t := by
    rw [word_append (by omega), patched, word_setWord_beside (by omega) _ (by omega),
      word_setWord_beside (by omega) _ (by omega), word_setWord (by omega) _ ht]
  have hnewStruct : word (patched front t s g ++ rest) 8 = s := by
    rw [word_append (by omega), patched, word_setWord_beside (by omega) _ (by omega),
      word_setWord (by omega) _ hs]
  have hnewStrings : word (patched front t s g ++ rest) 12 = g := by
    rw [word_append (by omega), patched, word_setWord (by omega) _ hg]
  simp only [header, FdtHeader.mk.injEq]
  exact ⟨hother 0 (by omega) (by omega), hnewTotal, hnewStruct, hnewStrings,
    hother 16 (by omega) (by omega), hother 20 (by omega) (by omega),
    hother 24 (by omega) (by omega), hother 28 (by omega) (by omega),
    hother 32 (by omega) (by omega), hother 36 (by omega) (by omega)⟩

end Patch

/-- The reserve map, the struct block and the strings block. -/
def blocks (d : List UInt8) (entries : List (Nat × Nat)) : List (Nat × Nat) :=
  [((header d).offRsvmap, 16 * (entries.length + 1)), ((header d).offStruct, (header d).sizeStruct),
    ((header d).offStrings, (header d).sizeStrings)]

/-- A device tree with the reserve map `entries`; its file may be longer or shorter than its total
size says. -/
structure WellFormed (d : List UInt8) (entries : List (Nat × Nat)) : Prop where
  whole : 40 ≤ d.length
  magic : (header d).magic = 0xd00dfeed
  version : 17 ≤ (header d).ver
  map : reserveMap d (header d).offRsvmap = some entries
  after : ∀ b ∈ blocks d entries, 40 ≤ b.1
  inside : ∀ b ∈ blocks d entries, b.1 + b.2 ≤ (header d).total
  apart : (blocks d entries).Pairwise Apart

/-- The place behind the new reserve map. -/
def behindMap (d : List UInt8) (entries : List (Nat × Nat)) : Nat :=
  (header d).offRsvmap + 16 * (entries.length + 2)

def shift (d : List UInt8) (entries : List (Nat × Nat)) : Int :=
  behindMap d entries - (header d).offStruct

/-- The checks of the tool, on its input. -/
structure Accepted (d : List UInt8) (entries : List (Nat × Nat)) (addr size : Nat) : Prop where
  clear : ∀ e ∈ entries, overlaps addr size e = false
  aligned : shift d entries % 8 = 0
  total : 0 ≤ (header d).total + shift d entries ∧ (header d).total + shift d entries < 2 ^ 32
  offStruct : behindMap d entries < 2 ^ 32
  offStrings : 0 ≤ (header d).offStrings + shift d entries ∧
    (header d).offStrings + shift d entries < 2 ^ 32
  sizes : (header d).total =
    (header d).offStruct + (structBlock d).length + (stringsBlock d).length

/-- The input up to its reserve map, with the new header words, and the new map. -/
def grownFront (d : List UInt8) (entries : List (Nat × Nat)) (addr size : Nat) : List UInt8 :=
  patched (d.take (header d).offRsvmap) ((header d).total + shift d entries).toNat
      (behindMap d entries) ((header d).offStrings + shift d entries).toNat ++
    packed (entries ++ [(addr, size)] ++ [(0, 0)])

theorem readMap_place {d : List UInt8} {fuel p : Nat} {entries : List (Nat × Nat)}
    (h : readMap d fuel p = some entries) : p + 16 ≤ d.length := by
  cases fuel with
  | zero => cases h
  | succ fuel =>
    by_contra hshort
    have hpair : unpackPair d p = none := if_neg hshort
    rw [readMap, hpair] at h
    cases h

section Grow
variable {d : List UInt8} {entries : List (Nat × Nat)} {addr size : Nat} (h : WellFormed d entries)
include h

theorem WellFormed.mapPlace : 40 ≤ (header d).offRsvmap ∧ (header d).offRsvmap + 16 ≤ d.length :=
  ⟨h.after _ List.mem_cons_self, readMap_place h.map⟩

theorem length_front : (d.take (header d).offRsvmap).length = (header d).offRsvmap := by
  have hplace := h.mapPlace
  exact List.length_take_of_le (by omega)

theorem length_grownFront : (grownFront d entries addr size).length = behindMap d entries := by
  have hplace := h.mapPlace
  have hfront := length_front h
  rw [grownFront, List.length_append, length_patched (by omega), hfront, length_packed, behindMap]
  simp only [List.length_append, List.length_singleton]

theorem newEntries (haddr : addr < 2 ^ 64) (hpos : 0 < size) (hsize : size < 2 ^ 64) :
    ∀ e ∈ entries ++ [(addr, size)], Entry e := by
  intro e he
  rcases List.mem_append.mp he with hold | hnew
  · exact readMap_entries h.map e hold
  · obtain rfl := List.mem_singleton.mp hnew
    exact ⟨haddr, hsize, fun hzero => Nat.ne_of_gt hpos hzero.2⟩

theorem rebuild_ok_iff (haddr : addr < 2 ^ 64) (hpos : 0 < size) (hsize : size < 2 ^ 64)
    (hclear : ∀ e ∈ entries, overlaps addr size e = false) {out : List UInt8} :
    rebuild d (entries ++ [(addr, size)]) = .ok out ↔ Accepted d entries addr size ∧
      out = grownFront d entries addr size ++ structBlock d ++ stringsBlock d := by
  have hplace := h.mapPlace
  have hfront := length_front h
  have hlength : (packed (entries ++ [(addr, size)] ++ [(0, 0)])).length = 16 * (entries.length + 2) := by
    rw [length_packed]
    simp only [List.length_append, List.length_singleton]
  have hplaced : ((header d).offRsvmap + (16 * (entries.length + 2) : Nat) : Int) = behindMap d entries :=
    (Int.natCast_add _ _).symm
  rw [rebuild, packMap_eq (newEntries h haddr hpos hsize)]
  dsimp only
  have hshift : (behindMap d entries : Int) - (header d).offStruct = shift d entries := rfl
  rw [hlength, hplaced, hshift]
  have hhead {head : List UInt8} : patchHead (d.take (header d).offRsvmap)
      ((header d).total + shift d entries) (behindMap d entries)
      ((header d).offStrings + shift d entries) = some head ↔ _ := patchHead_iff (by omega)
  have hbuilt : (grownFront d entries addr size ++ structBlock d ++ stringsBlock d).length =
      (header d).total + shift d entries ↔ (header d).total =
        (header d).offStruct + (structBlock d).length + (stringsBlock d).length := by
    rw [List.length_append, List.length_append, length_grownFront h, shift]
    omega
  constructor
  · intro hout
    split at hout
    · cases hout
    next haligned =>
      split at hout
      · cases hout
      next head hpatch =>
        obtain ⟨⟨htotal, hstruct, hstrings⟩, rfl⟩ := hhead.mp hpatch
        split at hout
        · cases hout
        next hsizes =>
          have hbytes := Except.ok.inj hout
          subst hbytes
          exact ⟨⟨hclear, not_not.mp haligned, htotal, by omega, hstrings,
            hbuilt.mp (not_not.mp hsizes)⟩, rfl⟩
  · rintro ⟨hacc, hbytes⟩
    rw [hbytes]
    have hstruct : (behindMap d entries : Int) < 2 ^ 32 := by
      have hlt := hacc.offStruct
      omega
    have hpatch := hhead.mpr ⟨⟨hacc.total, ⟨Int.natCast_nonneg _, hstruct⟩, hacc.offStrings⟩, rfl⟩
    rw [if_neg (not_not.mpr hacc.aligned), hpatch]
    exact if_neg (not_not.mpr (hbuilt.mpr hacc.sizes))

theorem addMemreserve_ok_iff (haddr : addr < 2 ^ 64) (hpos : 0 < size) (hsize : size < 2 ^ 64)
    {out : List UInt8} : addMemreserve d addr size = .ok out ↔ Accepted d entries addr size ∧
      out = grownFront d entries addr size ++ structBlock d ++ stringsBlock d := by
  have hread : unpackHeader d = some (header d) := by
    have hwhole := h.whole
    have hlength := length_slice d 0 40
    exact if_pos (by omega)
  rw [addMemreserve, hread]
  dsimp only
  rw [if_neg (not_not.mpr h.magic), if_neg (Nat.not_lt.mpr h.version), h.map]
  dsimp only
  cases hfind : entries.find? (overlaps addr size) with
  | none =>
    have hclear : ∀ e ∈ entries, overlaps addr size e = false :=
      fun e he => Bool.eq_false_iff.mpr (List.find?_eq_none.mp hfind e he)
    exact rebuild_ok_iff h haddr hpos hsize hclear
  | some e =>
    constructor
    · intro hout
      cases hout
    · rintro ⟨hacc, -⟩
      have hover := List.find?_some hfind
      rw [hacc.clear e (List.mem_of_find?_eq_some hfind)] at hover
      cases hover

theorem header_take : header (d.take (header d).offRsvmap) = header d := by
  have hplace := h.mapPlace
  have hword : ∀ off, off + 4 ≤ 40 → word (d.take (header d).offRsvmap) off = word d off :=
    fun off hoff => word_take (by omega) (by omega)
  rw [header, header, FdtHeader.mk.injEq]
  exact ⟨hword 0 (by omega), hword 4 (by omega), hword 8 (by omega), hword 12 (by omega),
    hword 16 (by omega), hword 20 (by omega), hword 24 (by omega), hword 28 (by omega),
    hword 32 (by omega), hword 36 (by omega)⟩

/-- The header of the output. -/
theorem header_grown (hacc : Accepted d entries addr size) (rest : List UInt8) :
    header (grownFront d entries addr size ++ rest) =
      { header d with
        total := ((header d).total + shift d entries).toNat
        offStruct := behindMap d entries
        offStrings := ((header d).offStrings + shift d entries).toNat } := by
  have hplace := h.mapPlace
  have hfront := length_front h
  have htotal := hacc.total
  have hstrings := hacc.offStrings
  rw [grownFront, List.append_assoc, header_patched (by omega) (by omega) hacc.offStruct (by omega),
    header_take h]

theorem reserveMap_grown (haddr : addr < 2 ^ 64) (hpos : 0 < size) (hsize : size < 2 ^ 64)
    (rest : List UInt8) : reserveMap (grownFront d entries addr size ++ rest) (header d).offRsvmap =
      some (entries ++ [(addr, size)]) := by
  have hplace := h.mapPlace
  have hlength : (grownFront d entries addr size).length = behindMap d entries := length_grownFront h
  have hpatched : (patched (d.take (header d).offRsvmap) ((header d).total + shift d entries).toNat
      (behindMap d entries) ((header d).offStrings + shift d entries).toNat).length =
        (header d).offRsvmap := by
    rw [length_patched, length_front h]
    rw [length_front h]
    omega
  have hfuel : (entries ++ [(addr, size)]).length < (grownFront d entries addr size ++ rest).length + 1 := by
    rw [List.length_append, List.length_singleton, List.length_append, hlength, behindMap]
    omega
  rw [← hpatched]
  exact readMap_packed (newEntries h haddr hpos hsize) hfuel

end Grow

/-- What the output owes the tree it was made from. -/
structure Grown (d : List UInt8) (entries : List (Nat × Nat)) (addr size : Nat) (out : List UInt8) :
    Prop where
  total : (header out).total = out.length
  map : reserveMap out (header out).offRsvmap = some (entries ++ [(addr, size)])
  clear : ∀ e ∈ entries, e.1 + e.2 ≤ addr ∨ addr + size ≤ e.1
  struct : structBlock out = structBlock d
  strings : stringsBlock out = stringsBlock d
  others : header out = { header d with
    total := (header out).total
    offStruct := (header out).offStruct
    offStrings := (header out).offStrings }

/-- The strings block is behind the struct block or empty, or its bytes stand at its new place
anyway. -/
def StringsFound (d : List UInt8) (entries : List (Nat × Nat)) (addr size : Nat) : Prop :=
  (header d).offStruct ≤ (header d).offStrings ∨ (header d).sizeStrings = 0 ∨
    (structBlock d).length = (header d).sizeStruct ∧
      slice (grownFront d entries addr size) ((header d).offStrings + shift d entries).toNat
        (((header d).offStrings + shift d entries).toNat + (header d).sizeStrings) = stringsBlock d

theorem length_blocks (d : List UInt8) :
    (structBlock d).length = min (header d).sizeStruct (d.length - (header d).offStruct) ∧
      (stringsBlock d).length = min (header d).sizeStrings (d.length - (header d).offStrings) := by
  rw [structBlock, stringsBlock, length_slice, length_slice, Nat.add_sub_cancel_left,
    Nat.add_sub_cancel_left]
  exact ⟨rfl, rfl⟩

section Blocks
variable {d : List UInt8} {entries : List (Nat × Nat)} {addr size : Nat} (h : WellFormed d entries)
include h

theorem WellFormed.layout :
    (header d).offStruct + (header d).sizeStruct ≤ (header d).total ∧
      (header d).offStrings + (header d).sizeStrings ≤ (header d).total ∧
      ((header d).offStruct + (header d).sizeStruct ≤ (header d).offStrings ∨
        (header d).offStrings + (header d).sizeStrings ≤ (header d).offStruct) := by
  have hstruct := h.inside _ (List.mem_cons_of_mem _ List.mem_cons_self)
  have hstrings := h.inside _ (List.mem_cons_of_mem _ (List.mem_cons_of_mem _ List.mem_cons_self))
  have hapart := (List.pairwise_cons.mp (List.pairwise_cons.mp h.apart).2).1 _ List.mem_cons_self
  exact ⟨hstruct, hstrings, hapart⟩

/-- Sizes that add up leave no struct block cut short before the strings. -/
theorem struct_whole (hacc : Accepted d entries addr size) (hfound : StringsFound d entries addr size) :
    (structBlock d).length = (header d).sizeStruct := by
  obtain ⟨hstruct, hstrings, hapart⟩ := h.layout
  obtain ⟨hlength, hlength'⟩ := length_blocks d
  have hsizes := hacc.sizes
  rcases hfound with hbehind | hempty | ⟨hwhole, -⟩
  · omega
  · omega
  · exact hwhole

theorem structBlock_grown (hacc : Accepted d entries addr size) :
    structBlock (grownFront d entries addr size ++ structBlock d ++ stringsBlock d) = structBlock d ↔
      (structBlock d).length = (header d).sizeStruct := by
  obtain ⟨hstruct, hstrings, hapart⟩ := h.layout
  have hfront : (grownFront d entries addr size).length = behindMap d entries := length_grownFront h
  have hsizes := hacc.sizes
  rw [structBlock, List.append_assoc, header_grown h hacc, ← List.append_assoc]
  dsimp only
  constructor
  · intro hsame
    have hlength := congrArg List.length hsame
    rw [length_slice, List.length_append, List.length_append, hfront] at hlength
    omega
  · intro hwhole
    exact slice_middle hfront.symm (by rw [hfront, hwhole])

theorem stringsBlock_grown (hacc : Accepted d entries addr size)
    (hwhole : (structBlock d).length = (header d).sizeStruct) :
    stringsBlock (grownFront d entries addr size ++ structBlock d ++ stringsBlock d) =
      stringsBlock d ↔ StringsFound d entries addr size := by
  obtain ⟨hstruct, hstrings, hapart⟩ := h.layout
  obtain ⟨-, hlength⟩ := length_blocks d
  have hfront : (grownFront d entries addr size).length = behindMap d entries := length_grownFront h
  have hsizes := hacc.sizes
  have hplace := hacc.offStrings
  let place := ((header d).offStrings + shift d entries).toNat
  have hlocated : stringsBlock (grownFront d entries addr size ++ structBlock d ++ stringsBlock d) =
      slice (grownFront d entries addr size ++ structBlock d ++ stringsBlock d) place
        (place + (header d).sizeStrings) := by
    rw [stringsBlock, List.append_assoc, header_grown h hacc]
  rw [hlocated]
  by_cases hempty : (header d).sizeStrings = 0
  · have hnone : stringsBlock d = [] := List.eq_nil_of_length_eq_zero (by omega)
    have hnone' {b : List UInt8} : slice b place (place + (header d).sizeStrings) = [] := by
      rw [hempty, slice, Nat.add_zero, Nat.sub_self, List.take_zero]
    rw [hnone', hnone]
    exact ⟨fun _ => Or.inr (Or.inl hempty), fun _ => rfl⟩
  by_cases hbehind : (header d).offStruct ≤ (header d).offStrings
  · -- sizes that add up put the strings right behind the struct block
    have hpre : place = (grownFront d entries addr size ++ structBlock d).length := by
      rw [List.length_append, hfront, hwhole]
      simp only [place, shift]
      omega
    refine ⟨fun _ => Or.inl hbehind, fun _ => ?_⟩
    conv_lhs => rw [← List.append_nil (stringsBlock d), ← List.append_assoc]
    exact slice_middle hpre (by omega)
  · have hleft : slice (grownFront d entries addr size ++ structBlock d ++ stringsBlock d) place
        (place + (header d).sizeStrings) =
          slice (grownFront d entries addr size) place (place + (header d).sizeStrings) := by
      rw [List.append_assoc]
      apply slice_append_left
      rw [hfront]
      simp only [place, shift]
      rw [shift] at hplace
      omega
    rw [hleft]
    constructor
    · exact fun hsame => Or.inr (Or.inr ⟨hwhole, hsame⟩)
    · rintro (hin | hzero | ⟨-, hsame⟩)
      · exact absurd hin hbehind
      · exact absurd hzero hempty
      · exact hsame

end Blocks

/-- Whatever the tool writes keeps the tree and adds the pair, when and only when the checks it
makes leave the strings where the new header has them. -/
theorem addMemreserve_grows_iff {d : List UInt8} {entries : List (Nat × Nat)} {addr size : Nat}
    (h : WellFormed d entries) (haddr : addr < 2 ^ 64) (hpos : 0 < size) (hsize : size < 2 ^ 64) :
    (∀ out, addMemreserve d addr size = .ok out → Grown d entries addr size out) ↔
      (Accepted d entries addr size → StringsFound d entries addr size) := by
  constructor
  · intro hgrown hacc
    have hout := hgrown _ ((addMemreserve_ok_iff h haddr hpos hsize).mpr ⟨hacc, rfl⟩)
    have hwhole := (structBlock_grown h hacc).mp hout.struct
    exact (stringsBlock_grown h hacc hwhole).mp hout.strings
  · intro hfound out hout
    obtain ⟨hacc, hbytes⟩ := (addMemreserve_ok_iff h haddr hpos hsize).mp hout
    rw [hbytes]
    have hwhole := struct_whole h hacc (hfound hacc)
    have hheader := header_grown h hacc (structBlock d ++ stringsBlock d)
    rw [← List.append_assoc] at hheader
    constructor
    · have hlength : (grownFront d entries addr size).length = behindMap d entries := length_grownFront h
      have htotal := hacc.total
      have hsizes := hacc.sizes
      rw [hheader, List.length_append, List.length_append, hlength]
      dsimp only
      rw [shift] at htotal ⊢
      omega
    · rw [hheader, List.append_assoc]
      exact reserveMap_grown h haddr hpos hsize _
    · intro e he
      have hclear := hacc.clear e he
      rw [overlaps, Bool.and_eq_false_iff, decide_eq_false_iff_not, decide_eq_false_iff_not] at hclear
      omega
    · exact (structBlock_grown h hacc).mpr hwhole
    · exact (stringsBlock_grown h hacc hwhole).mpr (hfound hacc)
    · rw [hheader]

/-- A tree with an empty map, a root node without properties and one property name. -/
def smallTree (total offStruct offStrings : Nat) (rest : List UInt8) : List UInt8 :=
  [0xd00dfeed, total, offStruct, offStrings, 40, 17, 16, 0, 8, 16].flatMap (bigBytes 4) ++
    List.replicate 16 0 ++ rest

def rootNode : List UInt8 := [0, 0, 0, 1, 0, 0, 0, 0, 0, 0, 0, 2, 0, 0, 0, 9]

def statusName : List UInt8 := [115, 116, 97, 116, 117, 115, 0, 0]

theorem struct_first_grown : ∃ out,
    addMemreserve (smallTree 80 56 72 (rootNode ++ statusName)) 0x68100000 0xf0000 = .ok out ∧
      Grown (smallTree 80 56 72 (rootNode ++ statusName)) [] 0x68100000 0xf0000 out := by
  have hform : WellFormed (smallTree 80 56 72 (rootNode ++ statusName)) [] := by
    constructor <;> decide +kernel
  refine ⟨_, rfl, (addMemreserve_grows_iff hform (by decide) (by decide) (by decide)).mpr ?_ _ rfl⟩
  exact fun _ => Or.inl (by decide +kernel)

/-- Eight bytes of padding stand for the strings in the length check. -/
theorem strings_first_lost :
    WellFormed (smallTree 88 64 56 (statusName ++ rootNode ++ List.replicate 8 0)) [] ∧
      ∃ out, addMemreserve (smallTree 88 64 56 (statusName ++ rootNode ++ List.replicate 8 0))
          0x68100000 0xf0000 = .ok out ∧
        ¬Grown (smallTree 88 64 56 (statusName ++ rootNode ++ List.replicate 8 0)) [] 0x68100000
          0xf0000 out := by
  constructor
  · constructor <;> decide +kernel
  · refine ⟨_, rfl, fun h => ?_⟩
    exact absurd h.strings (by decide +kernel)

end Taq102.Tools
