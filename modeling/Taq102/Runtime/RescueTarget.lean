import Mathlib.Data.List.Perm.Basic
import Taq102.Lib.CString

/-! Which disk the rescue request is written to (`emmc_device_at` of `reboot_target.c`). -/
namespace Taq102.Runtime
open Taq102.Lib

def pathMax : Nat := 4096

/-- A `start` file: whether it opens, the reads that are interrupted first, and what the read after
them returns, none where it fails. -/
structure StartFile where
  opens : Bool
  interrupted : Nat
  text : Option CStr
  deriving DecidableEq, Repr

/-- An entry of the directory of block devices. -/
structure BlockEntry where
  name : CStr
  start : StartFile
  named : name.length ≤ 255 ∧ 0 ∉ name
  short : ∀ text ∈ start.text, text.length ≤ 63

/-- A directory as it is read: its entries in some order, and whether reading it fails after. -/
structure BlockDirectory where
  entries : List BlockEntry
  error : Bool

/-- The name of the disk that a name of the form `mmcblk<digits>p<digits>` is a partition of. -/
def partitionParent (name : CStr) : Option CStr :=
  if name.take 6 ≠ cstr "mmcblk" then none
  else
    let p := name.drop 6
    if p.takeWhile isDigit = [] then none
    else
      let parent := name.take (6 + (p.takeWhile isDigit).length)
      match p.dropWhile isDigit with
      | 112 :: p =>
        if p.takeWhile isDigit = [] then none
        else if p.dropWhile isDigit ≠ [] then none
        else some parent
      | _ => none

/-- The read, again while it is interrupted. -/
def readRetry (result : Option CStr) : Nat → Option CStr
  | 0 => result
  | n + 1 => readRetry result n

section Resolve
variable (scan : CStr → Option (Nat × CStr))

/-- The number in a `start` file, read by `scan`: the value of `%llu` and the text after it. -/
def startSector (file : StartFile) : Option Nat :=
  if file.opens = false then none
  else
    match readRetry file.text file.interrupted with
    | none => none
    | some value =>
      if value.length = 0 ∨ value.length = 63 then none
      else
        match scan (cut value) with
        | none => none
        | some (start, rest) => if rest.dropWhile isSpace ≠ [] then none else some start

def startPath (sysBlockRoot : CStr) (name : CStr) : CStr :=
  sysBlockRoot ++ cstr "/" ++ name ++ cstr "/start"

/-- One entry: the disk found so far, or none where the search fails. -/
def entryStep (sysBlockRoot : CStr) (found : CStr) (entry : BlockEntry) : Option CStr :=
  match partitionParent entry.name with
  | none => some found
  | some parent =>
    if pathMax ≤ (startPath sysBlockRoot entry.name).length then none
    else
      match startSector scan entry.start with
      | none => none
      | some start =>
        if start ≠ 4867072 then some found
        else if found ≠ [] then none
        else some parent

/-- The result and the output. -/
def emmcDeviceAt (sysBlockRoot devRoot : Option CStr) (dir : Option BlockDirectory) (n : Nat) :
    Int × CStr :=
  if n = 0 then (-1, [])
  else
    match sysBlockRoot, devRoot, dir with
    | some sysBlockRoot, some devRoot, some dir =>
      match dir.entries.foldlM (entryStep scan sysBlockRoot) [] with
      | none => (-1, [])
      | some found =>
        if dir.error ∨ found = [] then (-1, [])
        else
          let name := devRoot ++ cstr "/" ++ found
          if n ≤ name.length then (-1, []) else (0, name)
    | _, _, _ => (-1, [])

end Resolve

/-- `%llu` as documented: white space, a sign, digits; a value too large is the largest, and a sign
negates in 64 bits. -/
def sscanfLlu (text : CStr) : Option (Nat × CStr) :=
  let convert (negative : Bool) (body : CStr) : Option (Nat × CStr) :=
    let digits := body.takeWhile isDigit
    if digits = [] then none
    else
      let size := digitsValue digits
      let value := if 2 ^ 64 ≤ size then 2 ^ 64 - 1 else if negative then (2 ^ 64 - size) % 2 ^ 64 else size
      some (value, body.dropWhile isDigit)
  match text.dropWhile isSpace with
  | 45 :: body => convert true body
  | 43 :: body => convert false body
  | body => convert false body

/-- The name of a partition and of its disk. -/
structure PartitionOf (name parent : CStr) : Prop where
  form : ∃ disk part, disk ≠ [] ∧ part ≠ [] ∧ (∀ c ∈ disk, isDigit c = true) ∧
    (∀ c ∈ part, isDigit c = true) ∧ parent = cstr "mmcblk" ++ disk ∧ name = parent ++ 112 :: part

theorem mem_takeWhile_digit {text : CStr} : ∀ c ∈ text.takeWhile isDigit, isDigit c = true :=
  fun _ hc => List.mem_takeWhile_imp hc

theorem digits_of_dropWhile {text : CStr} (h : text.dropWhile isDigit = []) :
    text.takeWhile isDigit = text := by
  have hsplit := List.takeWhile_append_dropWhile (p := isDigit) (l := text)
  rw [h, List.append_nil] at hsplit
  exact hsplit

/-- The matcher accepts the names of partitions, and gives their disks. -/
theorem partitionParent_iff (name parent : CStr) :
    partitionParent name = some parent ↔ PartitionOf name parent := by
  have hlen : (cstr "mmcblk").length = 6 := by decide
  have hp : isDigit 112 = false := by decide
  constructor
  · intro h
    rw [partitionParent] at h
    split at h
    · cases h
    rename_i hprefix
    have hprefix' : name.take 6 = cstr "mmcblk" := not_not.mp hprefix
    by_cases hdisk : (name.drop 6).takeWhile isDigit = []
    · rw [if_pos hdisk] at h
      cases h
    rw [if_neg hdisk] at h
    split at h
    · rename_i part hrest
      by_cases hpart : part.takeWhile isDigit = []
      · rw [if_pos hpart] at h
        cases h
      rw [if_neg hpart] at h
      by_cases hend : part.dropWhile isDigit = []
      · rw [if_neg (not_not.mpr hend), Option.some_inj] at h
        have hname : name = cstr "mmcblk" ++ ((name.drop 6).takeWhile isDigit ++ 112 :: part) := by
          rw [← hrest, List.takeWhile_append_dropWhile, ← hprefix', List.take_append_drop]
        have hparent : parent = cstr "mmcblk" ++ (name.drop 6).takeWhile isDigit := by
          rw [← h, List.take_add, hprefix']
          congr 1
          exact (List.prefix_iff_eq_take.mp (List.takeWhile_prefix isDigit)).symm
        refine ⟨⟨_, part, hdisk, ?_, mem_takeWhile_digit, ?_, hparent, ?_⟩⟩
        · intro hnil
          rw [hnil] at hpart
          exact hpart rfl
        · rw [← digits_of_dropWhile hend]
          exact mem_takeWhile_digit
        · rw [hparent, List.append_assoc]
          exact hname
      · rw [if_pos hend] at h
        cases h
    · cases h
  · rintro ⟨disk, part, hdisk, hpart, hdigits, hdigits', rfl, rfl⟩
    have hstop : ∀ c ∈ (112 :: part).head?, isDigit c = false := by
      intro c hc
      cases hc
      exact hp
    have hall : part.takeWhile isDigit = part := List.takeWhile_eq_self_iff.mpr hdigits'
    have hnone : part.dropWhile isDigit = [] := List.dropWhile_eq_nil_iff.mpr hdigits'
    have htake : (cstr "mmcblk" ++ disk ++ 112 :: part).take 6 = cstr "mmcblk" := by
      rw [List.append_assoc, ← hlen, List.take_left]
    have hdrop : (cstr "mmcblk" ++ disk ++ 112 :: part).drop 6 = disk ++ 112 :: part := by
      rw [List.append_assoc, ← hlen, List.drop_left]
    have hparent : (cstr "mmcblk" ++ disk ++ 112 :: part).take (6 + disk.length) =
        cstr "mmcblk" ++ disk := by
      rw [← hlen, ← List.length_append, List.take_left]
    rw [partitionParent, if_neg (not_not.mpr htake)]
    simp only [hdrop, takeWhile_append_of_stop hdigits hstop, dropWhile_append_of_stop hdigits hstop,
      hall, hnone, if_neg hdisk, if_neg hpart, hparent]
    rfl

theorem PartitionOf.unique {name p q : CStr} (hp : PartitionOf name p) (hq : PartitionOf name q) :
    p = q := by
  have hsome := (partitionParent_iff name p).mpr hp
  rw [(partitionParent_iff name q).mpr hq] at hsome
  exact (Option.some_inj.mp hsome).symm

theorem PartitionOf.ne_nil {name parent : CStr} (h : PartitionOf name parent) : parent ≠ [] := by
  obtain ⟨disk, part, hdisk, _, _, _, rfl, _⟩ := h.form
  exact fun hnil => hdisk (List.append_eq_nil_iff.mp hnil).2

section Search
variable (scan : CStr → Option (Nat × CStr))

/-- A `start` file that opens and holds the one number `start`. -/
structure HoldsStart (file : StartFile) (start : Nat) : Prop where
  opens : file.opens = true
  text : ∃ text rest, file.text = some text ∧ 1 ≤ text.length ∧ text.length ≤ 62 ∧
    scan (cut text) = some (start, rest) ∧ ∀ c ∈ rest, isSpace c = true

theorem readRetry_eq (result : Option CStr) (n : Nat) : readRetry result n = result := by
  induction n with
  | zero => rfl
  | succ n ih => exact ih

theorem startSector_iff (entry : BlockEntry) (start : Nat) :
    startSector scan entry.start = some start ↔ HoldsStart scan entry.start start := by
  rw [startSector, readRetry_eq]
  constructor
  · intro h
    split at h
    · cases h
    rename_i hopens
    split at h
    · cases h
    rename_i text htext
    have hshort := entry.short text htext
    split at h
    · cases h
    rename_i hlength
    split at h
    · cases h
    rename_i value rest hscan
    split at h
    · cases h
    rename_i hrest
    cases h
    have hspace := List.dropWhile_eq_nil_iff.mp (not_not.mp hrest)
    exact ⟨by simpa using hopens, text, rest, htext, by omega, by omega, hscan, hspace⟩
  · rintro ⟨hopens, text, rest, htext, hlow, hhigh, hscan, hspace⟩
    have hrest : rest.dropWhile isSpace = [] := List.dropWhile_eq_nil_iff.mpr hspace
    have hlength : ¬ (text.length = 0 ∨ text.length = 63) := by omega
    simp only [hopens, htext, if_neg hlength, hscan, hrest]
    rfl

variable (root : CStr)

/-- A partition whose start can be read. -/
def Readable (entry : BlockEntry) : Prop :=
  ∀ parent, PartitionOf entry.name parent →
    (startPath root entry.name).length < pathMax ∧ ∃ start, HoldsStart scan entry.start start

/-- The partition that holds the rescue request, and its disk. -/
structure Rescue (entry : BlockEntry) (parent : CStr) : Prop where
  name : PartitionOf entry.name parent
  start : HoldsStart scan entry.start 4867072

variable {scan}

theorem HoldsStart.unique {file : StartFile} {a b : Nat} (ha : HoldsStart scan file a)
    (hb : HoldsStart scan file b) : a = b := by
  obtain ⟨text, rest, htext, _, _, hscan, _⟩ := ha.text
  obtain ⟨text', rest', htext', _, _, hscan', _⟩ := hb.text
  cases htext.symm.trans htext'
  cases hscan.symm.trans hscan'
  rfl

/-- What an entry does to the search: it leaves the disk found so far, is the rescue partition, or
fails the search. -/
theorem entryStep_cases (entry : BlockEntry) :
    (Readable scan root entry ∧ (∀ parent, ¬ Rescue scan entry parent) ∧
        ∀ found, entryStep scan root found entry = some found) ∨
      (Readable scan root entry ∧ ∃ parent, Rescue scan entry parent ∧
        ∀ found, entryStep scan root found entry = if found ≠ [] then none else some parent) ∨
      (¬ Readable scan root entry ∧ ∀ found, entryStep scan root found entry = none) := by
  rcases hname : partitionParent entry.name with _ | parent
  · have hother (parent : CStr) : ¬ PartitionOf entry.name parent := by
      intro h
      rw [(partitionParent_iff entry.name parent).mpr h] at hname
      cases hname
    refine .inl ⟨fun parent h => absurd h (hother parent), fun parent h => hother parent h.name,
      fun found => ?_⟩
    rw [entryStep, hname]
  · have hpartition := (partitionParent_iff entry.name parent).mp hname
    by_cases hpath : pathMax ≤ (startPath root entry.name).length
    · refine .inr (.inr ⟨fun h => ?_, fun found => ?_⟩)
      · exact absurd (h parent hpartition).1 (Nat.not_lt.mpr hpath)
      · rw [entryStep, hname]
        exact if_pos hpath
    · rcases hstart : startSector scan entry.start with _ | start
      · refine .inr (.inr ⟨fun h => ?_, fun found => ?_⟩)
        · obtain ⟨start, hholds⟩ := (h parent hpartition).2
          rw [(startSector_iff scan entry start).mpr hholds] at hstart
          cases hstart
        · simp only [entryStep, hname, if_neg hpath, hstart]
      · have hholds := (startSector_iff scan entry start).mp hstart
        have hreadable : Readable scan root entry := fun _ _ => ⟨Nat.not_le.mp hpath, start, hholds⟩
        by_cases hrescue : start = 4867072
        · refine .inr (.inl ⟨hreadable, parent, ⟨hpartition, hrescue ▸ hholds⟩, fun found => ?_⟩)
          simp only [entryStep, hname, if_neg hpath, hstart, if_neg (not_not.mpr hrescue)]
        · refine .inl ⟨hreadable, fun _ h => hrescue (hholds.unique h.start), fun found => ?_⟩
          simp only [entryStep, hname, if_neg hpath, hstart, if_pos hrescue]

variable {root}

/-- Exactly one of the entries is the rescue partition, on this disk. -/
def OnlyRescue (scan : CStr → Option (Nat × CStr)) (entries : List BlockEntry) (parent : CStr) : Prop :=
  ∃ before entry after, entries = before ++ entry :: after ∧ Rescue scan entry parent ∧
    ∀ other ∈ before ++ after, ∀ p, ¬ Rescue scan other p

theorem onlyRescue_cons {entry : BlockEntry} {rest : List BlockEntry} {parent : CStr} :
    OnlyRescue scan (entry :: rest) parent ↔
      (Rescue scan entry parent ∧ ∀ other ∈ rest, ∀ p, ¬ Rescue scan other p) ∨
        (∀ p, ¬ Rescue scan entry p) ∧ OnlyRescue scan rest parent := by
  constructor
  · rintro ⟨before, found, after, hsplit, hrescue, hothers⟩
    cases before with
    | nil =>
      cases hsplit
      exact .inl ⟨hrescue, hothers⟩
    | cons first before =>
      cases hsplit
      exact .inr ⟨hothers entry List.mem_cons_self, before, found, after, rfl, hrescue,
        fun other hmem => hothers other (List.mem_cons_of_mem entry hmem)⟩
  · rintro (⟨hrescue, hothers⟩ | ⟨hnone, before, found, after, rfl, hrescue, hothers⟩)
    · exact ⟨[], entry, rest, rfl, hrescue, hothers⟩
    · refine ⟨entry :: before, found, after, rfl, hrescue, fun other hmem => ?_⟩
      rcases List.mem_cons.mp hmem with rfl | hmem
      · exact hnone
      · exact hothers other hmem

theorem Rescue.unique {entry : BlockEntry} {p q : CStr} (hp : Rescue scan entry p)
    (hq : Rescue scan entry q) : p = q := hp.name.unique hq.name

/-- What the loop finds. -/
theorem foldlM_entryStep (entries : List BlockEntry) (found result : CStr) :
    entries.foldlM (entryStep scan root) found = some result ↔
      (∀ entry ∈ entries, Readable scan root entry) ∧
        ((result = found ∧ ∀ entry ∈ entries, ∀ parent, ¬ Rescue scan entry parent) ∨
          found = [] ∧ OnlyRescue scan entries result) := by
  induction entries generalizing found with
  | nil =>
    rw [List.foldlM_nil]
    constructor
    · intro h
      cases h
      exact ⟨List.forall_mem_nil _, .inl ⟨rfl, List.forall_mem_nil _⟩⟩
    · rintro ⟨_, ⟨rfl, _⟩ | ⟨_, before, entry, after, hsplit, _⟩⟩
      · rfl
      · exact absurd hsplit (by simp)
  | cons entry rest ih =>
    rw [List.foldlM_cons, List.forall_mem_cons, List.forall_mem_cons, onlyRescue_cons]
    rcases entryStep_cases root entry with
      ⟨hreadable, hother, hstep⟩ | ⟨hreadable, parent, hrescue, hstep⟩ | ⟨hbad, hstep⟩
    · have hnot : ¬ Rescue scan entry result := hother result
      rw [hstep]
      refine (ih found).trans ?_
      tauto
    · rw [hstep]
      by_cases hfound : found = []
      · rw [if_neg (not_not.mpr hfound)]
        refine (ih parent).trans ?_
        have hne := hrescue.name.ne_nil
        constructor
        · rintro ⟨hrest, ⟨rfl, hothers⟩ | ⟨hnil, _⟩⟩
          · exact ⟨⟨hreadable, hrest⟩, .inr ⟨hfound, .inl ⟨hrescue, hothers⟩⟩⟩
          · exact absurd hnil hne
        · rintro ⟨⟨_, hrest⟩, ⟨_, hnone, _⟩ | ⟨_, ⟨hresult, hothers⟩ | ⟨hnone, _⟩⟩⟩
          · exact absurd hrescue (hnone parent)
          · exact ⟨hrest, .inl ⟨hresult.unique hrescue, hothers⟩⟩
          · exact absurd hrescue (hnone parent)
      · rw [if_pos hfound]
        constructor
        · intro h
          cases h
        · rintro ⟨_, ⟨_, hnone, _⟩ | ⟨hnil, _⟩⟩
          · exact absurd hrescue (hnone parent)
          · exact absurd hnil hfound
    · rw [hstep]
      constructor
      · intro h
        cases h
      · intro h
        exact absurd h.1.1 hbad

theorem OnlyRescue.perm {entries entries' : List BlockEntry} (hperm : entries.Perm entries')
    {parent : CStr} (h : OnlyRescue scan entries parent) : OnlyRescue scan entries' parent := by
  obtain ⟨before, entry, after, rfl, hrescue, hothers⟩ := h
  obtain ⟨before', after', rfl⟩ := List.append_of_mem (hperm.subset (by simp : entry ∈ _))
  refine ⟨before', entry, after', rfl, hrescue, fun other hmem => hothers other ?_⟩
  have hrest : (before ++ after).Perm (before' ++ after') := by
    apply List.Perm.cons_inv (a := entry)
    exact List.perm_middle.symm.trans (hperm.trans List.perm_middle)
  exact hrest.symm.subset hmem

end Search

/-- The disk is found: the directory is read to its end, every partition in it has a readable start
and a path that fits, exactly one is the rescue partition, and the name fits the output. -/
structure Resolves (scan : CStr → Option (Nat × CStr)) (root devRoot : CStr) (dir : BlockDirectory)
    (n : Nat) (parent : CStr) : Prop where
  read : dir.error = false
  readable : ∀ entry ∈ dir.entries, Readable scan root entry
  only : OnlyRescue scan dir.entries parent
  fits : (devRoot ++ cstr "/" ++ parent).length < n

section Result
variable {scan : CStr → Option (Nat × CStr)} {root devRoot : CStr} {dir : BlockDirectory} {n : Nat}
  {parent : CStr}

theorem Resolves.perm {dir' : BlockDirectory} (hperm : dir.entries.Perm dir'.entries)
    (herror : dir'.error = dir.error) (h : Resolves scan root devRoot dir n parent) :
    Resolves scan root devRoot dir' n parent :=
  ⟨herror.trans h.read, fun entry hmem => h.readable entry (hperm.symm.subset hmem),
    h.only.perm hperm, h.fits⟩

theorem emmcDeviceAt_of_resolves (h : Resolves scan root devRoot dir n parent) :
    emmcDeviceAt scan (some root) (some devRoot) (some dir) n =
      (0, devRoot ++ cstr "/" ++ parent) := by
  have hfits := h.fits
  have hfound := (foldlM_entryStep dir.entries [] parent).mpr ⟨h.readable, .inr ⟨rfl, h.only⟩⟩
  have hn : ¬ n = 0 := by omega
  obtain ⟨before, entry, after, _, hrescue, _⟩ := h.only
  have hne : ¬ (dir.error = true ∨ parent = []) := by
    rintro (herror | hnil)
    · rw [h.read] at herror
      cases herror
    · exact hrescue.name.ne_nil hnil
  simp only [emmcDeviceAt, if_neg hn, hfound, if_neg hne, if_neg (Nat.not_le.mpr hfits)]

theorem emmcDeviceAt_of_not (h : ¬ ∃ parent, Resolves scan root devRoot dir n parent) :
    emmcDeviceAt scan (some root) (some devRoot) (some dir) n = (-1, []) := by
  rw [emmcDeviceAt]
  split
  · rfl
  rcases hfold : dir.entries.foldlM (entryStep scan root) [] with _ | found
  · rfl
  · obtain ⟨hreadable, ⟨rfl, _⟩ | ⟨_, honly⟩⟩ := (foldlM_entryStep dir.entries [] found).mp hfold
    · exact if_pos (.inr rfl)
    · by_cases hend : dir.error = true ∨ found = []
      · exact if_pos hend
      · refine (if_neg hend).trans (if_pos ?_)
        by_contra hfits
        refine h ⟨found, ?_, hreadable, honly, Nat.not_le.mp hfits⟩
        exact Bool.eq_false_iff.mpr fun herror => hend (.inl herror)

end Result

/-- The name of a disk is given for the one rescue partition and for nothing else, and the order
of the entries does not matter. -/
theorem emmcDeviceAt_iff (scan : CStr → Option (Nat × CStr)) (root devRoot : CStr)
    (dir : BlockDirectory) (n : Nat) :
    (∀ out, emmcDeviceAt scan (some root) (some devRoot) (some dir) n = (0, out) ↔
        ∃ parent, Resolves scan root devRoot dir n parent ∧ out = devRoot ++ cstr "/" ++ parent) ∧
      ((¬ ∃ parent, Resolves scan root devRoot dir n parent) →
        emmcDeviceAt scan (some root) (some devRoot) (some dir) n = (-1, [])) ∧
      ∀ entries, dir.entries.Perm entries →
        emmcDeviceAt scan (some root) (some devRoot) (some { dir with entries := entries }) n =
          emmcDeviceAt scan (some root) (some devRoot) (some dir) n := by
  refine ⟨fun out => ⟨fun h => ?_, ?_⟩, emmcDeviceAt_of_not, fun entries hperm => ?_⟩
  · by_cases hresolves : ∃ parent, Resolves scan root devRoot dir n parent
    · obtain ⟨parent, hparent⟩ := hresolves
      rw [emmcDeviceAt_of_resolves hparent] at h
      exact ⟨parent, hparent, (congrArg Prod.snd h).symm⟩
    · rw [emmcDeviceAt_of_not hresolves] at h
      have hcode : (-1 : Int) = 0 := congrArg Prod.fst h
      omega
  · rintro ⟨parent, hparent, rfl⟩
    exact emmcDeviceAt_of_resolves hparent
  · by_cases hresolves : ∃ parent, Resolves scan root devRoot dir n parent
    · obtain ⟨parent, hparent⟩ := hresolves
      have hsame : Resolves scan root devRoot { dir with entries := entries } n parent :=
        Resolves.perm hperm rfl hparent
      rw [emmcDeviceAt_of_resolves hparent, emmcDeviceAt_of_resolves hsame]
    · have hother : ¬ ∃ parent, Resolves scan root devRoot { dir with entries := entries } n parent := by
        rintro ⟨parent, hparent⟩
        have herror : dir.error = ({ dir with entries := entries } : BlockDirectory).error := rfl
        exact hresolves ⟨parent, Resolves.perm hperm.symm herror hparent⟩
      rw [emmcDeviceAt_of_not hresolves, emmcDeviceAt_of_not hother]

/-- An entry whose `start` file holds this text, read after an interruption. -/
def blockEntry (name text : String) (hname : (cstr name).length ≤ 255 ∧ 0 ∉ cstr name)
    (htext : (cstr text).length ≤ 63) : BlockEntry where
  name := cstr name
  start := { opens := true, interrupted := 1, text := some (cstr text) }
  named := hname
  short _ hmem := Option.some_inj.mp hmem ▸ htext

/-- The rescue partition among the disk itself, another partition and another kind of device, in
two orders. -/
theorem rescue_disk_found :
    let disk := blockEntry "mmcblk12" "0\n" (by decide) (by decide)
    let boot := blockEntry "mmcblk12p2" " 16384\n" (by decide) (by decide)
    let rescue := blockEntry "mmcblk12p3" "4867072\n" (by decide) (by decide)
    let other := blockEntry "mmcblk1boot0" "x" (by decide) (by decide)
    emmcDeviceAt sscanfLlu (some (cstr "/sys/class/block")) (some (cstr "/dev"))
        (some { entries := [other, rescue, disk, boot], error := false }) 32 =
      (0, cstr "/dev/mmcblk12") := by
  intro disk boot rescue other
  let dir : BlockDirectory := { entries := [disk, boot, rescue, other], error := false }
  have hperm : dir.entries.Perm [other, rescue, disk, boot] :=
    (@List.perm_append_comm _ [disk, boot] [rescue, other]).trans (.swap other rescue [disk, boot])
  rw [(emmcDeviceAt_iff sscanfLlu (cstr "/sys/class/block") (cstr "/dev") dir 32).2.2 _ hperm]
  decide

end Taq102.Runtime
