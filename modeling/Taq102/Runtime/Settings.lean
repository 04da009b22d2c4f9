import Mathlib.Data.List.TakeWhile
import Mathlib.Logic.Function.Basic
import Taq102.Lib.CString

/-! The preferences and their file (`settings.c`, `settings_store.c`): the lenient reader, and the
writer that replaces the file as a whole. -/
namespace Taq102.Runtime
open Taq102.Lib

structure Settings where
  brightnessAuto : Int
  brightness : Int
  sleepMinutes : Int
  deriving DecidableEq, Repr

/-- The preferences a line can name. -/
inductive Key where
  | brightnessAuto
  | brightness
  | sleepMinutes
  deriving DecidableEq, Repr

def Key.name : Key → CStr
  | .brightnessAuto => cstr "brightness_auto"
  | .brightness => cstr "brightness"
  | .sleepMinutes => cstr "sleep_minutes"

def Key.default : Key → Int
  | .brightnessAuto => 1
  | .brightness => 200
  | .sleepMinutes => 5

def settingsDefaults : Settings :=
  { brightnessAuto := Key.default .brightnessAuto
    brightness := Key.default .brightness
    sleepMinutes := Key.default .sleepMinutes }

def settingsValidSleep (minutes : Int) : Bool :=
  minutes = 0 || minutes = 1 || minutes = 5 || minutes = 15

/-- The range of a value that `parseInteger` accepted. -/
def Key.accepts (value : Int) : Key → Bool
  | .brightnessAuto => value ≤ 1
  | .brightness => 8 ≤ value
  | .sleepMinutes => settingsValidSleep value

def Settings.set (s : Settings) (value : Int) : Key → Settings
  | .brightnessAuto => { s with brightnessAuto := value }
  | .brightness => { s with brightness := value }
  | .sleepMinutes => { s with sleepMinutes := value }

def Settings.get (s : Settings) : Key → Int
  | .brightnessAuto => s.brightnessAuto
  | .brightness => s.brightness
  | .sleepMinutes => s.sleepMinutes

/-- The text without one leading byte, if it is there. -/
def skipByte (c : UInt8) (text : CStr) : CStr := if text.head? = some c then text.tail else text

def parseInteger (text : CStr) : Option Int :=
  let parsed := strtol text
  if ¬ parsed.found ∨ parsed.range ∨ parsed.value < 0 ∨ 255 < parsed.value then none
  else if skipByte 10 (skipByte 13 parsed.rest) = [] then some parsed.value
  else none

/-- The value a line gives a preference. -/
def Key.read (key : Key) (text : CStr) : Int :=
  match parseInteger text with
  | some value => if key.accepts value then value else key.default
  | none => key.default

def keyNamed (name : CStr) : Option Key :=
  if name = Key.name .brightnessAuto then some .brightnessAuto
  else if name = Key.name .brightness then some .brightness
  else if name = Key.name .sleepMinutes then some .sleepMinutes
  else none

def applyLine (s : Settings) (line : CStr) : Settings :=
  match line.dropWhile (· ≠ 61) with
  | [] => s
  | _ :: text =>
    if 61 ∈ text then s
    else match keyNamed (line.takeWhile (· ≠ 61)) with
      | none => s
      | some key => s.set (key.read text) key

/-- The lines of the file, one `fgets` at a time: a line that does not fit is skipped. -/
def loadLines : Nat → CStr → Settings → Settings
  | 0, _, s => s
  | fuel + 1, file, s =>
    if file = [] then s
    else
      let got := fgets 255 file
      let line := cut got.line
      if line ≠ [] ∧ line.getLast? ≠ some 10 ∧ got.eof = false then
        loadLines fuel (skipLine got.rest) s
      else loadLines fuel got.rest (applyLine s line)

/-- The preferences in a file that can be read. -/
def settingsParse (file : CStr) : Settings := loadLines file.length file settingsDefaults

/-- The contents of the files by their paths. -/
abbrev Files := CStr → Option CStr

/-- How opening and reading the file goes. -/
inductive LoadEnv where
  | works
  | cannotOpen
  | readError
  deriving DecidableEq, Repr

/-- The preferences, and the error of a load that failed: whether it is `ENOENT`. -/
def settingsLoad (path : CStr) (files : Files) (e : LoadEnv) : Settings × Except Bool Unit :=
  match files path, e with
  | _, .cannotOpen => (settingsDefaults, .error false)
  | none, _ => (settingsDefaults, .error true)
  | some _, .readError => (settingsDefaults, .error false)
  | some file, .works => (settingsParse file, .ok ())

/-- The text of a preferences file. -/
def contents (s : Settings) : CStr :=
  cstr "brightness_auto=" ++ decimal s.brightnessAuto ++ [10] ++
    (cstr "brightness=" ++ decimal s.brightness ++ [10]) ++
    (cstr "sleep_minutes=" ++ decimal s.sleepMinutes ++ [10])

inductive SaveCall where
  | directory
  | openDirectory
  | getfdDirectory
  | setfdDirectory
  | temporary
  | mkstemp
  | getfd
  | setfd
  | fchmod
  | fsync
  | close
  | rename
  | fsyncDirectory
  | closeDirectory
  deriving DecidableEq, Repr

inductive Written where
  | interrupted
  | error
  | count (n : Nat)
  deriving DecidableEq, Repr

/-- Which of the calls fail, what `mkstemp` leaves in place of the X's, also when it fails, and what
the writes return; those after the last one complete. -/
structure SaveEnv where
  fails : SaveCall → Bool
  suffix : CStr
  writes : List Written

/-- Whether everything was written, and what was. -/
def writeAll : List Written → CStr → Bool × CStr
  | _, [] => (true, [])
  | [], data => (true, data)
  | .interrupted :: rest, data => writeAll rest data
  | .error :: _, _ => (false, [])
  | .count n :: rest, data =>
    if n = 0 then (false, [])
    else
      let more := writeAll rest (data.drop n)
      (more.1, data.take n ++ more.2)

def setCloseOnExec (e : SaveEnv) (getFlags setFlags : SaveCall) : Bool :=
  !e.fails getFlags && !e.fails setFlags

/-- The temporary file is written and takes the place of the file. -/
def replaceFile (text path temporary : CStr) (e : SaveEnv) (files : Files) : Bool × Files :=
  let written := writeAll e.writes text
  let prepared := setCloseOnExec e .getfd .setfd && !e.fails .fchmod
  let stored := prepared && written.1 && !e.fails .fsync && !e.fails .close
  if stored && !e.fails .rename then
    (true, Function.update (Function.update files temporary none) path (some written.2))
  else (false, Function.update files temporary none)

/-- The result and the files. -/
def settingsSave (s : Settings) (path : CStr) (e : SaveEnv) (files : Files) : Int × Files :=
  let temporary := path ++ cstr ".tmp." ++ e.suffix
  if (contents s).length ≥ 128 then (-1, files)
  else if e.fails .directory ∨ e.fails .openDirectory ∨
      setCloseOnExec e .getfdDirectory .setfdDirectory = false ∨ e.fails .temporary then (-1, files)
  else if e.fails .mkstemp ∨ files temporary ≠ none then (-1, Function.update files temporary none)
  else
    let replaced := replaceFile (contents s) path temporary e files
    if replaced.1 && !e.fails .fsyncDirectory && !e.fails .closeDirectory then (0, replaced.2)
    else (-1, replaced.2)

/-- What the directory of the file is found to be: copying the path works, the directory can be
written, and `/data` is a mount point. -/
structure StoreEnv where
  copied : Bool
  writable : Bool
  mounted : Bool
  deriving DecidableEq, Repr

def settingsStoreAvailable (path : CStr) (e : StoreEnv) : Bool :=
  e.copied && e.writable && (path.take 6 ≠ cstr "/data/" || e.mounted)

/-! What the reader makes of what the writer wrote. -/

/-- Values the reader keeps. -/
structure Settings.Loadable (s : Settings) : Prop where
  auto : s.brightnessAuto = 0 ∨ s.brightnessAuto = 1
  brightness : 8 ≤ s.brightness ∧ s.brightness ≤ 255
  sleep : settingsValidSleep s.sleepMinutes = true

theorem decimal_of_nonneg {n : Int} (h : 0 ≤ n) : decimal n = decimalNat n.toNat := by
  have hnat : n.natAbs = n.toNat := by omega
  rw [decimal, if_neg (not_lt.mpr h), List.nil_append, hnat]

theorem digit_ne {n : Int} (h : 0 ≤ n) {c : UInt8} (hc : isDigit c = false) : c ∉ decimal n := by
  intro hmem
  rw [decimal_of_nonneg h] at hmem
  rw [isDigit_decimalNat _ c hmem] at hc
  exact Bool.noConfusion hc

theorem parseInteger_decimal {n : Int} (hlow : 0 ≤ n) (hhigh : n ≤ 255) :
    parseInteger (decimal n ++ [10]) = some n := by
  have hparsed : strtol (decimal n ++ [10]) =
      { found := true, value := n, rest := [10], range := false } := by
    have hlong : n.toNat ≤ longMax := by
      rw [longMax]
      omega
    have hstop : ∀ c ∈ ([10] : CStr).head?, isDigit c = false := by
      intro c hc
      cases hc
      rfl
    rw [decimal_of_nonneg hlow, strtol_decimalNat hlong hstop, Int.toNat_of_nonneg hlow]
  have hrange : ¬ (¬ true = true ∨ false = true ∨ n < 0 ∨ 255 < n) := by
    rintro (h | h | h | h)
    · exact h rfl
    · exact Bool.noConfusion h
    · omega
    · omega
  rw [parseInteger, hparsed]
  exact (if_neg hrange).trans (if_pos rfl)

/-- A value in range is read back from the text of it. -/
theorem Key.read_decimal {key : Key} {n : Int} (hlow : 0 ≤ n) (hhigh : n ≤ 255)
    (haccepts : key.accepts n = true) : key.read (decimal n ++ [10]) = n := by
  rw [Key.read, parseInteger_decimal hlow hhigh]
  exact if_pos haccepts

theorem keyNamed_name (key : Key) : keyNamed key.name = some key := by
  cases key <;> decide +kernel

theorem Key.name_plain (key : Key) : ∀ c ∈ key.name, c ≠ 61 ∧ c ≠ 10 ∧ c ≠ 0 := by
  cases key <;> decide +kernel

theorem Key.name_length (key : Key) : key.name.length ≤ 15 := by
  cases key <;> decide +kernel

theorem applyLine_set {s : Settings} {key : Key} {text : CStr} (htext : 61 ∉ text) :
    applyLine s (key.name ++ 61 :: text) = s.set (key.read text) key := by
  have hname : ∀ c ∈ key.name, decide (c ≠ 61) = true := fun c hc =>
    decide_eq_true (key.name_plain c hc).1
  have hstop : ∀ c ∈ (61 :: text).head?, decide (c ≠ 61) = false := by
    intro c hc
    cases hc
    rfl
  rw [applyLine, dropWhile_append_of_stop hname hstop, takeWhile_append_of_stop hname hstop,
    keyNamed_name]
  exact if_neg htext

/-- One line that fits. -/
theorem loadLines_line {line rest : CStr} {s : Settings} {fuel : Nat} (hend : 10 ∉ line)
    (hzero : 0 ∉ line) (hsize : line.length < 255) :
    loadLines (fuel + 1) (line ++ 10 :: rest) s = loadLines fuel rest (applyLine s (line ++ [10])) := by
  have hcut : cut (line ++ [10]) = line ++ [10] := by
    apply List.takeWhile_eq_self_iff.mpr
    intro c hc
    rcases List.mem_append.mp hc with hin | hin
    · exact decide_eq_true fun heq => hzero (heq ▸ hin)
    · rw [List.mem_singleton.mp hin]
      rfl
  rw [loadLines, if_neg (by simp), fgets_line hend hsize]
  simp only [hcut]
  rw [if_neg]
  rintro ⟨_, hlast, _⟩
  exact hlast (by simp)

/-- The line the writer writes for a preference. -/
theorem loadLines_key {s : Settings} {key : Key} {n : Int} {rest : CStr} {fuel : Nat} (hlow : 0 ≤ n)
    (hhigh : n ≤ 255) (haccepts : key.accepts n = true) :
    loadLines (fuel + 1) ((key.name ++ 61 :: decimal n) ++ 10 :: rest) s =
      loadLines fuel rest (s.set n key) := by
  have hplain (c : UInt8) (hc : isDigit c = false) (hkey : c ∉ key.name) (hsep : c ≠ 61) :
      c ∉ key.name ++ 61 :: decimal n := by
    rw [List.mem_append, List.mem_cons]
    rintro (hin | heq | hin)
    · exact hkey hin
    · exact hsep heq
    · exact digit_ne hlow hc hin
  have hsize : (key.name ++ 61 :: decimal n).length < 255 := by
    have hname := key.name_length
    have hdigits : (decimal n).length ≤ 3 := by
      rw [decimal_of_nonneg hlow]
      exact decimalNat_length (by omega) (by omega)
    rw [List.length_append, List.length_cons]
    omega
  have hsep : (61 : UInt8) ∉ decimal n ++ [10] := by
    rw [List.mem_append]
    rintro (hin | hin)
    · exact digit_ne hlow rfl hin
    · exact absurd (List.mem_singleton.mp hin) (by decide)
  rw [loadLines_line (hplain 10 rfl (fun h => (key.name_plain 10 h).2.1 rfl) (by decide))
    (hplain 0 rfl (fun h => (key.name_plain 0 h).2.2 rfl) (by decide)) hsize, List.append_assoc,
    List.cons_append, applyLine_set hsep, Key.read_decimal hlow hhigh haccepts]

theorem contents_eq (s : Settings) :
    contents s = (Key.name .brightnessAuto ++ 61 :: decimal s.brightnessAuto) ++ 10 ::
      ((Key.name .brightness ++ 61 :: decimal s.brightness) ++ 10 ::
        ((Key.name .sleepMinutes ++ 61 :: decimal s.sleepMinutes) ++ 10 :: [])) := by
  have hauto : cstr "brightness_auto=" = Key.name .brightnessAuto ++ [61] := by decide +kernel
  have hlevel : cstr "brightness=" = Key.name .brightness ++ [61] := by decide +kernel
  have hsleep : cstr "sleep_minutes=" = Key.name .sleepMinutes ++ [61] := by decide +kernel
  rw [contents, hauto, hlevel, hsleep]
  simp only [List.append_assoc, List.cons_append, List.nil_append]

/-- What the writer writes in range, the reader reads back. -/
theorem settingsParse_contents {s : Settings} (h : s.Loadable) : settingsParse (contents s) = s := by
  obtain ⟨hauto, ⟨hlow, hhigh⟩, hsleep⟩ := h
  have hminutes : s.sleepMinutes = 0 ∨ s.sleepMinutes = 1 ∨ s.sleepMinutes = 5 ∨
      s.sleepMinutes = 15 := by
    simpa [settingsValidSleep, or_assoc] using hsleep
  obtain ⟨fuel, hfuel⟩ : ∃ fuel, (contents s).length = fuel + 1 + 1 + 1 := by
    refine ⟨(contents s).length - 3, ?_⟩
    have hlong : 3 ≤ (contents s).length := by
      rw [contents_eq]
      simp only [List.length_append, List.length_cons]
      omega
    omega
  have haccept : Key.accepts s.brightnessAuto .brightnessAuto = true :=
    decide_eq_true (by omega)
  have hlevel : Key.accepts s.brightness .brightness = true := decide_eq_true hlow
  have hvalid : Key.accepts s.sleepMinutes .sleepMinutes = true := hsleep
  rw [settingsParse, hfuel, contents_eq, loadLines_key (by omega) (by omega) haccept,
    loadLines_key (by omega) hhigh hlevel, loadLines_key (by omega) (by omega) hvalid]
  cases fuel <;> rfl

theorem parseInteger_mem {text : CStr} {n : Int} (h : parseInteger text = some n) :
    0 ≤ n ∧ n ≤ 255 := by
  simp only [parseInteger] at h
  split at h
  · cases h
  · rename_i hrange
    split at h
    · cases h
      simp only [not_or] at hrange
      exact ⟨not_lt.mp hrange.2.2.1, not_lt.mp hrange.2.2.2⟩
    · cases h

/-- What the reader may store for a preference. -/
def Key.Holds (n : Int) : Key → Prop
  | .brightnessAuto => n = 0 ∨ n = 1
  | .brightness => 8 ≤ n ∧ n ≤ 255
  | .sleepMinutes => settingsValidSleep n = true

theorem Key.default_holds (key : Key) : key.Holds key.default := by
  cases key
  · exact .inr rfl
  · exact ⟨by decide, by decide⟩
  · rfl

theorem Key.read_holds (key : Key) (text : CStr) : key.Holds (key.read text) := by
  rw [Key.read]
  split
  · rename_i n hn
    obtain ⟨hlow, hhigh⟩ := parseInteger_mem hn
    split
    · rename_i haccepts
      cases key
      · have hle : n ≤ 1 := of_decide_eq_true haccepts
        change n = 0 ∨ n = 1
        omega
      · exact ⟨of_decide_eq_true haccepts, hhigh⟩
      · exact haccepts
    · exact key.default_holds
  · exact key.default_holds

theorem Settings.Loadable.set {s : Settings} (h : s.Loadable) {key : Key} {n : Int}
    (hn : key.Holds n) : (s.set n key).Loadable := by
  cases key
  · exact ⟨hn, h.brightness, h.sleep⟩
  · exact ⟨h.auto, hn, h.sleep⟩
  · exact ⟨h.auto, h.brightness, hn⟩

theorem applyLine_loadable {s : Settings} (h : s.Loadable) (line : CStr) :
    (applyLine s line).Loadable := by
  rw [applyLine]
  split
  · exact h
  · split
    · exact h
    · split
      · exact h
      · exact h.set (Key.read_holds _ _)

theorem loadLines_loadable {s : Settings} (h : s.Loadable) (fuel : Nat) (file : CStr) :
    (loadLines fuel file s).Loadable := by
  induction fuel generalizing file s with
  | zero => exact h
  | succ fuel ih =>
    rw [loadLines]
    split
    · exact h
    · dsimp only
      split
      · exact ih h _
      · exact ih (applyLine_loadable h _) _

theorem settingsDefaults_loadable : settingsDefaults.Loadable :=
  ⟨.inr rfl, ⟨by decide, by decide⟩, rfl⟩

/-- Whatever the file holds, the values are in range. -/
theorem settingsLoad_loadable (path : CStr) (files : Files) (e : LoadEnv) :
    (settingsLoad path files e).1.Loadable := by
  simp only [settingsLoad]
  split
  · exact settingsDefaults_loadable
  · exact settingsDefaults_loadable
  · exact settingsDefaults_loadable
  · exact loadLines_loadable settingsDefaults_loadable _ _

theorem writeAll_count {n : Nat} {rest : List Written} {c : UInt8} {data : CStr} (hn : n ≠ 0) :
    writeAll (.count n :: rest) (c :: data) =
      ((writeAll rest ((c :: data).drop n)).1,
        (c :: data).take n ++ (writeAll rest ((c :: data).drop n)).2) :=
  if_neg hn

theorem writeAll_all {writes : List Written} {data : CStr} (h : (writeAll writes data).1 = true) :
    (writeAll writes data).2 = data := by
  induction writes generalizing data with
  | nil => cases data <;> rfl
  | cons w rest ih =>
    cases data with
    | nil => rfl
    | cons c data =>
      cases w with
      | interrupted => exact ih h
      | error => cases h
      | count n =>
        rcases Nat.eq_zero_or_pos n with rfl | hpos
        · cases h
        · rw [writeAll_count hpos.ne'] at h ⊢
          change (c :: data).take n ++ (writeAll rest ((c :: data).drop n)).2 = c :: data
          rw [ih h, List.take_append_drop]

/-- The file is replaced as a whole. -/
theorem replaceFile_ok {text path temporary : CStr} {e : SaveEnv} {files : Files}
    (h : (replaceFile text path temporary e files).1 = true) :
    (replaceFile text path temporary e files).2 path = some text := by
  rw [replaceFile] at h ⊢
  split at h
  · rename_i hstored
    rw [if_pos hstored]
    simp only [Bool.and_eq_true] at hstored
    exact (Function.update_self ..).trans (congrArg some (writeAll_all hstored.1.1.1.2))
  · cases h

/-- A save that succeeds leaves the text in the file. -/
theorem settingsSave_ok {s : Settings} {path : CStr} {e : SaveEnv} {files : Files}
    (h : (settingsSave s path e files).1 = 0) :
    (settingsSave s path e files).2 path = some (contents s) := by
  have hneg : ¬ (-1 : Int) = 0 := by decide
  simp only [settingsSave] at h ⊢
  split at h
  · exact absurd h hneg
  rw [if_neg ‹_›]
  split at h
  · exact absurd h hneg
  rw [if_neg ‹_›]
  split at h
  · exact absurd h hneg
  rw [if_neg ‹_›]
  split at h
  · rename_i hsynced
    rw [if_pos hsynced]
    simp only [Bool.and_eq_true] at hsynced
    exact replaceFile_ok hsynced.1.1
  · exact absurd h hneg

end Taq102.Runtime
