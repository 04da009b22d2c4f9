import Taq102.Runtime.PowerPolicy

/-! What the status bar and the power policy are told (`status.c`): the attributes below
`/sys/class/power_supply` and the link in `/proc/net/wireless`, and what they read back of the texts
a kernel writes there. -/
namespace Taq102.Runtime
open Taq102.Lib

/-- `read_line` into a buffer of `n` bytes: the text it leaves there, and the result. -/
def readLine (n : Nat) (file : Option CStr) : CStr × Bool :=
  match file with
  | none => ([], false)
  | some text =>
    let got := fgets (n - 1) text
    let out := cut got.line
    if got.line = [] then ([], false)
    else if out.getLast? = some 10 then (out.dropLast, true)
    else (out, got.eof)

def readInt (file : Option CStr) : Option Int :=
  let text := readLine 32 file
  let parsed := strtol text.1
  if text.2 = false then none
  else if parsed.range ∨ ¬ parsed.found ∨ parsed.rest ≠ [] then none
  else some parsed.value

/-- A path below the root; `none` is one that does not fit its buffer. -/
def rootPath (root relative : CStr) : Option CStr :=
  if (root ++ 47 :: relative).length < 256 then some (root ++ 47 :: relative) else none

def readRootInt (files : CStr → Option CStr) (root relative : CStr) : Option Int :=
  (rootPath root relative).bind fun path => readInt (files path)

def readWord (files : CStr → Option CStr) (root : CStr) : Option CStr :=
  (rootPath root (cstr "battery/status")).bind fun path =>
    let text := readLine 16 (files path)
    if text.2 then some text.1 else none

/-- An `online` attribute that was read and is 0 or 1. -/
def onlineRead (value : Option Int) : Bool := value == some 0 || value == some 1

def statusPowerReadAt (st : Status) (root : CStr) (readMs : Int) (files : CStr → Option CStr) :
    Status :=
  let usb := readRootInt files root (cstr "usb/online")
  let ac := readRootInt files root (cstr "ac/online")
  let current := readRootInt files root (cstr "battery/current_now")
  let capacity := readRootInt files root (cstr "battery/capacity")
  let voltage := readRootInt files root (cstr "battery/voltage_now")
  let word := readWord files root
  let onlineValid := onlineRead usb && onlineRead ac
  let capValid := capacity.any fun cap => 0 ≤ cap && cap ≤ 100
  { st with
    usbOnline := usb.getD 0
    acOnline := ac.getD 0
    usbValid := onlineRead usb
    acValid := onlineRead ac
    onlineValid
    -- An unknown supply counts as plugged in.
    plugged := if onlineValid then usb.getD 0 ≠ 0 || ac.getD 0 ≠ 0 else true
    currentUa := current.getD 0
    currentValid := current.isSome
    ma := (current.getD 0).tdiv 1000
    cap := capacity.getD 0
    capValid
    haveBatt := capValid
    mv := (voltage.getD 0).tdiv 1000
    word := word.getD []
    wordValid := word.isSome
    readMs }

/-- The text from the first place where `needle` is. -/
def strstr (needle : CStr) : CStr → Option CStr
  | [] => if needle = [] then some [] else none
  | c :: text => if needle <+: c :: text then some (c :: text) else strstr needle text

def isHexDigit (c : UInt8) : Bool := isDigit c || (65 ≤ c && c ≤ 70) || (97 ≤ c && c ≤ 102)

/-- The text after a `%x` of `sscanf`. -/
def scanHex (text : CStr) : Option CStr :=
  let signed := text.dropWhile isSpace
  let body := if signed.head? = some 43 ∨ signed.head? = some 45 then signed.tail else signed
  let digits := if body.take 2 = [48, 120] ∨ body.take 2 = [48, 88] then body.drop 2 else body
  if digits.takeWhile isHexDigit = [] then none else some (digits.dropWhile isHexDigit)

/-- The value of a `%d` of `sscanf`, and the text after it. -/
def scanInt (text : CStr) : Option (Int × CStr) :=
  let parsed := strtol text
  if parsed.found then some (parsed.value, parsed.rest) else none

/-- `sscanf` with `" %*x %d. %d."`, where it converts both numbers. -/
def scanLink (text : CStr) : Option (Int × Int) := do
  let text ← scanHex text
  let (q, text) ← scanInt text
  if text.head? = some 46 then
    let (l, _) ← scanInt text.tail
    some (q, l)
  else none

/-- What a line of `/proc/net/wireless` tells of `wlan0`. -/
def lineLink (line : CStr) : Option (Int × Int) :=
  ((strstr (cstr "wlan0:") line).bind fun text => scanLink (text.drop 6)).filter fun link => -100 < link.2

/-- The loop over the lines, with the buffer of 256 bytes: the last line that tells of a link. -/
def linkLoop : Nat → CStr → Option (Int × Int) → Option (Int × Int)
  | 0, _, link => link
  | fuel + 1, file, link =>
    if file = [] then link
    else
      let got := fgets 255 file
      linkLoop fuel got.rest ((lineLink (cut got.line)).or link)

/-- `read_wifi` on a sample that is still all zeros, for the address of the interface, where it has
one, and the contents of `/proc/net/wireless`. -/
def readWifi (st : Status) (address wireless : Option CStr) : Status :=
  let link := wireless.bind fun file => linkLoop file.length file none
  { st with
    addr := snprintf 64 (address.getD (cstr "NO WIFI YET"))
    haveWifi := link.isSome
    quality := (link.map Prod.fst).getD st.quality
    level := (link.map Prod.snd).getD st.level }

/-- A sample that was cleared. -/
def clearedStatus : Status where
  haveBatt := false
  cap := 0
  mv := 0
  ma := 0
  plugged := false
  word := []
  haveWifi := false
  level := 0
  quality := 0
  addr := []
  usbOnline := 0
  acOnline := 0
  usbValid := false
  acValid := false
  onlineValid := false
  currentUa := 0
  currentValid := false
  capValid := false
  wordValid := false
  readMs := 0

/-- What `status_read` finds: the address of the interface, where it has one, the contents of
`/proc/net/wireless`, the files below a root, and the time. -/
structure StatusEnv where
  address : Option CStr
  wireless : Option CStr
  files : CStr → Option CStr
  readMs : Int

def statusRead (e : StatusEnv) : Status :=
  statusPowerReadAt (readWifi clearedStatus e.address e.wireless) (cstr "/sys/class/power_supply") e.readMs
    e.files

def statusWifiBars (st : Status) : Nat :=
  if ¬ st.haveWifi then 0 else if st.level ≥ -55 then 3 else if st.level ≥ -70 then 2 else 1

/-! What is read back of the attributes. -/

section Lines
variable {n : Nat} {line rest : CStr}

theorem readLine_line (hline : 10 ∉ line) (hzero : 0 ∉ line) (hsize : line.length + 1 < n) :
    readLine n (some (line ++ 10 :: rest)) = (line, true) := by
  have hgot : fgets (n - 1) (line ++ 10 :: rest) = { line := line ++ [10], rest, eof := false } :=
    fgets_line hline (by omega)
  have hplain : cut (line ++ [10]) = line ++ [10] :=
    cut_plain fun h => (List.mem_append.mp h).elim hzero (by decide)
  rw [readLine, hgot]
  dsimp only
  rw [hplain, if_neg (by simp), if_pos List.getLast?_concat, List.dropLast_concat]

/-- A line that fills the buffer is refused. -/
theorem readLine_long (hline : 10 ∉ line) (hsize : n - 1 ≤ line.length) :
    (readLine n (some (line ++ rest))).2 = false := by
  have hlast : (cut (line.take (n - 1))).getLast? ≠ some 10 := fun h =>
    hline (List.mem_of_mem_take (cut_subset _ (List.mem_of_getLast? h)))
  rw [readLine, fgets_full hline hsize rest]
  dsimp only
  rw [if_neg hlast]
  split <;> rfl

end Lines

/-- What the file of a number tells: the number the kernel printed, and nothing when it is missing,
holds another byte or is longer than the buffer. -/
inductive Tells : Option CStr → Option Int → Prop
  | absent : Tells none none
  | number {v : Int} (rest : CStr) (hlow : -2147483648 ≤ v) (hhigh : v ≤ 2147483647) :
      Tells (some (decimal v ++ 10 :: rest)) (some v)
  | foreign {line : CStr} {c : UInt8} (rest : CStr) (hline : 10 ∉ line) (hzero : 0 ∉ line)
      (hsize : line.length ≤ 30) (hc : c ∈ line) (hspace : isSpace c = false)
      (hdigit : isDigit c = false) (hsign : c ≠ 45 ∧ c ≠ 43) :
      Tells (some (line ++ 10 :: rest)) none
  | long {line : CStr} (rest : CStr) (hline : 10 ∉ line) (hsize : 31 ≤ line.length) :
      Tells (some (line ++ rest)) none

/-- What the status file tells: its word, and nothing when it is missing or longer than the buffer. -/
inductive TellsWord : Option CStr → Option CStr → Prop
  | absent : TellsWord none none
  | word {word : CStr} (rest : CStr) (hline : 10 ∉ word) (hzero : 0 ∉ word) (hsize : word.length ≤ 14) :
      TellsWord (some (word ++ 10 :: rest)) (some word)
  | long {line : CStr} (rest : CStr) (hline : 10 ∉ line) (hsize : 15 ≤ line.length) :
      TellsWord (some (line ++ rest)) none

theorem decimal_byte {v : Int} {c : UInt8} (hc : c ∈ decimal v) : c = 45 ∨ isDigit c = true := by
  rw [decimal, List.mem_append] at hc
  rcases hc with hsign | hdigit
  · split at hsign
    · exact .inl (List.mem_singleton.mp hsign)
    · exact absurd hsign List.not_mem_nil
  · exact .inr (isDigit_decimalNat _ c hdigit)

theorem decimal_plain {v : Int} {c : UInt8} (hsign : c ≠ 45) (hdigit : isDigit c = false) :
    c ∉ decimal v := fun hc => by
  rcases decimal_byte hc with h | h
  · exact hsign h
  · rw [hdigit] at h
    cases h

theorem decimal_length {v : Int} (hlow : -2147483648 ≤ v) (hhigh : v ≤ 2147483647) :
    (decimal v).length ≤ 11 := by
  have hdigits := decimalNat_length (n := v.natAbs) (k := 10) (by decide) (by omega)
  rw [decimal, List.length_append]
  split <;> simp only [List.length_cons, List.length_nil] <;> omega

/-- A number is read exactly as it was printed, and no part of anything else is taken for one. -/
theorem Tells.readInt {file : Option CStr} {value : Option Int} (h : Tells file value) :
    Runtime.readInt file = value := by
  cases h with
  | absent => rfl
  | number rest hlow hhigh =>
    rename_i v
    have hread : readLine 32 (some (decimal v ++ 10 :: rest)) = (decimal v, true) :=
      readLine_line (decimal_plain (by decide) (by decide)) (decimal_plain (by decide) (by decide))
        (by have := decimal_length hlow hhigh; omega)
    have hlong : longMax = 2147483647 := by decide
    have hparsed := strtol_decimal (n := v) (by omega) (by omega) [] nofun
    rw [List.append_nil] at hparsed
    simp [Runtime.readInt, hread, hparsed]
  | foreign rest hline hzero hsize hc hspace hdigit hsign =>
    have hread := @readLine_line 32 _ rest hline hzero (by omega)
    have hleft := List.ne_nil_of_mem (mem_strtol_rest hc hspace hdigit hsign)
    simp [Runtime.readInt, hread, hleft]
  | long rest hline hsize =>
    have hread := @readLine_long 32 _ rest hline (by omega)
    simp [Runtime.readInt, hread]

theorem TellsWord.readWord {files : CStr → Option CStr} {root : CStr} {word : Option CStr}
    (hroot : root.length ≤ 200) (h : TellsWord (files (root ++ 47 :: cstr "battery/status")) word) :
    Runtime.readWord files root = word := by
  have hname : (cstr "battery/status").length = 14 := by decide
  have hpath : rootPath root (cstr "battery/status") = some (root ++ 47 :: cstr "battery/status") :=
    if_pos (by rw [List.length_append, List.length_cons]; omega)
  simp only [Runtime.readWord, hpath, Option.bind_some]
  cases hfile : files (root ++ 47 :: cstr "battery/status") with
  | none =>
    rw [hfile] at h
    cases h
    rfl
  | some file =>
    rw [hfile] at h
    generalize hopt : some file = opened at h
    cases h with
    | absent => cases hopt
    | word rest hline hzero hsize =>
      rw [readLine_line hline hzero (by omega)]
      rfl
    | long rest hline hsize =>
      rw [if_neg]
      rw [readLine_long hline (by omega)]
      exact Bool.false_ne_true

theorem Tells.readRootInt {files : CStr → Option CStr} {root relative : CStr} {value : Option Int}
    (hroot : root.length ≤ 200) (hrelative : relative.length ≤ 50)
    (h : Tells (files (root ++ 47 :: relative)) value) :
    Runtime.readRootInt files root relative = value := by
  have hpath : rootPath root relative = some (root ++ 47 :: relative) :=
    if_pos (by rw [List.length_append, List.length_cons]; omega)
  rw [Runtime.readRootInt, hpath]
  exact h.readInt

/-- A line of `/proc/net/wireless` with the quality and the level that it tells of `wlan0`. -/
inductive WirelessLine : CStr → Option (Int × Int) → Prop
  | link {lead hex gap gap' : CStr} {q l : Int} (tail : CStr) (hlead : ∀ c ∈ lead, isSpace c = true)
      (hne : hex ≠ []) (hhex : ∀ c ∈ hex, isHexDigit c = true) (hgap : ∀ c ∈ gap, isSpace c = true)
      (hgap' : ∀ c ∈ gap', isSpace c = true) (hq : -2147483648 ≤ q ∧ q ≤ 2147483647)
      (hl : -2147483648 ≤ l ∧ l ≤ 2147483647) :
      WirelessLine (lead ++ (cstr "wlan0:" ++ 32 :: (hex ++ 32 :: (gap ++ (decimal q ++
        46 :: (gap' ++ (decimal l ++ 46 :: tail))))))) (some (q, l))
  | other {text : CStr} (hother : ¬ cstr "wlan0:" <:+: text) : WirelessLine text none

section Scan
variable {text rest : CStr}

theorem strstr_here {needle : CStr} (h : needle <+: text) : strstr needle text = some text := by
  cases text with
  | nil => exact if_pos (List.prefix_nil.mp h)
  | cons c text => exact if_pos h

theorem strstr_later {needle lead : CStr} {first : UInt8} (hneedle : needle.head? = some first)
    (hlead : ∀ c ∈ lead, c ≠ first) (h : needle <+: text) :
    strstr needle (lead ++ text) = some text := by
  induction lead with
  | nil => exact strstr_here h
  | cons c lead ih =>
    have hnot : ¬ needle <+: c :: (lead ++ text) := by
      rintro ⟨after, heq⟩
      obtain ⟨d, more, rfl⟩ := List.exists_cons_of_ne_nil (l := needle) fun hnil => by
        rw [hnil] at hneedle
        cases hneedle
      cases hneedle
      exact hlead c List.mem_cons_self (List.cons.inj heq).1.symm
    rw [List.cons_append, strstr, if_neg hnot]
    exact ih fun d hd => hlead d (List.mem_cons_of_mem c hd)

theorem strstr_none {needle : CStr} (hne : needle ≠ []) (h : ¬ needle <:+: text) :
    strstr needle text = none := by
  induction text with
  | nil => exact if_neg hne
  | cons c text ih =>
    rw [strstr, if_neg fun hprefix => h hprefix.isInfix]
    exact ih fun hlater => h (hlater.trans (List.suffix_cons c text).isInfix)

theorem strtol_spaces {gap : CStr} (hgap : ∀ c ∈ gap, isSpace c = true)
    (hfound : (strtol text).found = true) : strtol (gap ++ text) = strtol text := by
  have hsigned (negative : Bool) (body : CStr) (h : (signedDigits text negative body).found = true) :
      signedDigits (gap ++ text) negative body = signedDigits text negative body := by
    rw [signedDigits] at h ⊢
    rw [signedDigits]
    split at h
    · cases h
    · rename_i hdigits
      rw [if_neg hdigits, if_neg hdigits]
  have hdrop : (gap ++ text).dropWhile isSpace = text.dropWhile isSpace :=
    List.dropWhile_append_of_pos hgap
  rw [strtol] at hfound ⊢
  rw [strtol, hdrop]
  split at hfound <;> exact hsigned _ _ hfound

/-- A number after blanks, with a full stop behind it. -/
theorem scanInt_decimal {gap : CStr} {v : Int} (hgap : ∀ c ∈ gap, isSpace c = true)
    (hv : -2147483648 ≤ v ∧ v ≤ 2147483647) :
    scanInt (gap ++ (decimal v ++ 46 :: rest)) = some (v, 46 :: rest) := by
  have hlong : longMax = 2147483647 := by decide
  have hparsed := strtol_decimal (n := v) (by omega) (by omega) (46 :: rest)
    fun c hc => by cases hc; rfl
  have hfound : (strtol (decimal v ++ 46 :: rest)).found = true := by rw [hparsed]
  rw [scanInt, strtol_spaces hgap hfound, hparsed]
  rfl

theorem isHexDigit_plain {c : UInt8} (h : isHexDigit c = true) :
    isSpace c = false ∧ c ≠ 43 ∧ c ≠ 45 ∧ c ≠ 120 ∧ c ≠ 88 := by
  have hrange : (48 ≤ c.toNat ∧ c.toNat ≤ 57) ∨ (65 ≤ c.toNat ∧ c.toNat ≤ 70) ∨
      (97 ≤ c.toNat ∧ c.toNat ≤ 102) := by
    simp only [isHexDigit, isDigit, Bool.or_eq_true, Bool.and_eq_true, decide_eq_true_eq,
      UInt8.le_iff_toNat_le] at h
    exact or_assoc.mp h
  have hother (k : UInt8) (hk : k.toNat ≠ c.toNat) : c ≠ k := fun heq => hk (by rw [heq])
  have hblank : c ≠ 32 := hother 32 (by change 32 ≠ c.toNat; omega)
  have hcontrol : ¬ c ≤ 13 := fun hle => by
    have hnat : c.toNat ≤ 13 := UInt8.le_iff_toNat_le.mp hle
    omega
  refine ⟨by simp [isSpace, hblank, hcontrol], hother 43 ?_, hother 45 ?_, hother 120 ?_, hother 88 ?_⟩
  · change 43 ≠ c.toNat
    omega
  · change 45 ≠ c.toNat
    omega
  · change 120 ≠ c.toNat
    omega
  · change 88 ≠ c.toNat
    omega

/-- Hexadecimal digits between blanks. -/
theorem scanHex_digits {hex : CStr} (hne : hex ≠ []) (hhex : ∀ c ∈ hex, isHexDigit c = true) :
    scanHex (32 :: (hex ++ 32 :: rest)) = some (32 :: rest) := by
  obtain ⟨c, digits, rfl⟩ := List.exists_cons_of_ne_nil hne
  obtain ⟨hspace, hplus, hminus, _⟩ := isHexDigit_plain (hhex c List.mem_cons_self)
  have hsigned : (32 :: (c :: digits ++ 32 :: rest)).dropWhile isSpace = c :: digits ++ 32 :: rest := by
    rw [List.dropWhile_cons_of_pos (by decide), List.cons_append, List.dropWhile_cons_of_neg]
    rw [hspace]
    exact Bool.false_ne_true
  have hbody : ¬ ((c :: digits ++ 32 :: rest).take 2 = [48, 120] ∨
      (c :: digits ++ 32 :: rest).take 2 = [48, 88]) := by
    cases digits with
    | nil => simp
    | cons d digits =>
      obtain ⟨_, _, _, hx, hX⟩ := isHexDigit_plain (hhex d (by simp))
      simp [hx, hX]
  have hstop : ∀ c ∈ (32 :: rest).head?, isHexDigit c = false := fun c hc => by cases hc; rfl
  have htake := takeWhile_append_of_stop hhex hstop
  have hdrop := dropWhile_append_of_stop hhex hstop
  have hhead : ¬ ((c :: digits ++ 32 :: rest).head? = some 43 ∨
      (c :: digits ++ 32 :: rest).head? = some 45) := by
    simp [hplus, hminus]
  simp only [scanHex, hsigned, if_neg hhead, if_neg hbody, htake, hdrop, reduceCtorEq, if_false]

end Scan

theorem WirelessLine.ended {text : CStr} {link : Option (Int × Int)} (h : WirelessLine text link) :
    WirelessLine (text ++ [10]) link := by
  cases h with
  | link tail hlead hne hhex hgap hgap' hq hl =>
    have hline := WirelessLine.link (tail ++ [10]) hlead hne hhex hgap hgap' hq hl
    simpa only [List.append_assoc, List.cons_append] using hline
  | other hother =>
    refine .other ?_
    rintro ⟨before, after, heq⟩
    rcases List.eq_nil_or_concat after with rfl | ⟨after, c, rfl⟩
    · have hlast := congrArg List.getLast? heq
      have hkey : (before ++ cstr "wlan0:").getLast? = some 58 := by
        rw [List.getLast?_append]
        have hcolon : (cstr "wlan0:").getLast? = some 58 := by decide
        rw [hcolon]
        rfl
      rw [List.append_nil, hkey, List.getLast?_concat] at hlast
      cases hlast
    · rw [List.concat_eq_append, ← List.append_assoc] at heq
      exact hother ⟨before, after, (List.append_inj' heq rfl).1⟩

/-- A line is taken for a link when its level could have come from a radio. -/
theorem WirelessLine.lineLink {text : CStr} {link : Option (Int × Int)} (h : WirelessLine text link) :
    Runtime.lineLink text = link.filter fun link => -100 < link.2 := by
  cases h with
  | @link lead hex gap gap' q l tail hlead hne hhex hgap hgap' hq hl =>
    have hlead' (c : UInt8) (hc : c ∈ lead) : c ≠ 119 := fun heq => by
      have hspace := hlead c hc
      rw [heq] at hspace
      exact absurd hspace (by decide)
    have hkey : (cstr "wlan0:").head? = some 119 := by decide
    have hlength : (cstr "wlan0:").length = 6 := by decide
    have hblank : ∀ c ∈ 32 :: gap, isSpace c = true := List.forall_mem_cons.mpr ⟨rfl, hgap⟩
    rw [Runtime.lineLink, strstr_later hkey hlead' (List.prefix_append _ _), Option.bind_some, ← hlength,
      List.drop_left, scanLink, scanHex_digits hne hhex]
    simp only [Option.bind_eq_bind, Option.bind_some]
    rw [← List.cons_append, scanInt_decimal hblank hq]
    simp only [Option.bind_some, List.head?_cons, if_true, List.tail_cons, scanInt_decimal hgap' hl]
  | other hother =>
    rw [Runtime.lineLink, strstr_none (by decide) hother]
    rfl

/-! How large a sample is. -/
section Sizes

/-- A value of an `int`, which is as wide as a `long`. -/
def IsInt (v : Int) : Prop := -(longMax + 1 : Int) ≤ v ∧ v ≤ longMax

theorem isInt_flag (p : Prop) [Decidable p] : IsInt (if p then 1 else 0) := by
  have hlong : longMax = 2147483647 := by decide
  unfold IsInt
  split <;> omega

theorem readRootInt_isInt {files : CStr → Option CStr} {root relative : CStr} :
    IsInt ((readRootInt files root relative).getD 0) := by
  have hzero : IsInt 0 := ⟨by omega, Int.natCast_nonneg _⟩
  rw [readRootInt]
  cases rootPath root relative with
  | none => exact hzero
  | some path =>
    rw [Option.bind_some, readInt]
    split
    · exact hzero
    · split
      · exact hzero
      · exact strtol_long _

theorem scanLink_isInt {text : CStr} {link : Int × Int} (h : scanLink text = some link) :
    IsInt link.1 ∧ IsInt link.2 := by
  have hscan {text rest : CStr} {v : Int} (hv : scanInt text = some (v, rest)) : IsInt v := by
    rw [scanInt] at hv
    split at hv
    · obtain rfl := (Prod.mk.inj (Option.some.inj hv)).1
      exact strtol_long text
    · cases hv
  rw [scanLink] at h
  obtain ⟨rest, _, h⟩ := Option.bind_eq_some_iff.mp h
  obtain ⟨⟨q, rest⟩, hq, h⟩ := Option.bind_eq_some_iff.mp h
  dsimp only at h
  split at h
  · obtain ⟨⟨l, rest⟩, hl, h⟩ := Option.bind_eq_some_iff.mp h
    cases h
    exact ⟨hscan hq, hscan hl⟩
  · cases h

/-- So are the numbers of the last link of a file. -/
theorem linkLoop_isInt {fuel : Nat} {file : CStr} {link : Option (Int × Int)}
    (hlink : ∀ l ∈ link, IsInt l.1 ∧ IsInt l.2) : ∀ l ∈ linkLoop fuel file link, IsInt l.1 ∧ IsInt l.2 := by
  induction fuel generalizing file link with
  | zero => exact hlink
  | succ fuel ih =>
    rw [linkLoop]
    split
    · exact hlink
    · refine ih fun l hl => ?_
      rcases Option.or_eq_some_iff.mp hl with hline | ⟨_, hbefore⟩
      · obtain ⟨hfound, _⟩ := Option.filter_eq_some_iff.mp hline
        obtain ⟨text, _, hscanned⟩ := Option.bind_eq_some_iff.mp hfound
        exact scanLink_isInt hscanned
      · exact hlink l hbefore

theorem readLine_length (n : Nat) (file : Option CStr) : (readLine n file).1.length ≤ n - 1 := by
  unfold readLine
  split
  · exact Nat.zero_le _
  · rename_i text
    have hcut : (cut (fgets (n - 1) text).line).length ≤ n - 1 :=
      (List.takeWhile_prefix _).length_le.trans (fgets_length _ _)
    dsimp only
    split
    · exact Nat.zero_le _
    · split
      · rw [List.length_dropLast]
        omega
      · exact hcut

/-- The texts of a sample fit their buffers, and its numbers are ints. -/
structure Status.Fits (st : Status) : Prop where
  addr : st.addr.length ≤ 63
  level : IsInt st.level
  quality : IsInt st.quality
  cap : IsInt st.cap
  word : st.word.length ≤ 15

theorem statusRead_fits (e : StatusEnv) : (statusRead e).Fits := by
  have hzero : IsInt 0 := ⟨by omega, Int.natCast_nonneg _⟩
  have hnone : ∀ l ∈ (none : Option (Int × Int)), IsInt l.1 ∧ IsInt l.2 := fun _ hl => nomatch hl
  have hlink (l : Int × Int) (hl : (e.wireless.bind fun file => linkLoop file.length file none) = some l) :
      IsInt l.1 ∧ IsInt l.2 := by
    obtain ⟨file, _, hloop⟩ := Option.bind_eq_some_iff.mp hl
    exact linkLoop_isInt hnone l hloop
  refine ⟨List.length_take_le _ _, ?_, ?_, readRootInt_isInt, ?_⟩
  · change IsInt ((Option.map Prod.snd _).getD 0)
    cases hfound : e.wireless.bind fun file => linkLoop file.length file none with
    | none => exact hzero
    | some l => exact (hlink l hfound).2
  · change IsInt ((Option.map Prod.fst _).getD 0)
    cases hfound : e.wireless.bind fun file => linkLoop file.length file none with
    | none => exact hzero
    | some l => exact (hlink l hfound).1
  · change ((readWord e.files (cstr "/sys/class/power_supply")).getD []).length ≤ 15
    rw [readWord]
    cases rootPath (cstr "/sys/class/power_supply") (cstr "battery/status") with
    | none => exact Nat.zero_le _
    | some path =>
      rw [Option.bind_some]
      dsimp only
      split
      · exact readLine_length 16 _
      · exact Nat.zero_le _

end Sizes

end Taq102.Runtime
