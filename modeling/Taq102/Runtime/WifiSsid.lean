import Taq102.Lib.CString

/-! The SSID of the Wi-Fi configuration: what the scan of `wifi_read_ssid` takes from a line, the
lines that carry an SSID, and what the caller's buffer holds for every file. -/
namespace Taq102.Runtime

open Taq102.Lib

/-- The two blanks skipped on each side of `=`. -/
def isBlank (c : UInt8) : Bool := c == 32 || c == 9

/-- `"ssid"`. -/
def ssidKey : CStr := [115, 115, 105, 100]

/-- What a line has after `ssid` and `=`; `none` is a line the loop continues after. -/
def afterKey (line : CStr) : Option CStr :=
  let p := line.dropWhile isSpace
  if p.take 4 ≠ ssidKey then none
  else match (p.drop 4).dropWhile isBlank with
    | [] => none
    | c :: p => if c ≠ 61 then none else some p

/-- The loop over the characters of the value, for the bytes of `value` that are stored: the bytes
at its end and the text it stops at, or `none` for `invalid`. -/
def valueLoop : CStr → CStr → Option (CStr × CStr)
  | [], value => some (value, [])
  | c :: p, value =>
    if c = 34 then some (value, c :: p)
    else if c = 92 then
      match p with
      | [] => none
      | ch :: p =>
        if ch ≠ 92 ∧ ch ≠ 34 then none
        else if ch < 32 ∨ value.length = 32 then none
        else valueLoop p (value ++ [ch])
    else if c < 32 ∨ value.length = 32 then none
    else valueLoop p (value ++ [c])

/-- How one turn of the loop over the lines ends: with `continue`, with a `break` that leaves the
result at -1, or with the SSID. -/
inductive Turn where
  | next
  | stop
  | found (ssid : CStr)
  deriving DecidableEq, Repr

/-- The text after the opening quote, for a buffer of `n` bytes. -/
def scanValue (n : Nat) (p : CStr) : Turn :=
  match valueLoop p [] with
  | none => .stop
  | some (value, rest) =>
    if rest.head? ≠ some 34 ∨ value.length = 0 ∨ n ≤ value.length then .stop
    else match rest.tail.dropWhile isSpace with
      | [] => .found value
      | c :: _ => if c ≠ 35 then .stop else .found value

def scanLine (n : Nat) (line : CStr) : Turn :=
  match afterKey line with
  | none => .next
  | some value =>
    match value.dropWhile isBlank with
    | [] => .stop
    | c :: p => if c ≠ 34 then .stop else scanValue n p

/-- The loop over the lines, with the buffer of 4096 bytes. -/
def lineLoop (n : Nat) : Nat → CStr → Option CStr
  | 0, _ => none
  | fuel + 1, file =>
    if file = [] then none
    else
      let got := fgets 4095 file
      let line := cut got.line
      if 10 ∉ line ∧ got.eof = false then none
      else match scanLine n line with
        | .next => lineLoop n fuel got.rest
        | .stop => none
        | .found ssid => some ssid

/-- `wifi_read_ssid`: the result and the string in the buffer, where there is one. The files that can
be opened are those that `files` has. -/
def wifiReadSsid (files : CStr → Option CStr) (confPath : Option CStr) (out : Bool) (n : Nat) :
    Int × Option CStr :=
  if out = false ∨ n = 0 then (-1, none)
  else match confPath with
    | none => (-1, some [])
    | some path =>
      match files path with
      | none => (-1, some [])
      | some file =>
        match lineLoop n (file.length + 1) file with
        | none => (-1, some [])
        | some ssid => (0, some ssid)

/-- An SSID as a configuration writes it: a backslash before each quote and backslash. -/
def escape (ssid : CStr) : CStr := ssid.flatMap fun c => if c = 34 ∨ c = 92 then [92, c] else [c]

/-- A line that sets `ssid`, and its text after `=`. -/
inductive KeyLine : CStr → CStr → Prop
  | key {lead gap : CStr} (value : CStr) (hlead : ∀ c ∈ lead, isSpace c = true)
      (hgap : ∀ c ∈ gap, isBlank c = true) : KeyLine (lead ++ ssidKey ++ gap ++ 61 :: value) value

/-- A value that gives the SSID in quotes, with nothing but white space or a comment after it. -/
inductive Carries (ssid : CStr) : CStr → Prop
  | quoted {gap space comment : CStr} (hgap : ∀ c ∈ gap, isBlank c = true)
      (hspace : ∀ c ∈ space, isSpace c = true) (hcomment : ∀ c ∈ comment.head?, c = 35) :
      Carries ssid (gap ++ 34 :: (escape ssid ++ 34 :: (space ++ comment)))

/-- A file whose first line that sets `ssid` carries the SSID. -/
inductive FirstKey (ssid : CStr) : List FileLine → Prop
  | here {line : FileLine} {value : CStr} (after : List FileLine) (hkey : KeyLine line.text value)
      (hvalue : Carries ssid value) : FirstKey ssid (line :: after)
  | later {line : FileLine} {after : List FileLine} (hkey : ∀ value, ¬ KeyLine line.text value)
      (hrest : FirstKey ssid after) : FirstKey ssid (line :: after)

variable {n : Nat} {ssid : CStr}

theorem valueLoop_quote (p value : CStr) : valueLoop (34 :: p) value = some (value, 34 :: p) := by
  cases p <;> rfl

theorem valueLoop_backslash (c : UInt8) (p value : CStr) : valueLoop (92 :: c :: p) value =
    if c ≠ 92 ∧ c ≠ 34 then none
    else if c < 32 ∨ value.length = 32 then none
    else valueLoop p (value ++ [c]) := rfl

theorem valueLoop_byte {c : UInt8} (hquote : c ≠ 34) (hslash : c ≠ 92) (p value : CStr) :
    valueLoop (c :: p) value =
      if c < 32 ∨ value.length = 32 then none else valueLoop p (value ++ [c]) := by
  cases p <;> simp only [valueLoop, if_neg hquote, if_neg hslash]

/-- The bytes of an escaped SSID are stored as they were before it was escaped. -/
theorem valueLoop_escape (hbytes : ∀ c ∈ ssid, 32 ≤ c) (rest value : CStr)
    (hlength : value.length + ssid.length ≤ 32) :
    valueLoop (escape ssid ++ 34 :: rest) value = some (value ++ ssid, 34 :: rest) := by
  induction ssid generalizing value with
  | nil =>
    rw [List.append_nil]
    exact valueLoop_quote rest value
  | cons c ssid ih =>
    rw [List.length_cons] at hlength
    have hplain : ¬ (c < 32 ∨ value.length = 32) := by
      rintro (hlow | hfull)
      · exact UInt8.not_le.mpr hlow (hbytes c List.mem_cons_self)
      · omega
    have hmore : valueLoop (escape ssid ++ 34 :: rest) (value ++ [c]) =
        some (value ++ c :: ssid, 34 :: rest) := by
      have hstored : (value ++ [c]).length + ssid.length ≤ 32 := by
        rw [List.length_append, List.length_singleton]
        omega
      rw [ih (fun d hd => hbytes d (List.mem_cons_of_mem c hd)) _ hstored, List.append_assoc]
      rfl
    have hcode : escape (c :: ssid) = (if c = 34 ∨ c = 92 then [92, c] else [c]) ++ escape ssid :=
      List.flatMap_cons
    rw [hcode]
    by_cases hescaped : c = 34 ∨ c = 92
    · rw [if_pos hescaped, List.append_assoc]
      change valueLoop (92 :: c :: (escape ssid ++ 34 :: rest)) value = _
      rw [valueLoop_backslash, if_neg fun h => hescaped.elim h.2 h.1, if_neg hplain, hmore]
    · rw [if_neg hescaped, List.append_assoc]
      change valueLoop (c :: (escape ssid ++ 34 :: rest)) value = _
      rw [valueLoop_byte (fun h => hescaped (.inl h)) (fun h => hescaped (.inr h)), if_neg hplain, hmore]

/-- What may be in `value`: at most 32 bytes, none below a space. -/
def Stored (value : CStr) : Prop := value.length ≤ 32 ∧ ∀ c ∈ value, 32 ≤ c

theorem Stored.push {value : CStr} (h : Stored value) {c : UInt8}
    (hplain : ¬ (c < 32 ∨ value.length = 32)) : Stored (value ++ [c]) := by
  obtain ⟨hlow, hfull⟩ := not_or.mp hplain
  constructor
  · have hle := h.1
    rw [List.length_append, List.length_singleton]
    omega
  · intro d hd
    rcases List.mem_append.mp hd with hold | hnew
    · exact h.2 d hold
    · rw [List.mem_singleton.mp hnew]
      exact UInt8.not_lt.mp hlow

theorem valueLoop_stored {p value : CStr} (h : Stored value) :
    ∀ stored ∈ valueLoop p value, Stored stored.1 := by
  induction p, value using valueLoop.induct with
  | case1 value =>
    rintro _ ⟨⟩
    exact h
  | case2 p value =>
    rw [valueLoop_quote]
    rintro _ ⟨⟩
    exact h
  | case3 value => exact fun _ hstored => nomatch hstored
  | case4 value c p hwrong =>
    rw [valueLoop_backslash, if_pos hwrong]
    exact fun _ hstored => nomatch hstored
  | case5 value c p hright hbad =>
    rw [valueLoop_backslash, if_neg hright, if_pos hbad]
    exact fun _ hstored => nomatch hstored
  | case6 value c p hright hplain _ ih =>
    rw [valueLoop_backslash, if_neg hright, if_neg hplain]
    exact ih (h.push hplain)
  | case7 c p value hquote hslash hbad =>
    rw [valueLoop_byte hquote hslash, if_pos hbad]
    exact fun _ hstored => nomatch hstored
  | case8 c p value hquote hslash hplain ih =>
    rw [valueLoop_byte hquote hslash, if_neg hplain]
    exact ih (h.push hplain)

theorem stored_nil : Stored [] := ⟨Nat.zero_le 32, fun _ hc => absurd hc List.not_mem_nil⟩

/-- What a buffer of `n` bytes can be given. -/
def Fits (n : Nat) (ssid : CStr) : Prop := 1 ≤ ssid.length ∧ ssid.length < n ∧ Stored ssid

theorem scanValue_fits {p : CStr} (hfound : scanValue n p = .found ssid) : Fits n ssid := by
  unfold scanValue at hfound
  cases hloop : valueLoop p [] with
  | none =>
    rw [hloop] at hfound
    cases hfound
  | some stored =>
    obtain ⟨value, rest⟩ := stored
    have hstored : Stored value := valueLoop_stored stored_nil _ hloop
    rw [hloop] at hfound
    simp only at hfound
    split at hfound
    · cases hfound
    · rename_i hgood
      obtain ⟨_, hgood⟩ := not_or.mp hgood
      obtain ⟨hne, hsize⟩ := not_or.mp hgood
      have hvalue : value = ssid := by
        split at hfound
        · cases hfound
          rfl
        · split at hfound
          · cases hfound
          · cases hfound
            rfl
      rw [← hvalue]
      exact ⟨Nat.one_le_iff_ne_zero.mpr hne, Nat.lt_of_not_le hsize, hstored⟩

theorem scanLine_fits {line : CStr} (hfound : scanLine n line = .found ssid) : Fits n ssid := by
  unfold scanLine at hfound
  split at hfound
  · cases hfound
  · split at hfound
    · cases hfound
    · split at hfound
      · cases hfound
      · exact scanValue_fits hfound

/-- Whatever the file holds, the loop finds only what the buffer can be given. -/
theorem lineLoop_fits {fuel : Nat} {file : CStr} (hfound : lineLoop n fuel file = some ssid) :
    Fits n ssid := by
  induction fuel generalizing file with
  | zero => cases hfound
  | succ fuel ih =>
    unfold lineLoop at hfound
    split at hfound
    · cases hfound
    · simp only at hfound
      split at hfound
      · cases hfound
      · split at hfound
        · exact ih hfound
        · cases hfound
        · rename_i hscan
          cases hfound
          exact scanLine_fits hscan

theorem afterKey_key {text value : CStr} (hkey : KeyLine text value) (eol : CStr) :
    afterKey (text ++ eol) = some (value ++ eol) := by
  obtain ⟨value, hlead, hgap⟩ := hkey
  rename_i lead gap
  have htext : (lead ++ ssidKey ++ gap ++ 61 :: value) ++ eol =
      lead ++ (ssidKey ++ (gap ++ 61 :: (value ++ eol))) := by simp
  have hblanks : (lead ++ (ssidKey ++ (gap ++ 61 :: (value ++ eol)))).dropWhile isSpace =
      ssidKey ++ (gap ++ 61 :: (value ++ eol)) := dropWhile_append_of_stop hlead (by rintro _ ⟨⟩; rfl)
  have hequal : (gap ++ 61 :: (value ++ eol)).dropWhile isBlank = 61 :: (value ++ eol) :=
    dropWhile_append_of_stop hgap (by rintro _ ⟨⟩; rfl)
  have hdrop : (ssidKey ++ (gap ++ 61 :: (value ++ eol))).drop 4 = gap ++ 61 :: (value ++ eol) := rfl
  rw [htext]
  simp only [afterKey, hblanks, hdrop, hequal]
  rfl

/-- Only the lines that set `ssid` are not skipped. -/
theorem afterKey_some {line value : CStr} (hafter : afterKey line = some value) : KeyLine line value := by
  simp only [afterKey] at hafter
  split at hafter
  · cases hafter
  rename_i hkey
  split at hafter
  · cases hafter
  rename_i c p hequal
  split at hafter
  · cases hafter
  rename_i hc
  cases hafter
  have hline : line.takeWhile isSpace ++ ssidKey ++
      ((line.dropWhile isSpace).drop 4).takeWhile isBlank ++ 61 :: value = line := by
    calc _ = line.takeWhile isSpace ++ ((line.dropWhile isSpace).take 4 ++
          (((line.dropWhile isSpace).drop 4).takeWhile isBlank ++
            ((line.dropWhile isSpace).drop 4).dropWhile isBlank)) := by
            rw [not_not.mp hkey, hequal, not_not.mp hc, List.append_assoc, List.append_assoc]
      _ = line := by
        rw [List.takeWhile_append_dropWhile, List.take_append_drop, List.takeWhile_append_dropWhile]
  rw [← hline]
  exact .key value (fun c hc => List.mem_takeWhile_imp hc) fun c hc => List.mem_takeWhile_imp hc

/-- The line feed is no part of the key. -/
theorem KeyLine.unended {text value : CStr} (hkey : KeyLine (text ++ [10]) value) :
    ∃ value', KeyLine text value' := by
  generalize hline : text ++ [10] = line at hkey
  obtain ⟨value, hlead, hgap⟩ := hkey
  rename_i lead gap
  rcases List.eq_nil_or_concat value with rfl | ⟨value', c, rfl⟩
  · exact absurd (List.append_inj' hline rfl).2 (by decide)
  · have htext : text ++ [10] = (lead ++ ssidKey ++ gap ++ 61 :: value') ++ [c] := by
      rw [hline]
      simp
    rw [(List.append_inj' htext rfl).1]
    exact ⟨value', .key value' hlead hgap⟩

/-- After the closing quote: nothing but white space, or a comment after it. -/
theorem dropWhile_comment {space comment eol : CStr} (hspace : ∀ c ∈ space, isSpace c = true)
    (hcomment : ∀ c ∈ comment.head?, c = 35) (heol : eol = [] ∨ eol = [10]) :
    (space ++ comment ++ eol).dropWhile isSpace = [] ∨
      ∃ more, (space ++ comment ++ eol).dropWhile isSpace = 35 :: more := by
  cases comment with
  | nil =>
    left
    rw [List.append_nil]
    refine List.dropWhile_eq_nil_iff.mpr fun c hc => ?_
    rcases List.mem_append.mp hc with hspaced | hend
    · exact hspace c hspaced
    · rcases heol with rfl | rfl
      · exact absurd hend List.not_mem_nil
      · rw [List.mem_singleton.mp hend]
        rfl
  | cons c comment =>
    right
    have hc : c = 35 := hcomment c rfl
    rw [List.append_assoc, dropWhile_append_of_stop hspace (by rintro _ ⟨⟩; rw [hc]; rfl), hc]
    exact ⟨comment ++ eol, rfl⟩

/-- A value that carries an SSID is read back, also before a line feed. -/
theorem scanLine_carries {text value eol : CStr} (hkey : KeyLine text value) (hvalue : Carries ssid value)
    (heol : eol = [] ∨ eol = [10]) (hbytes : ∀ c ∈ ssid, 32 ≤ c) (hpos : 1 ≤ ssid.length)
    (hmax : ssid.length ≤ 32) (hsize : ssid.length < n) : scanLine n (text ++ eol) = .found ssid := by
  obtain ⟨hgap, hspace, hcomment⟩ := hvalue
  rename_i gap space comment
  have hquote : (gap ++ 34 :: (escape ssid ++ 34 :: (space ++ comment)) ++ eol).dropWhile isBlank =
      34 :: (escape ssid ++ 34 :: (space ++ comment ++ eol)) := by
    rw [List.append_assoc, dropWhile_append_of_stop hgap (by rintro _ ⟨⟩; rfl)]
    simp
  have hloop : valueLoop (escape ssid ++ 34 :: (space ++ comment ++ eol)) [] =
      some (ssid, 34 :: (space ++ comment ++ eol)) :=
    valueLoop_escape hbytes _ [] (by rw [List.length_nil]; omega)
  have hgood : ¬ ((34 :: (space ++ comment ++ eol)).head? ≠ some 34 ∨ ssid.length = 0 ∨ n ≤ ssid.length) := by
    rintro (hhead | hnone | hlarge)
    · exact hhead rfl
    · omega
    · omega
  rw [scanLine, afterKey_key hkey]
  simp only [hquote, ne_eq, not_true_eq_false, if_false]
  rw [scanValue, hloop]
  simp only [if_neg hgood, List.tail_cons]
  rcases dropWhile_comment hspace hcomment heol with hnil | ⟨more, hhash⟩
  · rw [hnil]
  · simp only [hhash, ne_eq, not_true_eq_false, if_false]

/-- With more turns than bytes in the file their number does not matter: the loop ends. -/
theorem lineLoop_ends {file : CStr} {fuel : Nat} (hfuel : file.length < fuel) :
    lineLoop n fuel file = lineLoop n (file.length + 1) file := by
  induction hlength : file.length using Nat.strong_induction_on generalizing file fuel with
  | _ length ih =>
    cases fuel with
    | zero => exact absurd hfuel (Nat.not_lt_zero _)
    | succ fuel =>
      rw [lineLoop, lineLoop]
      split_ifs with hne
      · rfl
      · have hrest : (fgets 4095 file).rest.length < file.length := fgets_rest_lt hne (by decide)
        have hturns {turns : Nat} (hturns : length ≤ turns) : lineLoop n turns (fgets 4095 file).rest =
            lineLoop n ((fgets 4095 file).rest.length + 1) (fgets 4095 file).rest :=
          ih _ (by omega) (by omega) rfl
        simp only [hturns (Nat.le_refl length), hturns (show length ≤ fuel by omega)]

/-- One turn of the loop, for a line that `fgets` stored whole. -/
theorem lineLoop_got {file : CStr} {got : Fetched} (hne : file ≠ []) (hgot : fgets 4095 file = got)
    (hzero : 0 ∉ got.line) (hwhole : 10 ∈ got.line ∨ got.eof = true) (fuel : Nat) :
    lineLoop n (fuel + 1) file =
      match scanLine n got.line with
      | .next => lineLoop n fuel got.rest
      | .stop => none
      | .found ssid => some ssid := by
  have hcut : ¬ (10 ∉ got.line ∧ got.eof = false) := by
    rintro ⟨hline, heof⟩
    rcases hwhole with h | h
    · exact hline h
    · rw [h] at heof
      cases heof
  simp only [lineLoop, if_neg hne, hgot, cut_plain hzero, if_neg hcut]

/-- The loop takes the SSID of the first line that sets it. -/
theorem lineLoop_firstKey {file : CStr} (hbytes : ∀ c ∈ ssid, 32 ≤ c) (hpos : 1 ≤ ssid.length)
    (hmax : ssid.length ≤ 32) (hsize : ssid.length < n)
    (hlines : ∀ line ∈ fileLines file, 0 ∉ line.text ∧ line.text.length < 4095)
    (hfirst : FirstKey ssid (fileLines file)) {fuel : Nat} (hfuel : file.length < fuel) :
    lineLoop n fuel file = some ssid := by
  induction file using file_induction generalizing fuel with
  | nil => nomatch hfirst
  | last text hne htext =>
    rw [fileLines_unended hne htext] at hlines hfirst
    obtain ⟨hzero, hlength⟩ := hlines _ List.mem_cons_self
    have hgot := fgets_eof htext hlength
    cases fuel with
    | zero => exact absurd hfuel (Nat.not_lt_zero _)
    | succ fuel =>
      rw [lineLoop_got hne hgot hzero (.inr rfl)]
      cases hfirst with
      | here after hkey hvalue =>
        have hscan := scanLine_carries hkey hvalue (.inl rfl) hbytes hpos hmax hsize
        rw [List.append_nil] at hscan
        rw [hscan]
      | later hkey hrest => nomatch hrest
  | line text rest htext ih =>
    rw [fileLines_ended htext] at hlines hfirst
    obtain ⟨hzero, hlength⟩ := hlines _ List.mem_cons_self
    have hgot : fgets 4095 (text ++ 10 :: rest) = { line := text ++ [10], rest, eof := false } :=
      fgets_line htext hlength
    have hzero' : 0 ∉ text ++ [10] := by
      intro h
      rcases List.mem_append.mp h with h | h
      · exact hzero h
      · exact absurd (List.mem_singleton.mp h) (by decide)
    cases fuel with
    | zero => exact absurd hfuel (Nat.not_lt_zero _)
    | succ fuel =>
      rw [lineLoop_got (by simp) hgot hzero' (.inl (by simp))]
      cases hfirst with
      | here after hkey hvalue =>
        rw [scanLine_carries hkey hvalue (.inr rfl) hbytes hpos hmax hsize]
      | later hkey hrest =>
        have hafter : afterKey (text ++ [10]) = none := by
          cases hsome : afterKey (text ++ [10]) with
          | none => rfl
          | some value =>
            obtain ⟨value', hvalue'⟩ := (afterKey_some hsome).unended
            exact absurd hvalue' (hkey value')
        rw [scanLine, hafter]
        refine ih (fun line hline => hlines line (List.mem_cons_of_mem _ hline)) hrest ?_
        rw [List.length_append, List.length_cons] at hfuel
        omega

theorem wifiReadSsid_file {files : CStr → Option CStr} {path file : CStr} (hfile : files path = some file)
    (hn : n ≠ 0) : wifiReadSsid files (some path) true n =
      match lineLoop n (file.length + 1) file with
      | none => (-1, some [])
      | some ssid => (0, some ssid) := by
  have hbuffer : ¬ (true = false ∨ n = 0) := fun h => h.elim (by decide) hn
  simp only [wifiReadSsid, if_neg hbuffer, hfile]

/-- Every call fails with an empty string, or stores an SSID that fits. -/
theorem wifiReadSsid_result (files : CStr → Option CStr) (confPath : Option CStr) (out : Bool) (n : Nat) :
    ((wifiReadSsid files confPath out n).1 = -1 ∧
      (wifiReadSsid files confPath out n).2 = if out = true ∧ 0 < n then some [] else none) ∨
    ∃ ssid, wifiReadSsid files confPath out n = (0, some ssid) ∧ out = true ∧ Fits n ssid := by
  by_cases hbuffer : out = false ∨ n = 0
  · have hnone : ¬ (out = true ∧ 0 < n) := by
      rintro ⟨hout, hn⟩
      rcases hbuffer with h | h
      · exact absurd (h.symm.trans hout) (by decide)
      · omega
    have hfail : wifiReadSsid files confPath out n = (-1, none) := if_pos hbuffer
    rw [hfail, if_neg hnone]
    exact .inl ⟨rfl, rfl⟩
  · obtain ⟨hout, hn⟩ := not_or.mp hbuffer
    obtain rfl : out = true := (Bool.not_eq_false out).mp hout
    rw [if_pos ⟨rfl, Nat.pos_of_ne_zero hn⟩]
    cases confPath with
    | none =>
      have hfail : wifiReadSsid files none true n = (-1, some []) := if_neg hbuffer
      rw [hfail]
      exact .inl ⟨rfl, rfl⟩
    | some path =>
      cases hfile : files path with
      | none =>
        have hfail : wifiReadSsid files (some path) true n = (-1, some []) := by
          simp only [wifiReadSsid, if_neg hbuffer, hfile]
        rw [hfail]
        exact .inl ⟨rfl, rfl⟩
      | some file =>
        rw [wifiReadSsid_file hfile hn]
        cases hloop : lineLoop n (file.length + 1) file with
        | none => exact .inl ⟨rfl, rfl⟩
        | some ssid =>
          exact .inr ⟨ssid, rfl, rfl, lineLoop_fits hloop⟩

/-- A file whose first line for `ssid` carries an SSID gives exactly that SSID, to every buffer larger
than it; and for every file and buffer the call fails and leaves an empty string, or stores at most 32
bytes that the buffer holds, none of them a control byte. -/
theorem wifi_read_ssid_round_trip (files : CStr → Option CStr) :
    (∀ (path file ssid : CStr) (n : Nat), files path = some file → 1 ≤ ssid.length → ssid.length ≤ 32 →
      (∀ c ∈ ssid, 32 ≤ c) →
      (∀ line ∈ fileLines file, 0 ∉ line.text ∧ line.text.length < 4095) →
      FirstKey ssid (fileLines file) → ssid.length < n →
      wifiReadSsid files (some path) true n = (0, some ssid)) ∧
    ∀ (confPath : Option CStr) (out : Bool) (n : Nat),
      ((wifiReadSsid files confPath out n).1 = -1 ∧
        (wifiReadSsid files confPath out n).2 = if out = true ∧ 0 < n then some [] else none) ∨
      ∃ ssid, wifiReadSsid files confPath out n = (0, some ssid) ∧ out = true ∧
        1 ≤ ssid.length ∧ ssid.length ≤ min 32 (n - 1) ∧ ∀ c ∈ ssid, 32 ≤ c := by
  constructor
  · intro path file ssid n hfile hpos hmax hbytes hlines hfirst hsize
    rw [wifiReadSsid_file hfile (by omega),
      lineLoop_firstKey hbytes hpos hmax hsize hlines hfirst (Nat.lt_succ_self _)]
  · intro confPath out n
    refine (wifiReadSsid_result files confPath out n).imp_right fun ⟨ssid, hread, hout, hfits⟩ => ?_
    obtain ⟨hpos, hsize, hmax, hbytes⟩ := hfits
    exact ⟨ssid, hread, hout, hpos, by omega, hbytes⟩

def networkFile : CStr := cstr "network=\x7b\n\tssid=\"Deluxe\\\"Wifi\" # comment\n"

theorem deluxe_wifi_read :
    wifiReadSsid (fun _ => some networkFile) (some (cstr "wifi.conf")) true 33 =
      (0, some (cstr "Deluxe\"Wifi")) := by
  have hlines : fileLines networkFile = [⟨cstr "network=\x7b", true⟩,
      ⟨[9] ++ ssidKey ++ [] ++ 61 :: ([] ++ 34 :: (escape (cstr "Deluxe\"Wifi") ++
        34 :: ([32] ++ cstr "# comment"))), true⟩] := by decide +kernel
  have hother : afterKey (cstr "network=\x7b" ++ []) = none := by decide +kernel
  have hfirst : FirstKey (cstr "Deluxe\"Wifi") (fileLines networkFile) := by
    rw [hlines]
    refine .later (fun value hkey => ?_) (.here [] (.key _ (by decide +kernel) (by decide +kernel))
      (.quoted (by decide +kernel) (by decide +kernel) (by decide +kernel)))
    exact absurd ((afterKey_key hkey []).symm.trans hother) (Option.some_ne_none _)
  exact (wifi_read_ssid_round_trip fun _ => some networkFile).1 _ networkFile _ 33 rfl (by decide +kernel)
    (by decide +kernel) (by decide +kernel) (by rw [hlines]; decide +kernel) hfirst (by decide +kernel)

example : scanLine 33 (cstr "\tssid=\"Deluxe\\\"Wifi\" # comment\n") = .found (cstr "Deluxe\"Wifi") := by
  decide +kernel

end Taq102.Runtime
