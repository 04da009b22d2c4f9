import Taq102.Runtime.Settings

/-! Reading the preferences (`settings_load`): the loop over `fgets` against the meaning of a file
line by line. -/
namespace Taq102.Runtime
open Taq102.Lib

/-- The text after the first `=`. -/
def valueText (text : CStr) : CStr := (text.dropWhile (· ≠ 61)).tail

/-- The preference named before the only `=`. -/
def textKey (text : CStr) : Option Key :=
  if text.count 61 = 1 then keyNamed (text.takeWhile (· ≠ 61)) else none

/-- The preference a line may set; one that does not fit with its line feed sets none. -/
def lineKey (line : FileLine) : Option Key :=
  if 255 ≤ line.text.length then none else textKey line.text

/-- What a line does, whatever the others are. -/
def LineReads (line : FileLine) (s s' : Settings) : Prop :=
  match lineKey line with
  | none => s' = s
  | some key =>
    if 0 ∈ line.text then ∃ value, s' = s.set value key
    else s' = s.set (key.read (valueText line.text)) key

def LinesRead : List FileLine → Settings → Settings → Prop
  | [], s, s' => s' = s
  | line :: rest, s, s' => ∃ mid, LineReads line s mid ∧ LinesRead rest mid s'

/-- A NUL in a line does not reach beyond it: a line that starts with one fits the buffer, a line
with one inside and a line feed is the last, and one without a line feed has no `=` on both sides. -/
structure NulHarmless (line : FileLine) (rest : List FileLine) : Prop where
  first : line.text.head? = some 0 → line.text.length ≤ 255
  inside : line.ended = true → line.text.length < 255 → 0 ∈ line.text →
    line.text.head? = some 0 ∨ rest = []
  last : line.ended = false → line.text.length < 255 → (cut line.text).count 61 = 1 →
    line.text.count 61 = 1

def NulsHarmless : List FileLine → Prop
  | [] => True
  | line :: rest => NulHarmless line rest ∧ NulsHarmless rest

instance (line : FileLine) (rest : List FileLine) : Decidable (NulHarmless line rest) :=
  decidable_of_iff
    ((line.text.head? = some 0 → line.text.length ≤ 255) ∧
      (line.ended = true → line.text.length < 255 → 0 ∈ line.text →
        line.text.head? = some 0 ∨ rest = []) ∧
      (line.ended = false → line.text.length < 255 → (cut line.text).count 61 = 1 →
        line.text.count 61 = 1))
    ⟨fun h => ⟨h.1, h.2.1, h.2.2⟩, fun h => ⟨h.first, h.inside, h.last⟩⟩

instance decidableNulsHarmless : DecidablePred NulsHarmless
  | [] => isTrue trivial
  | line :: rest =>
    have := decidableNulsHarmless rest
    inferInstanceAs (Decidable (NulHarmless line rest ∧ NulsHarmless rest))

theorem applyLine_eq (s : Settings) (text : CStr) : applyLine s text =
    (textKey text).elim s fun key => s.set (key.read (valueText text)) key := by
  have hbefore : (61 : UInt8) ∉ text.takeWhile (fun c => decide (c ≠ 61)) := fun h => by
    have hother := List.mem_takeWhile_imp h
    simp at hother
  have hsplit := List.takeWhile_append_dropWhile (p := fun c => decide (c ≠ (61 : UInt8))) (l := text)
  have hcount := congrArg (List.count 61) hsplit
  rw [List.count_append, List.count_eq_zero_of_not_mem hbefore, Nat.zero_add] at hcount
  rw [applyLine, textKey, valueText, ← hcount]
  cases hdrop : text.dropWhile (fun c => decide (c ≠ 61)) with
  | nil => rfl
  | cons c value =>
    have hc : c = 61 := by
      have hhead := List.head?_dropWhile_not (fun c => decide (c ≠ (61 : UInt8))) text
      rw [hdrop] at hhead
      simpa using hhead
    subst hc
    rw [List.count_cons_self]
    by_cases hvalue : (61 : UInt8) ∈ value
    · have hpos := List.count_pos_iff.mpr hvalue
      simp [hvalue, hpos.ne']
    · simp only [hvalue, List.count_eq_zero_of_not_mem hvalue, if_false, if_true, List.tail_cons]
      cases keyNamed (text.takeWhile fun c => decide (c ≠ 61)) <;> rfl

theorem strtol_suffix (text : CStr) : (strtol text).rest <:+ text := by
  have hsigned (negative : Bool) {body : CStr} (h : body <:+ text) :
      (signedDigits text negative body).rest <:+ text := by
    rw [signedDigits]
    split
    · exact List.suffix_refl text
    · exact (List.dropWhile_suffix _).trans h
  have hspaces : text.dropWhile isSpace <:+ text := List.dropWhile_suffix _
  rw [strtol]
  split
  · rename_i body hbody
    exact hsigned true ((List.suffix_cons _ body).trans (hbody ▸ hspaces))
  · rename_i body hbody
    exact hsigned false ((List.suffix_cons _ body).trans (hbody ▸ hspaces))
  · exact hsigned false hspaces

/-- The line feed of a line is no part of a value. -/
theorem parseInteger_lineFeed {text : CStr} (htext : 10 ∉ text) :
    parseInteger (text ++ [10]) = parseInteger text := by
  obtain ⟨hfound, hvalue, hrange, hrest⟩ := strtol_lineFeed text
  have hfeed : 10 ∉ (strtol text).rest := fun h => htext ((strtol_suffix text).subset h)
  have hskip (rest : CStr) (h : 10 ∉ rest) :
      skipByte 10 (skipByte 13 (rest ++ [10])) = [] ↔ skipByte 10 (skipByte 13 rest) = [] := by
    match rest with
    | [] => decide
    | [c] =>
      have hc : c ≠ 10 := fun heq => h (by rw [heq]; exact List.mem_cons_self)
      by_cases hr : c = 13
      · subst hr
        decide
      · simp [skipByte, hr, hc]
    | c :: d :: rest =>
      have hc : c ≠ 10 := fun heq => h (by rw [heq]; exact List.mem_cons_self)
      have hd : d ≠ 10 := fun heq => h (by rw [heq]; exact List.mem_cons_of_mem _ List.mem_cons_self)
      by_cases hr : c = 13 <;> simp [skipByte, hr, hc, hd]
  simp only [parseInteger, hfound, hvalue, hrange]
  by_cases hnone : (strtol text).found = true
  · rw [hrest hnone]
    simp only [hskip _ hfeed]
  · rw [if_pos (.inl hnone), if_pos (.inl hnone)]

/-- The line feed of a line is no part of its preference. -/
theorem applyLine_lineFeed (s : Settings) {text : CStr} (htext : 10 ∉ text) :
    applyLine s (text ++ [10]) = applyLine s text := by
  have hcount : (text ++ [10]).count 61 = text.count 61 := by
    rw [List.count_append]
    rfl
  rw [applyLine_eq, applyLine_eq, textKey, textKey, hcount]
  by_cases hone : text.count 61 = 1
  · have hmem : (61 : UInt8) ∈ text := List.count_pos_iff.mp (by rw [hone]; exact Nat.one_pos)
    obtain ⟨before, value, rfl, hbefore⟩ := List.eq_append_cons_of_mem hmem
    have hrun : ∀ c ∈ before, decide (c ≠ (61 : UInt8)) = true := fun c hc =>
      decide_eq_true fun heq => hbefore (heq ▸ hc)
    have hstop (rest : CStr) : ∀ c ∈ (61 :: rest : CStr).head?, decide (c ≠ (61 : UInt8)) = false := by
      intro c hc
      cases hc
      rfl
    have hvalue : 10 ∉ value := fun h =>
      htext (List.mem_append_right _ (List.mem_cons_of_mem _ h))
    have hread (key : Key) : key.read (value ++ [10]) = key.read value := by
      rw [Key.read, Key.read, parseInteger_lineFeed hvalue]
    simp only [List.append_assoc, List.cons_append, valueText, takeWhile_append_of_stop hrun (hstop _),
      dropWhile_append_of_stop hrun (hstop _), List.tail_cons, hread]
  · simp only [if_neg hone]
    rfl

/-- A line without NUL that fits. -/
theorem lineReads_plain {line : FileLine} (s : Settings) (hsize : line.text.length < 255)
    (hzero : 0 ∉ line.text) : LineReads line s (applyLine s line.text) := by
  have hline : lineKey line = textKey line.text := if_neg (Nat.not_le.mpr hsize)
  rw [LineReads, hline, applyLine_eq]
  cases textKey line.text with
  | none => rfl
  | some key =>
    simp only [if_neg hzero]
    rfl

/-- What a line may set it may also leave alone, if it has a NUL or does not fit. -/
theorem lineReads_kept {line : FileLine} (s : Settings)
    (h : 255 ≤ line.text.length ∨ 0 ∈ line.text) : LineReads line s s := by
  rw [LineReads]
  cases hkey : lineKey line with
  | none => rfl
  | some key =>
    rcases h with hlong | hzero
    · rw [lineKey, if_pos hlong] at hkey
      cases hkey
    · simp only [if_pos hzero]
      refine ⟨s.get key, ?_⟩
      cases key <;> rfl

/-- What follows a NUL does not count. -/
theorem cut_before {text : CStr} (hzero : 0 ∈ text) (more : CStr) : cut (text ++ more) = cut text := by
  obtain ⟨before, after, rfl, hbefore⟩ := List.eq_append_cons_of_mem hzero
  have hrun : ∀ c ∈ before, decide (c ≠ (0 : UInt8)) = true := fun c hc =>
    decide_eq_true fun heq => hbefore (heq ▸ hc)
  have hstop (rest : CStr) : ∀ c ∈ (0 :: rest : CStr).head?, decide (c ≠ (0 : UInt8)) = false := by
    intro c hc
    cases hc
    rfl
  rw [cut, cut, List.append_assoc, List.cons_append, takeWhile_append_of_stop hrun (hstop _),
    takeWhile_append_of_stop hrun (hstop _)]

theorem cut_zero {text : CStr} (hfirst : text.head? = some 0) : cut text = [] := by
  cases text with
  | nil => rfl
  | cons c text =>
    cases hfirst
    rfl

theorem cut_ne_nil {text : CStr} (hne : text ≠ []) (hfirst : text.head? ≠ some 0) : cut text ≠ [] := by
  cases text with
  | nil => exact absurd rfl hne
  | cons c text =>
    have hc : c ≠ 0 := fun heq => hfirst (by rw [heq]; rfl)
    have hcut : cut (c :: text) = c :: cut text := by simp [cut, hc]
    rw [hcut]
    exact List.cons_ne_nil _ _

/-- An unterminated line is read up to its first NUL. -/
theorem lineReads_cut {line : FileLine} (s : Settings) (hsize : line.text.length < 255)
    (hzero : 0 ∈ line.text) (hlast : (cut line.text).count 61 = 1 → line.text.count 61 = 1) :
    LineReads line s (applyLine s (cut line.text)) := by
  by_cases hone : (cut line.text).count 61 = 1
  · have hmem : (61 : UInt8) ∈ cut line.text := List.count_pos_iff.mp (by rw [hone]; exact Nat.one_pos)
    have hname : (cut line.text).takeWhile (fun c => decide (c ≠ (61 : UInt8))) =
        line.text.takeWhile fun c => decide (c ≠ (61 : UInt8)) := by
      obtain ⟨before, value, hcut, hbefore⟩ := List.eq_append_cons_of_mem hmem
      have hrun : ∀ c ∈ before, decide (c ≠ (61 : UInt8)) = true := fun c hc =>
        decide_eq_true fun heq => hbefore (heq ▸ hc)
      have hstop (rest : CStr) : ∀ c ∈ (61 :: rest : CStr).head?, decide (c ≠ (61 : UInt8)) = false := by
        intro c hc
        cases hc
        rfl
      have htext : line.text = before ++ 61 :: (value ++ line.text.dropWhile fun c => decide (c ≠ 0)) := by
        rw [← List.cons_append, ← List.append_assoc, ← hcut]
        exact List.takeWhile_append_dropWhile.symm
      rw [hcut, takeWhile_append_of_stop hrun (hstop _), htext, takeWhile_append_of_stop hrun (hstop _)]
    have hkey : textKey (cut line.text) = lineKey line := by
      rw [lineKey, if_neg (Nat.not_le.mpr hsize), textKey, textKey, if_pos hone, if_pos (hlast hone), hname]
    rw [LineReads, applyLine_eq, hkey]
    cases lineKey line with
    | none => rfl
    | some key =>
      simp only [if_pos hzero]
      exact ⟨_, rfl⟩
  · have hkey : textKey (cut line.text) = none := if_neg hone
    rw [applyLine_eq, hkey]
    exact lineReads_kept s (.inr hzero)

/-- One turn of the loop, for what `fgets` stored. -/
theorem loadLines_got {file : CStr} {got : Fetched} (hne : file ≠ []) (hgot : fgets 255 file = got)
    (fuel : Nat) (s : Settings) : loadLines (fuel + 1) file s =
      if cut got.line ≠ [] ∧ (cut got.line).getLast? ≠ some 10 ∧ got.eof = false then
        loadLines fuel (skipLine got.rest) s
      else loadLines fuel got.rest (applyLine s (cut got.line)) := by
  rw [loadLines, if_neg hne, hgot]

theorem loadLines_nil (fuel : Nat) (s : Settings) : loadLines fuel [] s = s := by
  cases fuel <;> rfl

theorem getLast_cut {text : CStr} (htext : 10 ∉ text) : (cut text).getLast? ≠ some 10 := fun h =>
  htext (cut_subset text (List.mem_of_getLast? h))

/-- A line too long for the buffer is skipped to its end. -/
theorem loadLines_long {text more : CStr} (htext : 10 ∉ text) (hsize : 255 ≤ text.length)
    (hfirst : text.head? ≠ some 0) (fuel : Nat) (s : Settings) :
    loadLines (fuel + 1) (text ++ more) s = loadLines fuel (skipLine (text.drop 255 ++ more)) s := by
  have hne : text ++ more ≠ [] := by
    intro h
    rw [(List.append_eq_nil_iff.mp h).1] at hsize
    exact absurd hsize (by decide)
  have hhead : (text.take 255).head? = text.head? := by
    rw [List.head?_take]
    rfl
  have hpart : text.take 255 ≠ [] := by
    intro h
    have hlen := congrArg List.length h
    rw [List.length_take] at hlen
    simp only [List.length_nil] at hlen
    omega
  have hcut : cut (text.take 255) ≠ [] := cut_ne_nil hpart (by rw [hhead]; exact hfirst)
  have hlast : (cut (text.take 255)).getLast? ≠ some 10 := getLast_cut fun h => htext (List.mem_of_mem_take h)
  rw [loadLines_got hne (fgets_full htext hsize more)]
  exact if_pos ⟨hcut, hlast, rfl⟩

/-- A last line without a line feed. -/
theorem loadLines_last {text : CStr} (hne : text ≠ []) (htext : 10 ∉ text)
    (h : NulHarmless ⟨text, false⟩ []) (fuel : Nat) (s : Settings) :
    LineReads ⟨text, false⟩ s (loadLines (fuel + 1) text s) := by
  by_cases hsize : text.length < 255
  · rw [loadLines_got hne (fgets_eof htext hsize), if_neg fun hlong => Bool.noConfusion hlong.2.2,
      loadLines_nil]
    by_cases hzero : 0 ∈ text
    · exact lineReads_cut s hsize hzero (h.last rfl hsize)
    · dsimp only
      rw [cut_plain hzero]
      exact lineReads_plain s hsize hzero
  · have hlong : 255 ≤ text.length := Nat.not_lt.mp hsize
    have hkept : loadLines (fuel + 1) text s = s := by
      by_cases hfirst : text.head? = some 0
      · have hdrop : text.drop 255 = [] := List.drop_eq_nil_of_le (h.first hfirst)
        have htake : text.take 255 = text := List.take_of_length_le (h.first hfirst)
        have hgot := fgets_full htext hlong []
        rw [List.append_nil, hdrop, htake] at hgot
        rw [loadLines_got hne hgot, cut_zero hfirst, if_neg fun hcut => hcut.1 rfl]
        exact loadLines_nil fuel s
      · have hskip : loadLines (fuel + 1) (text ++ []) s =
            loadLines fuel (skipLine (text.drop 255 ++ [])) s := loadLines_long htext hlong hfirst fuel s
        rw [List.append_nil, List.append_nil, skipLine_unended fun h => htext (List.mem_of_mem_drop h),
          loadLines_nil] at hskip
        exact hskip
    rw [hkept]
    exact lineReads_kept s (.inl hlong)

/-- A line with its line feed: the loop goes on with the next one, from what this one did. -/
theorem loadLines_ended {text rest : CStr} (htext : 10 ∉ text)
    (h : NulHarmless ⟨text, true⟩ (fileLines rest)) {fuel : Nat}
    (hfuel : (text ++ 10 :: rest).length ≤ fuel) (s : Settings) :
    ∃ left mid, rest.length ≤ left ∧ LineReads ⟨text, true⟩ s mid ∧
      loadLines fuel (text ++ 10 :: rest) s = loadLines left rest mid := by
  rw [List.length_append, List.length_cons] at hfuel
  obtain ⟨fuel, rfl⟩ : ∃ k, fuel = k + 1 := ⟨fuel - 1, by omega⟩
  have hne : text ++ 10 :: rest ≠ [] := by simp
  have happly : applyLine s [] = s := rfl
  by_cases hsize : text.length < 255
  · by_cases hzero : 0 ∈ text
    · by_cases hfirst : text.head? = some 0
      · have hhead : (text ++ [10]).head? = some 0 := by
          rw [List.head?_append, hfirst]
          rfl
        refine ⟨fuel, s, by omega, lineReads_kept s (.inr hzero), ?_⟩
        rw [loadLines_got hne (fgets_line htext hsize), cut_zero hhead, if_neg fun hcut => hcut.1 rfl,
          happly]
      · -- the text after the NUL hides the line feed: the next line would go with this one
        have hlast : fileLines rest = [] := (h.inside rfl hsize hzero).resolve_left hfirst
        have hrest : rest = [] := by
          cases rest with
          | nil => rfl
          | cons c rest =>
            rw [fileLines] at hlast
            split at hlast
            · cases hlast
            · split at hlast <;> cases hlast
        subst hrest
        refine ⟨fuel, s, by omega, lineReads_kept s (.inr hzero), ?_⟩
        have htextne : text ≠ [] := List.ne_nil_of_mem hzero
        rw [loadLines_got hne (fgets_line htext hsize), cut_before hzero,
          if_pos ⟨cut_ne_nil htextne hfirst, getLast_cut htext, rfl⟩]
        rfl
    · refine ⟨fuel, applyLine s text, by omega, lineReads_plain s hsize hzero, ?_⟩
      rw [loadLines_line htext hzero hsize, applyLine_lineFeed s htext]
  · have hlong : 255 ≤ text.length := Nat.not_lt.mp hsize
    by_cases hfirst : text.head? = some 0
    · obtain ⟨fuel, rfl⟩ : ∃ k, fuel = k + 1 := ⟨fuel - 1, by omega⟩
      have hdrop : text.drop 255 = [] := List.drop_eq_nil_of_le (h.first hfirst)
      have htake : text.take 255 = text := List.take_of_length_le (h.first hfirst)
      have hgot := fgets_full htext hlong (10 :: rest)
      rw [hdrop, htake, List.nil_append] at hgot
      refine ⟨fuel, s, by omega, lineReads_kept s (.inl hlong), ?_⟩
      rw [loadLines_got hne hgot, cut_zero hfirst, if_neg fun hcut => hcut.1 rfl, happly]
      have hempty : loadLines (fuel + 1) ([] ++ 10 :: rest) s =
          loadLines fuel rest (applyLine s ([] ++ [10])) :=
        loadLines_line List.not_mem_nil List.not_mem_nil (by decide)
      exact hempty
    · refine ⟨fuel, s, by omega, lineReads_kept s (.inl hlong), ?_⟩
      rw [loadLines_long htext hlong hfirst, skipLine_ended fun h => htext (List.mem_of_mem_drop h)]

theorem loadLines_reads (file : CStr) : ∀ (fuel : Nat) (s : Settings), file.length ≤ fuel →
    NulsHarmless (fileLines file) → LinesRead (fileLines file) s (loadLines fuel file s) := by
  induction file using file_induction with
  | nil =>
    intro fuel s _ _
    exact loadLines_nil fuel s
  | last text hne htext =>
    intro fuel s hfuel h
    have hpos := List.length_pos_iff.mpr hne
    obtain ⟨fuel, rfl⟩ : ∃ k, fuel = k + 1 := ⟨fuel - 1, by omega⟩
    rw [fileLines_unended hne htext] at h ⊢
    exact ⟨_, loadLines_last hne htext h.1 fuel s, rfl⟩
  | line text rest htext ih =>
    intro fuel s hfuel h
    rw [fileLines_ended htext] at h ⊢
    obtain ⟨left, mid, hleft, hread, heq⟩ := loadLines_ended htext h.1 hfuel s
    rw [heq]
    exact ⟨mid, hread, ih left mid hleft h.2⟩

/-- A file whose NULs are harmless is read line by line, each on its own. -/
theorem load_line_by_line {path : CStr} {files : Files} {file : CStr} (hfile : files path = some file)
    (h : NulsHarmless (fileLines file)) : (settingsLoad path files .works).2 = .ok () ∧
      LinesRead (fileLines file) settingsDefaults (settingsLoad path files .works).1 := by
  have hload : settingsLoad path files .works = (settingsParse file, .ok ()) := by
    simp only [settingsLoad, hfile]
  rw [hload]
  exact ⟨rfl, loadLines_reads file file.length settingsDefaults (Nat.le_refl _) h⟩

/-- A NUL at the start of a line, a carriage return, and a NUL after the last value. -/
def harmlessFile : CStr :=
  [0, 120, 10] ++ cstr "brightness=96\r\nbrightness_auto=0\nunknown=1\nsleep_minutes=15" ++ [0, 120]

theorem harmless_file_read :
    LinesRead (fileLines harmlessFile) settingsDefaults
      (settingsLoad (cstr "/data/taq102.conf") (fun _ => some harmlessFile) .works).1 :=
  (load_line_by_line rfl (by decide +kernel)).2

/-- A NUL inside a line takes the next line with it. -/
theorem inside_nul_disturbs {text : CStr} (htext : 10 ∉ text) (hsize : text.length < 255)
    (hzero : 0 ∈ text) (hfirst : text.head? ≠ some 0) :
    ¬ LinesRead (fileLines (text ++ 10 :: cstr "brightness=8\n")) settingsDefaults
      (settingsParse (text ++ 10 :: cstr "brightness=8\n")) := by
  have hnext : fileLines (cstr "brightness=8\n") = [⟨cstr "brightness=8", true⟩] := by decide +kernel
  have hskip : skipLine (cstr "brightness=8\n") = [] := by decide +kernel
  have hcode : settingsParse (text ++ 10 :: cstr "brightness=8\n") = settingsDefaults := by
    have hne : text ≠ [] := List.ne_nil_of_mem hzero
    obtain ⟨fuel, hfuel⟩ : ∃ k, (text ++ 10 :: cstr "brightness=8\n").length = k + 1 :=
      ⟨text.length + (cstr "brightness=8\n").length, by simp [Nat.add_assoc]⟩
    rw [settingsParse, hfuel, loadLines_got (by simp) (fgets_line htext hsize), cut_before hzero,
      if_pos ⟨cut_ne_nil hne hfirst, getLast_cut htext, rfl⟩, hskip, loadLines_nil]
  rw [fileLines_ended htext, hnext, hcode]
  rintro ⟨_, _, mid, hread, hend⟩
  have hkey : lineKey ⟨cstr "brightness=8", true⟩ = some .brightness := by decide +kernel
  have hvalue : Key.read .brightness (valueText (cstr "brightness=8")) = 8 := by decide +kernel
  simp only [LineReads, hkey, if_neg (show 0 ∉ cstr "brightness=8" by decide +kernel), hvalue] at hread
  have hlevel : settingsDefaults.brightness = 8 := by
    rw [hend, hread]
    rfl
  exact absurd hlevel (by decide)

/-- A NUL hides a line: the load skips the brightness after it. -/
theorem nul_hides_next_line :
    ¬ LinesRead (fileLines ([97, 0, 98] ++ 10 :: cstr "brightness=8\n")) settingsDefaults
      (settingsLoad (cstr "/data/taq102.conf")
        (fun _ => some ([97, 0, 98] ++ 10 :: cstr "brightness=8\n")) .works).1 :=
  inside_nul_disturbs (by decide) (by decide) (by decide) (by decide)

end Taq102.Runtime
