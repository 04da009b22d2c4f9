import Mathlib.Data.List.TakeWhile
import Mathlib.Data.Nat.Digits.Defs
import Mathlib.Data.Nat.Digits.Lemmas

/-! C strings as lists of bytes without the terminator, the number formats written to them and
read back from them, and the lines of a file. -/
namespace Taq102.Lib

abbrev CStr := List UInt8

/-- The UTF-8 bytes of a literal. -/
def cstr (s : String) : CStr := s.toUTF8.data.toList

/-- `%d` of a value that is not negative. -/
def decimalNat (n : Nat) : CStr :=
  if n = 0 then [48] else ((Nat.digits 10 n).map fun d => UInt8.ofNat (48 + d)).reverse

/-- `%d`. -/
def decimal (n : Int) : CStr := (if n < 0 then [45] else []) ++ decimalNat n.natAbs

/-- What `snprintf` stores in a buffer of `size` bytes. -/
def snprintf (size : Nat) (s : CStr) : CStr := s.take (size - 1)

def isSpace (c : UInt8) : Bool := c == 32 || (9 ≤ c && c ≤ 13)

def isDigit (c : UInt8) : Bool := 48 ≤ c && c ≤ 57

def digitsValue (digits : CStr) : Nat := digits.foldl (fun v c => 10 * v + (c.toNat - 48)) 0

def longMax : Nat := 2 ^ 31 - 1

/-- The result of `strtol`: whether a number was there, its value, the text after it, and whether
`errno` is `ERANGE`. -/
structure Parsed where
  found : Bool
  value : Int
  rest : CStr
  range : Bool
  deriving DecidableEq, Repr

/-- The digits of a number after its sign. -/
def signedDigits (text : CStr) (negative : Bool) (body : CStr) : Parsed :=
  let digits := body.takeWhile isDigit
  let limit := if negative then longMax + 1 else longMax
  let size := min (digitsValue digits) limit
  if digits = [] then { found := false, value := 0, rest := text, range := false }
  else
    { found := true
      value := if negative then -size else size
      rest := body.dropWhile isDigit
      range := decide (limit < digitsValue digits) }

/-- `strtol` in base ten. -/
def strtol (text : CStr) : Parsed :=
  match text.dropWhile isSpace with
  | 45 :: body => signedDigits text true body
  | 43 :: body => signedDigits text false body
  | body => signedDigits text false body

/-- The C string in a buffer. -/
def cut (bytes : CStr) : CStr := bytes.takeWhile (· ≠ 0)

/-- What `fgets` stores, the file after it, and whether the end of the file was met. -/
structure Fetched where
  line : CStr
  rest : CStr
  eof : Bool

/-- `fgets` for a buffer of `size + 1` bytes. -/
def fgets : Nat → CStr → Fetched
  | 0, file => { line := [], rest := file, eof := false }
  | _ + 1, [] => { line := [], rest := [], eof := true }
  | size + 1, c :: file =>
    if c = 10 then { line := [c], rest := file, eof := false }
    else
      let more := fgets size file
      { more with line := c :: more.line }

/-- The file after the next line feed. -/
def skipLine (file : CStr) : CStr := (file.dropWhile (· ≠ 10)).tail

/-- A line of a file without its line feed, and whether there is one. -/
structure FileLine where
  text : CStr
  ended : Bool
  deriving DecidableEq, Repr

def fileLines : CStr → List FileLine
  | [] => []
  | c :: file =>
    if c = 10 then ⟨[], true⟩ :: fileLines file
    else match fileLines file with
      | [] => [⟨[c], false⟩]
      | line :: rest => { line with text := c :: line.text } :: rest

theorem isDigit_ofNat {d : Nat} (h : d < 10) : isDigit (UInt8.ofNat (48 + d)) = true := by
  have hbyte : (UInt8.ofNat (48 + d)).toNat = 48 + d := by
    rw [UInt8.toNat_ofNat']
    omega
  rw [isDigit, Bool.and_eq_true, decide_eq_true_eq, decide_eq_true_eq, UInt8.le_iff_toNat_le,
    UInt8.le_iff_toNat_le, hbyte]
  exact ⟨Nat.le_add_right _ _, by change 48 + d ≤ 57; omega⟩

theorem isDigit_decimalNat (n : Nat) : ∀ c ∈ decimalNat n, isDigit c = true := by
  intro c hc
  rw [decimalNat] at hc
  split at hc
  · rw [List.mem_singleton.mp hc]
    rfl
  · rw [List.mem_reverse, List.mem_map] at hc
    obtain ⟨d, hd, rfl⟩ := hc
    exact isDigit_ofNat (Nat.digits_lt_base (by omega) hd)

theorem decimalNat_ne_nil (n : Nat) : decimalNat n ≠ [] := by
  rw [decimalNat]
  split
  · exact List.cons_ne_nil _ _
  · simpa [Nat.digits_eq_nil_iff_eq_zero] using ‹n ≠ 0›

theorem decimalNat_length {n k : Nat} (hk : 0 < k) (hn : n < 10 ^ k) : (decimalNat n).length ≤ k := by
  rw [decimalNat]
  split
  · exact hk
  · rw [List.length_reverse, List.length_map]
    exact (Nat.digits_length_le_iff (by omega) n).mpr hn

theorem digitsValue_reverse (digits : List Nat) (h : ∀ d ∈ digits, d < 10) :
    digitsValue (digits.map fun d => UInt8.ofNat (48 + d)).reverse = Nat.ofDigits 10 digits := by
  induction digits with
  | nil => rfl
  | cons d rest ih =>
    have hd : d < 10 := h d List.mem_cons_self
    have hbyte : (UInt8.ofNat (48 + d)).toNat - 48 = d := by
      rw [UInt8.toNat_ofNat']
      omega
    have hrest := ih fun e he => h e (List.mem_cons_of_mem d he)
    rw [digitsValue] at hrest
    rw [digitsValue, List.map_cons, List.reverse_cons, List.foldl_append, hrest, List.foldl_cons,
      List.foldl_nil, hbyte, Nat.ofDigits_cons]
    exact Nat.add_comm _ _

/-- A number that was written is read back. -/
theorem digitsValue_decimalNat (n : Nat) : digitsValue (decimalNat n) = n := by
  rw [decimalNat]
  split
  · rename_i hzero
    rw [hzero]
    rfl
  · rw [digitsValue_reverse _ fun d hd => Nat.digits_lt_base (by omega) hd, Nat.ofDigits_digits]

theorem takeWhile_append_of_stop {p : UInt8 → Bool} {run rest : CStr} (hrun : ∀ c ∈ run, p c = true)
    (hrest : ∀ c ∈ rest.head?, p c = false) : (run ++ rest).takeWhile p = run := by
  rw [List.takeWhile_append_of_pos hrun]
  cases rest with
  | nil => simp
  | cons c rest => simp [hrest c rfl]

theorem dropWhile_append_of_stop {p : UInt8 → Bool} {run rest : CStr} (hrun : ∀ c ∈ run, p c = true)
    (hrest : ∀ c ∈ rest.head?, p c = false) : (run ++ rest).dropWhile p = rest := by
  rw [List.dropWhile_append_of_pos hrun]
  cases rest with
  | nil => rfl
  | cons c rest => simp [hrest c rfl]

/-- The texts before the first separators, and those after. -/
theorem split_separator {sep : UInt8} {front front' rest rest' : CStr} (hfront : sep ∉ front)
    (hfront' : sep ∉ front') (h : front ++ sep :: rest = front' ++ sep :: rest') :
    front = front' ∧ rest = rest' := by
  have hbefore {text : CStr} (rest : CStr) (htext : sep ∉ text) :
      (text ++ sep :: rest).takeWhile (fun c => decide (c ≠ sep)) = text :=
    takeWhile_append_of_stop (fun c hc => decide_eq_true fun heq => htext (heq ▸ hc)) (by simp)
  have hsame : front = front' := by rw [← hbefore rest hfront, h, hbefore rest' hfront']
  subst hsame
  exact ⟨rfl, (List.cons.inj (List.append_cancel_left h)).2⟩

theorem isDigit_low {c : UInt8} (h : isDigit c = true) : 48 ≤ c.toNat := by
  rw [isDigit, Bool.and_eq_true, decide_eq_true_eq, UInt8.le_iff_toNat_le] at h
  exact h.1

theorem isSpace_isDigit {c : UInt8} (h : isDigit c = true) : isSpace c = false := by
  have hlow := isDigit_low h
  have hblank : c ≠ 32 := fun heq => by
    rw [heq] at hlow
    exact absurd hlow (by decide)
  have hrange : ¬ c ≤ 13 := fun hle => by
    have hnat : c.toNat ≤ 13 := UInt8.le_iff_toNat_le.mp hle
    omega
  simp [isSpace, hblank, hrange]

/-- A number that starts a text is what `strtol` reads. -/
theorem strtol_decimalNat {n : Nat} (hn : n ≤ longMax) {rest : CStr}
    (hrest : ∀ c ∈ rest.head?, isDigit c = false) :
    strtol (decimalNat n ++ rest) = { found := true, value := n, rest, range := false } := by
  obtain ⟨c, digits, hshape⟩ := List.exists_cons_of_ne_nil (decimalNat_ne_nil n)
  have hdigit : isDigit c = true := isDigit_decimalNat n c (by rw [hshape]; exact List.mem_cons_self)
  have hlow := isDigit_low hdigit
  have hblank : (decimalNat n ++ rest).dropWhile isSpace = c :: (digits ++ rest) := by
    rw [hshape, List.cons_append, List.dropWhile_cons_of_neg]
    rw [isSpace_isDigit hdigit]
    exact Bool.false_ne_true
  have hbody : strtol (decimalNat n ++ rest) =
      signedDigits (decimalNat n ++ rest) false (decimalNat n ++ rest) := by
    rw [strtol, hblank]
    split
    · rename_i hminus
      rw [(List.cons.inj hminus).1] at hlow
      exact absurd hlow (by decide)
    · rename_i hplus
      rw [(List.cons.inj hplus).1] at hlow
      exact absurd hlow (by decide)
    · rw [hshape, List.cons_append]
  have htake := takeWhile_append_of_stop (isDigit_decimalNat n) hrest
  have hdrop := dropWhile_append_of_stop (isDigit_decimalNat n) hrest
  have hsize : min n longMax = n := Nat.min_eq_left hn
  rw [hbody, signedDigits]
  simp only [htake, hdrop, digitsValue_decimalNat, decimalNat_ne_nil, Bool.false_eq_true, if_false,
    hsize, not_lt.mpr hn, decide_false]

/-- So is a number with its sign. -/
theorem strtol_decimal {n : Int} (hlow : -(longMax + 1 : Int) ≤ n) (hhigh : n ≤ longMax) (rest : CStr)
    (hrest : ∀ c ∈ rest.head?, isDigit c = false) :
    strtol (decimal n ++ rest) = { found := true, value := n, rest, range := false } := by
  by_cases hn : n < 0
  · have hsize : n.natAbs ≤ longMax + 1 := by omega
    have htake := takeWhile_append_of_stop (isDigit_decimalNat n.natAbs) hrest
    have hdrop := dropWhile_append_of_stop (isDigit_decimalNat n.natAbs) hrest
    have hvalue : (-(n.natAbs : Int)) = n := by omega
    rw [decimal, if_pos hn]
    change signedDigits _ true (decimalNat n.natAbs ++ rest) = _
    rw [signedDigits]
    simp only [htake, hdrop, digitsValue_decimalNat, decimalNat_ne_nil, if_false, if_true,
      Nat.min_eq_left hsize, not_lt.mpr hsize, decide_false, hvalue]
  · have hsize : n.natAbs ≤ longMax := by omega
    have hvalue : (n.natAbs : Int) = n := by omega
    rw [decimal, if_neg hn, List.nil_append, strtol_decimalNat hsize hrest, hvalue]

/-- Whatever the text, the value is a `long`. -/
theorem strtol_long (text : CStr) : -(longMax + 1 : Int) ≤ (strtol text).value ∧ (strtol text).value ≤ longMax := by
  have hsigned (negative : Bool) (body : CStr) : -(longMax + 1 : Int) ≤ (signedDigits text negative body).value ∧
      (signedDigits text negative body).value ≤ longMax := by
    rw [signedDigits]
    split
    · exact ⟨(by omega : -(longMax + 1 : Int) ≤ 0), Int.natCast_nonneg _⟩
    · cases negative with
      | false =>
        have hsize := Nat.min_le_right (digitsValue (body.takeWhile isDigit)) longMax
        simp only [Bool.false_eq_true, if_false]
        omega
      | true =>
        have hsize := Nat.min_le_right (digitsValue (body.takeWhile isDigit)) (longMax + 1)
        simp only [if_true]
        omega
  rw [strtol]
  split
  · exact hsigned true _
  · exact hsigned false _
  · exact hsigned false _

theorem decimal_injective {n m : Int} (hn : -(longMax + 1 : Int) ≤ n ∧ n ≤ longMax)
    (hm : -(longMax + 1 : Int) ≤ m ∧ m ≤ longMax) (h : decimal n = decimal m) : n = m := by
  have hvalue := strtol_decimal hn.1 hn.2 [] nofun
  have hvalue' := strtol_decimal hm.1 hm.2 [] nofun
  rw [h, hvalue'] at hvalue
  exact (congrArg Parsed.value hvalue).symm

theorem mem_dropWhile_of {p : UInt8 → Bool} {c : UInt8} {text : CStr} (hc : c ∈ text) (hp : p c = false) :
    c ∈ text.dropWhile p := by
  rw [← List.takeWhile_append_dropWhile (p := p) (l := text), List.mem_append] at hc
  refine hc.resolve_left fun h => ?_
  rw [List.mem_takeWhile_imp h] at hp
  cases hp

/-- A byte that is no part of a number is left. -/
theorem mem_strtol_rest {c : UInt8} {text : CStr} (hc : c ∈ text) (hspace : isSpace c = false)
    (hdigit : isDigit c = false) (hsign : c ≠ 45 ∧ c ≠ 43) : c ∈ (strtol text).rest := by
  have hbody := mem_dropWhile_of hc hspace
  have hsigned (negative : Bool) {body : CStr} (h : c ∈ body) :
      c ∈ (signedDigits text negative body).rest := by
    rw [signedDigits]
    split
    · exact hc
    · exact mem_dropWhile_of h hdigit
  rw [strtol]
  split
  · rename_i body hshape
    rw [hshape, List.mem_cons] at hbody
    exact hsigned true (hbody.resolve_left hsign.1)
  · rename_i body hshape
    rw [hshape, List.mem_cons] at hbody
    exact hsigned false (hbody.resolve_left hsign.2)
  · exact hsigned false hbody

theorem cut_subset (text : CStr) : cut text ⊆ text := (List.takeWhile_prefix _).subset

theorem cut_plain {text : CStr} (hzero : 0 ∉ text) : cut text = text :=
  List.takeWhile_eq_self_iff.mpr fun _ hc => decide_eq_true fun heq => hzero (heq ▸ hc)

theorem fgets_line {line rest : CStr} {size : Nat} (hline : 10 ∉ line) (hsize : line.length < size) :
    fgets size (line ++ 10 :: rest) = { line := line ++ [10], rest, eof := false } := by
  induction line generalizing size with
  | nil =>
    cases size with
    | zero => exact absurd hsize (Nat.not_lt_zero _)
    | succ size => simp [fgets]
  | cons c line ih =>
    cases size with
    | zero => exact absurd hsize (Nat.not_lt_zero _)
    | succ size =>
      have hc : c ≠ 10 := fun h => hline (by rw [h]; exact List.mem_cons_self)
      have hmore : fgets size (line ++ 10 :: rest) = { line := line ++ [10], rest, eof := false } :=
        ih (fun h => hline (List.mem_cons_of_mem c h)) (Nat.lt_of_succ_lt_succ hsize)
      rw [List.cons_append, fgets, if_neg hc, hmore]
      rfl

/-- A line as long as the buffer fills it. -/
theorem fgets_full {text : CStr} {size : Nat} (htext : 10 ∉ text) (hsize : size ≤ text.length)
    (more : CStr) : fgets size (text ++ more) =
      { line := text.take size, rest := text.drop size ++ more, eof := false } := by
  induction text generalizing size with
  | nil =>
    have hzero : size = 0 := Nat.le_zero.mp hsize
    subst hzero
    rfl
  | cons c text ih =>
    cases size with
    | zero => rfl
    | succ size =>
      have hc : c ≠ 10 := fun h => htext (by rw [h]; exact List.mem_cons_self)
      have hmore := ih (fun h => htext (List.mem_cons_of_mem c h)) (Nat.le_of_succ_le_succ hsize)
      rw [List.cons_append, fgets, if_neg hc, hmore]
      rfl

/-- The end of the file ends a line that fits. -/
theorem fgets_eof {text : CStr} {size : Nat} (htext : 10 ∉ text) (hsize : text.length < size) :
    fgets size text = { line := text, rest := [], eof := true } := by
  induction text generalizing size with
  | nil =>
    cases size with
    | zero => exact absurd hsize (Nat.not_lt_zero _)
    | succ size => rfl
  | cons c text ih =>
    cases size with
    | zero => exact absurd hsize (Nat.not_lt_zero _)
    | succ size =>
      have hc : c ≠ 10 := fun h => htext (by rw [h]; exact List.mem_cons_self)
      have hmore := ih (fun h => htext (List.mem_cons_of_mem c h)) (Nat.lt_of_succ_lt_succ hsize)
      rw [fgets, if_neg hc, hmore]

/-- What is read and what is left are the file. -/
theorem fgets_append (size : Nat) (file : CStr) : (fgets size file).line ++ (fgets size file).rest = file := by
  induction size generalizing file with
  | zero => rfl
  | succ size ih =>
    cases file with
    | nil => rfl
    | cons c file =>
      rw [fgets]
      split_ifs with hc
      · rfl
      · exact congrArg (c :: ·) (ih file)

theorem fgets_rest_lt {file : CStr} {size : Nat} (hne : file ≠ []) (hsize : 0 < size) :
    (fgets size file).rest.length < file.length := by
  have hlength := congrArg List.length (fgets_append size file)
  have hline : (fgets size file).line ≠ [] := by
    obtain ⟨c, file, rfl⟩ := List.exists_cons_of_ne_nil hne
    obtain ⟨size, rfl⟩ := Nat.exists_eq_add_of_lt hsize
    rw [fgets]
    split_ifs with hc <;> exact List.cons_ne_nil _ _
  have hpos := List.length_pos_iff.mpr hline
  rw [List.length_append] at hlength
  omega

theorem fgets_length (size : Nat) (file : CStr) : (fgets size file).line.length ≤ size := by
  induction size generalizing file with
  | zero => exact le_rfl
  | succ size ih =>
    cases file with
    | nil => exact Nat.zero_le _
    | cons c file =>
      rw [fgets]
      split_ifs with hc
      · exact Nat.succ_le_succ (Nat.zero_le _)
      · exact Nat.succ_le_succ (ih file)

theorem ne_lineFeed {text : CStr} (htext : 10 ∉ text) : ∀ c ∈ text, decide (c ≠ 10) = true :=
  fun _ hc => decide_eq_true fun h => htext (h ▸ hc)

theorem skipLine_ended {text : CStr} (htext : 10 ∉ text) (rest : CStr) :
    skipLine (text ++ 10 :: rest) = rest := by
  rw [skipLine, dropWhile_append_of_stop (ne_lineFeed htext) (by intro c hc; cases hc; rfl)]
  rfl

theorem skipLine_unended {text : CStr} (htext : 10 ∉ text) : skipLine text = [] := by
  have hall : text.dropWhile (fun c => decide (c ≠ 10)) = [] :=
    List.dropWhile_eq_nil_iff.mpr (ne_lineFeed htext)
  rw [skipLine, hall]
  rfl

theorem fileLines_ended {text : CStr} (htext : 10 ∉ text) (rest : CStr) :
    fileLines (text ++ 10 :: rest) = ⟨text, true⟩ :: fileLines rest := by
  induction text with
  | nil => rfl
  | cons c text ih =>
    have hc : c ≠ 10 := fun h => htext (by rw [h]; exact List.mem_cons_self)
    rw [List.cons_append, fileLines, if_neg hc, ih fun h => htext (List.mem_cons_of_mem c h)]

theorem fileLines_unended {text : CStr} (hne : text ≠ []) (htext : 10 ∉ text) :
    fileLines text = [⟨text, false⟩] := by
  induction text with
  | nil => exact absurd rfl hne
  | cons c text ih =>
    have hc : c ≠ 10 := fun h => htext (by rw [h]; exact List.mem_cons_self)
    rw [fileLines, if_neg hc]
    cases text with
    | nil => rfl
    | cons d text =>
      rw [ih (List.cons_ne_nil d text) fun h => htext (List.mem_cons_of_mem c h)]

/-- A file line by line. -/
theorem file_induction {P : CStr → Prop} (nil : P [])
    (last : ∀ text, text ≠ [] → 10 ∉ text → P text)
    (line : ∀ text rest, 10 ∉ text → P rest → P (text ++ 10 :: rest)) (file : CStr) : P file := by
  induction hlen : file.length using Nat.strong_induction_on generalizing file with
  | _ n ih =>
    by_cases hfeed : 10 ∈ file
    · obtain ⟨text, rest, rfl, htext⟩ := List.eq_append_cons_of_mem hfeed
      refine line text rest htext (ih rest.length ?_ rest rfl)
      rw [← hlen, List.length_append, List.length_cons]
      omega
    · by_cases hne : file = []
      · rw [hne]
        exact nil
      · exact last file hne hfeed

/-- A line feed after a text is no part of the number in it. -/
theorem strtol_lineFeed (text : CStr) :
    (strtol (text ++ [10])).found = (strtol text).found ∧
      (strtol (text ++ [10])).value = (strtol text).value ∧
      (strtol (text ++ [10])).range = (strtol text).range ∧
      ((strtol text).found = true → (strtol (text ++ [10])).rest = (strtol text).rest ++ [10]) := by
  have hdigits (body : CStr) : (body ++ [10]).takeWhile isDigit = body.takeWhile isDigit ∧
      (body ++ [10]).dropWhile isDigit = body.dropWhile isDigit ++ [10] := by
    induction body with
    | nil => exact ⟨rfl, rfl⟩
    | cons c body ih =>
      rw [List.cons_append, List.takeWhile_cons, List.dropWhile_cons, List.takeWhile_cons,
        List.dropWhile_cons, ih.1, ih.2]
      cases isDigit c <;> exact ⟨rfl, rfl⟩
  have hsigned (text text' : CStr) (negative : Bool) (body : CStr) :
      (signedDigits text' negative (body ++ [10])).found = (signedDigits text negative body).found ∧
      (signedDigits text' negative (body ++ [10])).value = (signedDigits text negative body).value ∧
      (signedDigits text' negative (body ++ [10])).range = (signedDigits text negative body).range ∧
      ((signedDigits text negative body).found = true →
        (signedDigits text' negative (body ++ [10])).rest =
          (signedDigits text negative body).rest ++ [10]) := by
    simp only [signedDigits, (hdigits body).1, (hdigits body).2]
    by_cases hnone : body.takeWhile isDigit = [] <;> simp [hnone]
  have hspaces : (text ++ [10]).dropWhile isSpace =
      if text.dropWhile isSpace = [] then [] else text.dropWhile isSpace ++ [10] := by
    rw [List.dropWhile_append]
    cases text.dropWhile isSpace <;> rfl
  rw [strtol, strtol, hspaces]
  cases htext : text.dropWhile isSpace with
  | nil => exact ⟨rfl, rfl, rfl, fun h => Bool.noConfusion h⟩
  | cons c body =>
    simp only [reduceCtorEq, if_false, List.cons_append]
    by_cases hminus : c = 45
    · subst hminus
      exact hsigned text _ true body
    by_cases hplus : c = 43
    · subst hplus
      exact hsigned text _ false body
    · have hplain := hsigned text (text ++ [10]) false (c :: body)
      rw [List.cons_append] at hplain
      split <;> simp_all

end Taq102.Lib
