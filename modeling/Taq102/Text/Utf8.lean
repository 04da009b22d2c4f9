import Taq102.Lib.CString
import Taq102.Lib.Utf8

/-! The code points of a text (`next_cp` of `font.c`): what a UTF-8 text decodes to, and that no
byte string leads the decoder past its terminator. -/
namespace Taq102.Text
open Taq102.Lib Utf8

/-- The memory from a `const char *` on, the terminator and what follows it included. -/
abbrev Memory := List UInt8

/-- The loop over the continuation bytes: the assembled value, `none` where it met another byte,
and the pointer. Reading past the memory has no result. -/
def continuation : Nat → Nat → Memory → Option (Option Nat × Memory)
  | 0, cp, p => some (some cp, p)
  | _ + 1, _, [] => none
  | n + 1, cp, c :: p =>
    if isContinuation c then continuation n ((cp <<< 6) ||| (c.toNat &&& 63)) p
    else some (none, c :: p)

/-- The continuation bytes a first byte announces. -/
def trailing (first : Nat) : Nat :=
  if 0xc2 ≤ first ∧ first ≤ 0xdf then 1
  else if 0xe0 ≤ first ∧ first ≤ 0xef then 2
  else if 0xf0 ≤ first ∧ first ≤ 0xf4 then 3
  else 0

/-- The code point a complete sequence stands for. -/
def sequenceCp (minimum cp : Nat) : Nat :=
  if cp < minimum ∨ 0x10ffff < cp ∨ (0xd800 ≤ cp ∧ cp ≤ 0xdfff) then 0xfffd
  else if cp ≤ 0xff ∨ cp = 0x2026 then cp else 0xfffd

/-- The result once the loop is over. -/
def finish (minimum : Nat) : Option Nat × Memory → Nat × Memory
  | (none, p) => (0xfffd, p)
  | (some cp, p) => (sequenceCp minimum cp, p)

/-- The code point at a pointer, and the pointer after it. -/
def nextCp : Memory → Option (Nat × Memory)
  | [] => none
  | c :: p =>
    let first := c.toNat
    if first < 128 then some (first, p)
    else
      let n := trailing first
      let cp := first &&& (if n = 1 then 31 else if n = 2 then 15 else 7)
      let minimum := if n = 1 then 0x80 else if n = 2 then 0x800 else 0x10000
      if n = 0 then some (0xfffd, p)
      else (continuation n cp p).map (finish minimum)

/-- The code points of a text, each with the pointer after it, as `while (*text)` visits them. -/
def visit : Nat → Memory → Option (List (Nat × Memory))
  | 0, _ => none
  | fuel + 1, text => do
    let c ← text.head?
    if c = 0 then some []
    else
      let next ← nextCp text
      let more ← visit fuel next.2
      some (next :: more)

def codePoints (text : Memory) : Option (List (Nat × Memory)) := visit text.length text

/-- What is drawn for a character: the code points of the installed faces. -/
def shown (c : Char) : Nat := if c.toNat ≤ 0xff ∨ c.toNat = 0x2026 then c.toNat else 0xfffd

section Sequence
variable {n cp : Nat} {p rest : Memory} {value : Option Nat}

theorem continuation_cons {c : UInt8} (h : isContinuation c = true) :
    continuation (n + 1) cp (c :: p) = continuation n (cp * 64 + c.toNat % 64) p := by
  rw [continuation, if_pos h, shift_or]

theorem continuation_stop {c : UInt8} (h : isContinuation c = false) :
    continuation (n + 1) cp (c :: p) = some (none, c :: p) := by
  rw [continuation, if_neg (by rw [h]; exact Bool.false_ne_true)]

/-- The loop takes continuation bytes only, and all that were announced when it assembles a
value. -/
theorem continuation_taken (h : continuation n cp p = some (value, rest)) :
    ∃ tail, p = tail ++ rest ∧ (∀ c ∈ tail, isContinuation c = true) ∧
      (∀ v, value = some v →
        tail.length = n ∧ v = tail.foldl (fun v c => v * 64 + c.toNat % 64) cp) := by
  induction n generalizing cp p with
  | zero =>
    cases h
    refine ⟨[], rfl, fun c hc => absurd hc List.not_mem_nil, fun v hv => ⟨rfl, ?_⟩⟩
    exact (Option.some.inj hv).symm
  | succ n ih =>
    cases p with
    | nil => cases h
    | cons c p =>
      cases hc : isContinuation c with
      | false =>
        rw [continuation_stop hc] at h
        cases h
        exact ⟨[], rfl, fun c hc => absurd hc List.not_mem_nil, fun v hv => nomatch hv⟩
      | true =>
        rw [continuation_cons hc] at h
        obtain ⟨tail, hp, htail, hvalue⟩ := ih h
        refine ⟨c :: tail, by rw [hp]; rfl, List.forall_mem_cons.mpr ⟨hc, htail⟩, fun v hv => ?_⟩
        obtain ⟨hlength, hv⟩ := hvalue v hv
        exact ⟨by rw [List.length_cons, hlength], hv⟩

theorem zero_stops : isContinuation 0 = false := rfl

/-- The loop stays before a byte that continues nothing. -/
theorem continuation_total {s : CStr} {stop : UInt8} (hstop : isContinuation stop = false)
    (beyond : Memory) : ∃ value rest, continuation n cp (s ++ stop :: beyond) =
      some (value, rest ++ stop :: beyond) := by
  induction n generalizing cp s with
  | zero => exact ⟨some cp, s, rfl⟩
  | succ n ih =>
    cases s with
    | nil => exact ⟨none, [], continuation_stop hstop⟩
    | cons c s =>
      cases hc : isContinuation c with
      | false => exact ⟨none, c :: s, continuation_stop hc⟩
      | true =>
        obtain ⟨value, rest, hrest⟩ := @ih (cp * 64 + c.toNat % 64) s
        exact ⟨value, rest, (continuation_cons hc).trans hrest⟩

end Sequence

section Next
variable {c : UInt8} {p rest : Memory} {cp : Nat}

theorem nextCp_ascii (h : c.toNat < 128) : nextCp (c :: p) = some (c.toNat, p) := if_pos h

theorem nextCp_bare (h : 128 ≤ c.toNat) (hnone : trailing c.toNat = 0) :
    nextCp (c :: p) = some (0xfffd, p) := by
  simp only [nextCp]
  rw [if_neg (by omega), if_pos hnone]

theorem nextCp_two (h : 0xc2 ≤ c.toNat) (h' : c.toNat ≤ 0xdf) :
    nextCp (c :: p) = (continuation 1 (c.toNat % 32) p).map (finish 0x80) := by
  have hn : trailing c.toNat = 1 := if_pos ⟨h, h'⟩
  have hbits : c.toNat &&& 31 = c.toNat % 32 := Nat.and_two_pow_sub_one_eq_mod _ 5
  simp only [nextCp, hn, if_true]
  rw [if_neg (by omega), if_neg (by omega), hbits]

theorem nextCp_three (h : 0xe0 ≤ c.toNat) (h' : c.toNat ≤ 0xef) :
    nextCp (c :: p) = (continuation 2 (c.toNat % 16) p).map (finish 0x800) := by
  have hn : trailing c.toNat = 2 := by
    rw [trailing, if_neg (by omega), if_pos ⟨h, h'⟩]
  have hbits : c.toNat &&& 15 = c.toNat % 16 := Nat.and_two_pow_sub_one_eq_mod _ 4
  simp only [nextCp, hn, if_true]
  rw [if_neg (by omega), if_neg (by omega), if_neg (by omega), if_neg (by omega), hbits]

theorem nextCp_four (h : 0xf0 ≤ c.toNat) (h' : c.toNat ≤ 0xf4) :
    nextCp (c :: p) = (continuation 3 (c.toNat % 8) p).map (finish 0x10000) := by
  have hn : trailing c.toNat = 3 := by
    rw [trailing, if_neg (by omega), if_neg (by omega), if_pos ⟨h, h'⟩]
  have hbits : c.toNat &&& 7 = c.toNat % 8 := Nat.and_two_pow_sub_one_eq_mod _ 3
  simp only [nextCp, hn]
  rw [if_neg (by omega), if_neg (by omega), if_neg (by omega), if_neg (by omega), if_neg (by omega),
    if_neg (by omega), hbits]

/-- The kinds of first bytes. -/
theorem first_cases (c : UInt8) {P : Prop} (ascii : c.toNat < 128 → P)
    (bare : 128 ≤ c.toNat → trailing c.toNat = 0 → P)
    (two : 0xc2 ≤ c.toNat → c.toNat ≤ 0xdf → P) (three : 0xe0 ≤ c.toNat → c.toNat ≤ 0xef → P)
    (four : 0xf0 ≤ c.toNat → c.toNat ≤ 0xf4 → P) : P := by
  by_cases h1 : c.toNat < 128
  · exact ascii h1
  by_cases h2 : 0xc2 ≤ c.toNat ∧ c.toNat ≤ 0xdf
  · exact two h2.1 h2.2
  by_cases h3 : 0xe0 ≤ c.toNat ∧ c.toNat ≤ 0xef
  · exact three h3.1 h3.2
  by_cases h4 : 0xf0 ≤ c.toNat ∧ c.toNat ≤ 0xf4
  · exact four h4.1 h4.2
  · refine bare (Nat.le_of_not_lt h1) ?_
    rw [trailing, if_neg h2, if_neg h3, if_neg h4]

/-- Every call takes the first byte and some continuation bytes after it, and stays before the
first byte that continues nothing. -/
theorem nextCp_total (s : CStr) {stop : UInt8} (hstop : isContinuation stop = false)
    (beyond : Memory) : ∃ cp tail rest, s = tail ++ rest ∧ (∀ d ∈ tail, isContinuation d = true) ∧
      nextCp (c :: s ++ stop :: beyond) = some (cp, rest ++ stop :: beyond) := by
  have hloop (n cp minimum : Nat)
      (hnext : nextCp (c :: (s ++ stop :: beyond)) =
        (continuation n cp (s ++ stop :: beyond)).map (finish minimum)) :
      ∃ cp tail rest, s = tail ++ rest ∧ (∀ d ∈ tail, isContinuation d = true) ∧
        nextCp (c :: s ++ stop :: beyond) = some (cp, rest ++ stop :: beyond) := by
    obtain ⟨value, rest, hrest⟩ : ∃ value rest, continuation n cp (s ++ stop :: beyond) =
        some (value, rest ++ stop :: beyond) := continuation_total hstop beyond
    obtain ⟨tail, hs, htail, _⟩ := continuation_taken hrest
    rw [← List.append_assoc] at hs
    refine ⟨(finish minimum (value, rest)).1, tail, rest, List.append_cancel_right hs, htail, ?_⟩
    rw [List.cons_append, hnext, hrest]
    cases value <;> rfl
  apply first_cases c
  case ascii =>
    intro h
    exact ⟨_, [], s, rfl, fun d hd => absurd hd List.not_mem_nil, nextCp_ascii h⟩
  case bare =>
    intro h hnone
    exact ⟨_, [], s, rfl, fun d hd => absurd hd List.not_mem_nil, nextCp_bare h hnone⟩
  case two => exact fun h h' => hloop 1 _ _ (nextCp_two h h')
  case three => exact fun h h' => hloop 2 _ _ (nextCp_three h h')
  case four => exact fun h h' => hloop 3 _ _ (nextCp_four h h')

end Next

theorem byte_toNat {n : Nat} (h : n < 256) : (UInt8.ofNat n).toNat = n :=
  UInt8.toNat_ofNat_of_lt h

theorem continuation_byte {n cp : Nat} {d : Nat} (hd : d < 64) {p : Memory} :
    continuation (n + 1) cp (UInt8.ofNat (d + 0x80) :: p) = continuation n (cp * 64 + d) p := by
  have hbyte : (UInt8.ofNat (d + 0x80)).toNat = d + 0x80 := byte_toNat (by omega)
  rw [continuation_cons ((isContinuation_iff _).mpr (by rw [hbyte]; omega)), hbyte]
  congr 2
  omega

theorem sequenceCp_char {c : Char} {minimum : Nat} (h : minimum ≤ c.toNat) :
    sequenceCp minimum c.toNat = shown c := by
  have hscalar := char_scalar c
  rw [sequenceCp, if_neg (by omega)]
  rfl

/-- The encoding of a character is read as one code point. -/
theorem nextCp_encode (c : Char) (rest : Memory) :
    nextCp (String.utf8EncodeChar c ++ rest) = some (shown c, rest) := by
  have hscalar := char_scalar c
  by_cases h1 : c.toNat < 0x80
  · have hbyte : (UInt8.ofNat c.toNat).toNat = c.toNat := byte_toNat (by omega)
    have hshown : shown c = c.toNat := if_pos (.inl (by omega))
    rw [encode_one h1, List.singleton_append, nextCp_ascii (by rw [hbyte]; exact h1), hbyte, hshown]
  by_cases h2 : c.toNat < 0x800
  · have hlead : (UInt8.ofNat (c.toNat / 64 + 0xc0)).toNat = c.toNat / 64 + 0xc0 :=
      byte_toNat (by omega)
    have hvalue : (c.toNat / 64 + 0xc0) % 32 * 64 + c.toNat % 64 = c.toNat := by omega
    rw [encode_two (by omega) h2, List.cons_append, List.singleton_append,
      nextCp_two (by rw [hlead]; omega) (by rw [hlead]; omega), hlead,
      continuation_byte (Nat.mod_lt _ (by omega)), hvalue, continuation, Option.map_some, finish,
      sequenceCp_char (by omega)]
  by_cases h3 : c.toNat < 0x10000
  · have hlead : (UInt8.ofNat (c.toNat / 4096 + 0xe0)).toNat = c.toNat / 4096 + 0xe0 :=
      byte_toNat (by omega)
    have hvalue : ((c.toNat / 4096 + 0xe0) % 16 * 64 + c.toNat / 64 % 64) * 64 + c.toNat % 64 =
        c.toNat := by omega
    rw [encode_three (by omega) h3, List.cons_append, List.cons_append, List.singleton_append,
      nextCp_three (by rw [hlead]; omega) (by rw [hlead]; omega), hlead,
      continuation_byte (Nat.mod_lt _ (by omega)), continuation_byte (Nat.mod_lt _ (by omega)),
      hvalue, continuation, Option.map_some, finish, sequenceCp_char (by omega)]
  · have hlead : (UInt8.ofNat (c.toNat / 262144 + 0xf0)).toNat = c.toNat / 262144 + 0xf0 :=
      byte_toNat (by omega)
    have hvalue : (((c.toNat / 262144 + 0xf0) % 8 * 64 + c.toNat / 4096 % 64) * 64 +
        c.toNat / 64 % 64) * 64 + c.toNat % 64 = c.toNat := by omega
    rw [encode_four (by omega), List.cons_append, List.cons_append, List.cons_append,
      List.singleton_append, nextCp_four (by rw [hlead]; omega) (by rw [hlead]; omega), hlead,
      continuation_byte (Nat.mod_lt _ (by omega)), continuation_byte (Nat.mod_lt _ (by omega)),
      continuation_byte (Nat.mod_lt _ (by omega)), hvalue, continuation, Option.map_some, finish,
      sequenceCp_char (by omega)]

/-- A complete sequence that passes the checks carries a scalar value. -/
theorem sequenceCp_scalar {minimum cp : Nat} (h : sequenceCp minimum cp ≠ 0xfffd) :
    minimum ≤ cp ∧ ∃ c : Char, c.toNat = cp := by
  rw [sequenceCp] at h
  split at h
  · exact absurd rfl h
  · exact ⟨by omega, exists_char (by omega) (by omega)⟩

theorem byte_eq {c : UInt8} {n : Nat} (h : c.toNat = n) : UInt8.ofNat n = c := by
  rw [← h, UInt8.ofNat_toNat]

/-- Whatever is not read as U+FFFD is the encoding of a character. -/
theorem nextCp_wellFormed {c : UInt8} {p rest : Memory} {cp : Nat}
    (h : nextCp (c :: p) = some (cp, rest)) (hcp : cp ≠ 0xfffd) :
    ∃ ch : Char, c :: p = String.utf8EncodeChar ch ++ rest := by
  have hloop {n payload minimum : Nat}
      (hnext : nextCp (c :: p) = (continuation n payload p).map (finish minimum)) :
      ∃ (tail : List UInt8) (ch : Char), p = tail ++ rest ∧ tail.length = n ∧
        (∀ d ∈ tail, 128 ≤ d.toNat ∧ d.toNat < 192) ∧
        ch.toNat = tail.foldl (fun v c => v * 64 + c.toNat % 64) payload ∧ minimum ≤ ch.toNat := by
    rw [hnext] at h
    obtain ⟨⟨value, after⟩, hrun, hfinish⟩ := Option.map_eq_some_iff.mp h
    cases value with
    | none =>
      cases hfinish
      exact absurd rfl hcp
    | some v =>
      cases hfinish
      obtain ⟨tail, hp, htail, hvalue⟩ := continuation_taken hrun
      obtain ⟨hlength, hv⟩ := hvalue v rfl
      obtain ⟨hmin, ch, hch⟩ := sequenceCp_scalar hcp
      refine ⟨tail, ch, hp, hlength, fun d hd => (isContinuation_iff d).mp (htail d hd), ?_, ?_⟩
      · rw [hch, hv]
      · rw [hch]
        exact hmin
  apply first_cases c
  case ascii =>
    intro hascii
    rw [nextCp_ascii hascii] at h
    cases h
    obtain ⟨ch, hch⟩ := exists_char (v := c.toNat) (by omega) (by omega)
    refine ⟨ch, ?_⟩
    rw [encode_one (by omega), byte_eq hch.symm]
    rfl
  case bare =>
    intro hhigh hnone
    rw [nextCp_bare hhigh hnone] at h
    cases h
    exact absurd rfl hcp
  case two =>
    intro hlow hhigh
    obtain ⟨tail, ch, hp, hlength, htail, hv, hmin⟩ := hloop (nextCp_two hlow hhigh)
    obtain ⟨d, rfl⟩ := List.length_eq_one_iff.mp hlength
    have hd := htail d List.mem_cons_self
    simp only [List.foldl_cons, List.foldl_nil] at hv
    refine ⟨ch, ?_⟩
    rw [encode_two hmin (by omega), hp, byte_eq (c := c) (by omega), byte_eq (c := d) (by omega)]
    rfl
  case three =>
    intro hlow hhigh
    obtain ⟨tail, ch, hp, hlength, htail, hv, hmin⟩ := hloop (nextCp_three hlow hhigh)
    obtain ⟨d, e, rfl⟩ := List.length_eq_two.mp hlength
    have hd := htail d (by simp)
    have he := htail e (by simp)
    simp only [List.foldl_cons, List.foldl_nil] at hv
    refine ⟨ch, ?_⟩
    rw [encode_three hmin (by omega), hp, byte_eq (c := c) (by omega), byte_eq (c := d) (by omega),
      byte_eq (c := e) (by omega)]
    rfl
  case four =>
    intro hlow hhigh
    obtain ⟨tail, ch, hp, hlength, htail, hv, hmin⟩ := hloop (nextCp_four hlow hhigh)
    obtain ⟨d, e, f, rfl⟩ := List.length_eq_three.mp hlength
    have hd := htail d (by simp)
    have he := htail e (by simp)
    have hf := htail f (by simp)
    simp only [List.foldl_cons, List.foldl_nil] at hv
    refine ⟨ch, ?_⟩
    rw [encode_four hmin, hp, byte_eq (c := c) (by omega), byte_eq (c := d) (by omega),
      byte_eq (c := e) (by omega), byte_eq (c := f) (by omega)]
    rfl

/-- The code points met from one pointer to a later one. -/
inductive Visits : Memory → List (Nat × Memory) → Memory → Prop
  | nil (text : Memory) : Visits text [] text
  | cons {c : UInt8} {p stop : Memory} {next : Nat × Memory} {rest : List (Nat × Memory)} :
      c ≠ 0 → nextCp (c :: p) = some next → Visits next.2 rest stop → Visits (c :: p) (next :: rest) stop

section Visit
variable {s : CStr} {beyond : Memory}

theorem visit_end (fuel : Nat) (beyond : Memory) : visit (fuel + 1) (0 :: beyond) = some [] := rfl

theorem visit_next {c : UInt8} {p : Memory} {next : Nat × Memory} (hc : c ≠ 0)
    (hnext : nextCp (c :: p) = some next) (fuel : Nat) :
    visit (fuel + 1) (c :: p) = (visit fuel next.2).map (next :: ·) := by
  simp only [visit, List.head?_cons, Option.bind_eq_bind, Option.bind_some, if_neg hc, hnext]
  cases visit fuel next.2 <;> rfl

/-- The iteration over a terminated string comes to its end. -/
theorem visit_total (hs : 0 ∉ s) (beyond : Memory) {fuel : Nat} (hfuel : s.length < fuel) :
    ∃ visited, visit fuel (s ++ 0 :: beyond) = some visited ∧
      Visits (s ++ 0 :: beyond) visited (0 :: beyond) := by
  induction fuel generalizing s with
  | zero => exact absurd hfuel (Nat.not_lt_zero _)
  | succ fuel ih =>
    cases s with
    | nil => exact ⟨[], visit_end fuel beyond, .nil _⟩
    | cons c s =>
      have hc : c ≠ 0 := fun h => hs (by rw [h]; exact List.mem_cons_self)
      obtain ⟨cp, tail, rest, hsplit, _, hnext⟩ := nextCp_total s zero_stops beyond
      have hrest : 0 ∉ rest := fun h => hs (List.mem_cons_of_mem c (by
        rw [hsplit]
        exact List.mem_append_right tail h))
      have hshorter : rest.length < fuel := by
        rw [List.length_cons, hsplit, List.length_append] at hfuel
        omega
      obtain ⟨visited, hvisited, hvisits⟩ := ih hrest hshorter
      rw [List.cons_append] at hnext
      refine ⟨(cp, rest ++ 0 :: beyond) :: visited, ?_, .cons hc hnext hvisits⟩
      rw [List.cons_append, visit_next hc hnext, hvisited]
      rfl

theorem encode_ne_zero {c : Char} (hc : c ≠ '\x00') :
    ∃ first more, String.utf8EncodeChar c = first :: more ∧ first ≠ 0 := by
  have hpos : c.toNat ≠ 0 := fun h => hc (Char.toNat_inj.mp h)
  have hscalar := char_scalar c
  have hbyte {n : Nat} (hn : n < 256) (hn' : n ≠ 0) : UInt8.ofNat n ≠ 0 := fun h => by
    have hzero := congrArg UInt8.toNat h
    rw [byte_toNat hn] at hzero
    exact hn' hzero
  by_cases h1 : c.toNat < 0x80
  · exact ⟨_, _, encode_one h1, hbyte (by omega) hpos⟩
  by_cases h2 : c.toNat < 0x800
  · exact ⟨_, _, encode_two (by omega) h2, hbyte (by omega) (by omega)⟩
  by_cases h3 : c.toNat < 0x10000
  · exact ⟨_, _, encode_three (by omega) h3, hbyte (by omega) (by omega)⟩
  · exact ⟨_, _, encode_four (by omega), hbyte (by omega) (by omega)⟩

/-- The encoding of a text is visited character by character. -/
theorem visit_encode {text : List Char} (htext : '\x00' ∉ text) (beyond : Memory) {fuel : Nat}
    (hfuel : (text.flatMap String.utf8EncodeChar).length < fuel) :
    ∃ visited, visit fuel (text.flatMap String.utf8EncodeChar ++ 0 :: beyond) = some visited ∧
      visited.map Prod.fst = text.map shown := by
  induction text generalizing fuel with
  | nil =>
    obtain ⟨fuel, rfl⟩ := Nat.exists_eq_succ_of_ne_zero (Nat.ne_of_gt (Nat.zero_lt_of_lt hfuel))
    exact ⟨[], visit_end fuel beyond, rfl⟩
  | cons c text ih =>
    obtain ⟨fuel, rfl⟩ := Nat.exists_eq_succ_of_ne_zero (Nat.ne_of_gt (Nat.zero_lt_of_lt hfuel))
    have hc : c ≠ '\x00' := fun h => htext (by rw [h]; exact List.mem_cons_self)
    obtain ⟨first, more, hcode, hfirst⟩ := encode_ne_zero hc
    have hnext := nextCp_encode c (text.flatMap String.utf8EncodeChar ++ 0 :: beyond)
    rw [List.flatMap_cons, List.length_append, hcode, List.length_cons] at hfuel
    obtain ⟨visited, hvisited, hcps⟩ :=
      @ih (fun h => htext (List.mem_cons_of_mem c h)) fuel (by omega)
    refine ⟨(shown c, text.flatMap String.utf8EncodeChar ++ 0 :: beyond) :: visited, ?_, ?_⟩
    · rw [hcode, List.cons_append] at hnext
      rw [List.flatMap_cons, hcode, List.append_assoc, List.cons_append,
        visit_next hfirst hnext, hvisited]
      rfl
    · rw [List.map_cons, List.map_cons, hcps]

end Visit

/-- A UTF-8 text decodes to its characters, and any other byte string to some code points: each
call takes a byte and the continuation bytes it can use, and reads U+FFFD unless they are the
encoding of a character. -/
theorem next_cp_decodes (beyond : Memory) :
    (∀ text : List Char, '\x00' ∉ text →
      ∃ visited, codePoints (text.flatMap String.utf8EncodeChar ++ 0 :: beyond) = some visited ∧
        visited.map Prod.fst = text.map shown) ∧
    ∀ s : CStr, 0 ∉ s →
      (∃ visited, codePoints (s ++ 0 :: beyond) = some visited) ∧
      ∀ first more, s = first :: more → ∃ cp tail rest, more = tail ++ rest ∧
        (∀ c ∈ tail, isContinuation c = true) ∧
        nextCp (s ++ 0 :: beyond) = some (cp, rest ++ 0 :: beyond) ∧
        (∀ c after, s = String.utf8EncodeChar c ++ after → cp = shown c ∧ rest = after) ∧
        ((¬ ∃ c after, s = String.utf8EncodeChar c ++ after) → cp = 0xfffd) := by
  have hfuel (s : CStr) : s.length < (s ++ 0 :: beyond).length := by
    rw [List.length_append, List.length_cons]
    omega
  refine ⟨fun text htext => visit_encode htext beyond (hfuel _),
    fun s hs => ⟨(visit_total hs beyond (hfuel s)).imp fun _ h => h.1, ?_⟩⟩
  rintro first more rfl
  obtain ⟨cp, tail, rest, hmore, htail, hnext⟩ := nextCp_total more zero_stops beyond
  refine ⟨cp, tail, rest, hmore, htail, hnext, fun c after hcode => ?_, fun hnone => ?_⟩
  · have hread := nextCp_encode c (after ++ 0 :: beyond)
    rw [← List.append_assoc, ← hcode, hnext] at hread
    obtain ⟨hcp, hrest⟩ := Prod.mk.inj (Option.some.inj hread)
    exact ⟨hcp, List.append_cancel_right hrest⟩
  · by_contra hcp
    obtain ⟨c, hcode⟩ := nextCp_wellFormed hnext hcp
    have hsame : first :: more ++ 0 :: beyond =
        String.utf8EncodeChar c ++ rest ++ 0 :: beyond := by
      rw [List.append_assoc]
      exact hcode
    exact hnone ⟨c, rest, List.append_cancel_right hsame⟩

/-- é is a code point of the faces and € is not. -/
theorem next_cp_decodes_accent : ∃ visited,
    codePoints (['é', '€'].flatMap String.utf8EncodeChar ++ [0]) = some visited ∧
      visited.map Prod.fst = [0xe9, 0xfffd] :=
  (next_cp_decodes []).1 ['é', '€'] (by decide)

end Taq102.Text
