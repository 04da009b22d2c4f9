import Mathlib.Data.Nat.Bitwise

/-! UTF-8 sequences in arithmetic: continuation bytes, the six bits each of them carries, and the
encoding of a character by the size of its value. -/
namespace Taq102.Lib.Utf8

def isContinuation (c : UInt8) : Bool := c &&& 0xc0 == 0x80

theorem isContinuation_iff (c : UInt8) : isContinuation c = true ↔ 128 ≤ c.toNat ∧ c.toNat < 192 := by
  have hall : ∀ n : Fin 256, (UInt8.ofNat n.val &&& 0xc0 == 0x80) = true ↔ 128 ≤ n.val ∧ n.val < 192 := by
    decide +kernel
  have hbyte := hall ⟨c.toNat, c.toNat_lt⟩
  rw [UInt8.ofNat_toNat] at hbyte
  exact hbyte

/-- Six more bits behind a value. -/
theorem shift_or (v c : Nat) : (v <<< 6) ||| (c &&& 63) = v * 64 + c % 64 := by
  have hlow : c &&& 63 = c % 64 := Nat.and_two_pow_sub_one_eq_mod c 6
  rw [hlow, ← Nat.shiftLeft_add_eq_or_of_lt (Nat.mod_lt c (by omega : 0 < 64)) v,
    Nat.shiftLeft_eq]

/-- A scalar value as a character. -/
theorem exists_char {v : Nat} (hmax : v ≤ 0x10ffff) (hgap : v < 0xd800 ∨ 0xdfff < v) :
    ∃ c : Char, c.toNat = v := by
  refine ⟨Char.ofNat v, ?_⟩
  have hvalid : v.isValidChar := by
    unfold Nat.isValidChar
    omega
  rw [Char.ofNat, dif_pos hvalid]
  rfl

theorem char_scalar (c : Char) : c.toNat < 0xd800 ∨ 0xdfff < c.toNat ∧ c.toNat ≤ 0x10ffff := by
  have hvalid : c.toNat.isValidChar := c.valid
  unfold Nat.isValidChar at hvalid
  omega

theorem encode_one {c : Char} (h : c.toNat < 0x80) :
    String.utf8EncodeChar c = [UInt8.ofNat c.toNat] := by
  have hval : c.val.toNat ≤ 0x7f := Nat.le_of_lt_succ h
  rw [String.utf8EncodeChar, if_pos hval]
  rfl

theorem encode_two {c : Char} (h : 0x80 ≤ c.toNat) (h' : c.toNat < 0x800) :
    String.utf8EncodeChar c =
      [UInt8.ofNat (c.toNat / 64 + 0xc0), UInt8.ofNat (c.toNat % 64 + 0x80)] := by
  have hsmall : ¬ c.val.toNat ≤ 0x7f := Nat.not_le_of_lt h
  have hval : c.val.toNat ≤ 0x7ff := Nat.le_of_lt_succ h'
  have hlead : c.val.toNat / 64 % 0x20 = c.val.toNat / 64 := Nat.mod_eq_of_lt (by omega)
  rw [String.utf8EncodeChar, if_neg hsmall, if_pos hval, hlead]
  rfl

theorem encode_three {c : Char} (h : 0x800 ≤ c.toNat) (h' : c.toNat < 0x10000) :
    String.utf8EncodeChar c =
      [UInt8.ofNat (c.toNat / 4096 + 0xe0), UInt8.ofNat (c.toNat / 64 % 64 + 0x80),
        UInt8.ofNat (c.toNat % 64 + 0x80)] := by
  have hsmall : ¬ c.val.toNat ≤ 0x7ff := Nat.not_le_of_lt h
  have hsmaller : ¬ c.val.toNat ≤ 0x7f := by omega
  have hval : c.val.toNat ≤ 0xffff := Nat.le_of_lt_succ h'
  have hlead : c.val.toNat / 4096 % 0x10 = c.val.toNat / 4096 := Nat.mod_eq_of_lt (by omega)
  rw [String.utf8EncodeChar, if_neg hsmaller, if_neg hsmall, if_pos hval, hlead]
  rfl

theorem encode_four {c : Char} (h : 0x10000 ≤ c.toNat) :
    String.utf8EncodeChar c =
      [UInt8.ofNat (c.toNat / 262144 + 0xf0), UInt8.ofNat (c.toNat / 4096 % 64 + 0x80),
        UInt8.ofNat (c.toNat / 64 % 64 + 0x80), UInt8.ofNat (c.toNat % 64 + 0x80)] := by
  have hmax : c.val.toNat ≤ 0x10ffff := by
    have hscalar := char_scalar c
    change c.toNat ≤ 0x10ffff
    omega
  have hsmall : ¬ c.val.toNat ≤ 0xffff := Nat.not_le_of_lt h
  have hsmaller : ¬ c.val.toNat ≤ 0x7ff := by omega
  have hsmallest : ¬ c.val.toNat ≤ 0x7f := by omega
  have hlead : c.val.toNat / 262144 % 0x08 = c.val.toNat / 262144 := Nat.mod_eq_of_lt (by omega)
  rw [String.utf8EncodeChar, if_neg hsmallest, if_neg hsmaller, if_neg hsmall, hlead]
  rfl

end Taq102.Lib.Utf8
