import Mathlib.Data.Int.Log
import Mathlib.Tactic.Ring
import Taq102.Lib.CFloat

/-! Binary floating point by rounding: each operation is exact and then rounded, ties to even, to a
significand with a given number of fraction bits. Exponents are unbounded, so the values are those
of an IEEE format as long as nothing overflows or becomes subnormal. -/
namespace Taq102.Lib

/-- The integer nearest to a number, the even one of two that are as near. -/
def roundEven (x : ℚ) : ℤ :=
  if x - ⌊x⌋ < 1 / 2 then ⌊x⌋
  else if 1 / 2 < x - ⌊x⌋ then ⌊x⌋ + 1
  else if Even ⌊x⌋ then ⌊x⌋
  else ⌊x⌋ + 1

/-- No integer is nearer, and of two that are as near it is the even one. -/
structure NearestEven (x : ℚ) (n : ℤ) : Prop where
  near : |x - n| ≤ 1 / 2
  even : |x - n| = 1 / 2 → Even n

section RoundEven
variable {x y : ℚ} {n k : ℤ}

theorem roundEven_nearest (x : ℚ) : NearestEven x (roundEven x) := by
  have hlow : 0 ≤ x - ⌊x⌋ := sub_nonneg.mpr (Int.floor_le x)
  have hhigh : x - ⌊x⌋ < 1 := by
    have hlt := Int.lt_floor_add_one x
    linarith
  rw [roundEven]
  split
  · rename_i hless
    rw [← abs_of_nonneg hlow] at hless
    exact ⟨hless.le, fun heq => absurd heq hless.ne⟩
  rename_i hless
  have hnext : |x - ((⌊x⌋ + 1 : ℤ) : ℚ)| = 1 - (x - ⌊x⌋) := by
    push_cast
    rw [abs_of_nonpos (by linarith)]
    ring
  split
  · rename_i hmore
    refine ⟨by rw [hnext]; linarith, fun heq => ?_⟩
    rw [hnext] at heq
    linarith
  rename_i hmore
  have hhalf : x - ⌊x⌋ = 1 / 2 := le_antisymm (not_lt.mp hmore) (not_lt.mp hless)
  split
  · rename_i heven
    exact ⟨by rw [hhalf]; norm_num, fun _ => heven⟩
  · rename_i hodd
    refine ⟨by rw [hnext, hhalf]; norm_num, fun _ => ?_⟩
    exact (Int.not_even_iff_odd.mp hodd).add_one

theorem NearestEven.unique (hn : NearestEven x n) (hk : NearestEven x k) : n = k := by
  have hle (a b : ℤ) (ha : |x - a| ≤ 1 / 2) (hb : |x - b| ≤ 1 / 2) (hlt : a < b) :
      |x - a| = 1 / 2 ∧ |x - b| = 1 / 2 ∧ b = a + 1 := by
    have hgap : (a : ℚ) + 1 ≤ b := by exact_mod_cast hlt
    obtain ⟨halow, hahigh⟩ := abs_le.mp ha
    obtain ⟨hblow, hbhigh⟩ := abs_le.mp hb
    have hnext : (b : ℚ) = a + 1 := by linarith
    refine ⟨?_, ?_, by exact_mod_cast hnext⟩
    · rw [abs_of_nonneg (by linarith)]
      linarith
    · rw [abs_of_nonpos (by linarith)]
      linarith
  rcases lt_trichotomy n k with hlt | heq | hgt
  · obtain ⟨h1, h2, h3⟩ := hle n k hn.near hk.near hlt
    have hodd := (hn.even h1).add_one
    rw [← h3] at hodd
    exact absurd (hk.even h2) (Int.not_even_iff_odd.mpr hodd)
  · exact heq
  · obtain ⟨h1, h2, h3⟩ := hle k n hk.near hn.near hgt
    have hodd := (hk.even h1).add_one
    rw [← h3] at hodd
    exact absurd (hn.even h2) (Int.not_even_iff_odd.mpr hodd)

theorem roundEven_eq (h : NearestEven x n) : roundEven x = n := (roundEven_nearest x).unique h

theorem roundEven_intCast (n : ℤ) : roundEven n = n := by
  apply roundEven_eq
  have hzero : |(n : ℚ) - n| = 0 := by rw [sub_self, abs_zero]
  exact ⟨by rw [hzero]; norm_num, fun h => by rw [hzero] at h; norm_num at h⟩

theorem roundEven_neg (x : ℚ) : roundEven (-x) = -roundEven x := by
  obtain ⟨hnear, heven⟩ := roundEven_nearest x
  apply roundEven_eq
  have hsame : |-x - ((-roundEven x : ℤ) : ℚ)| = |x - roundEven x| := by
    rw [Int.cast_neg, ← abs_neg]
    congr 1
    ring
  exact ⟨by rw [hsame]; exact hnear, fun h => (heven (by rw [← hsame]; exact h)).neg⟩

/-- Half way the even neighbour is taken. -/
theorem roundEven_half (n : ℤ) : roundEven (n + 1 / 2) = if Even n then n else n + 1 := by
  apply roundEven_eq
  split
  · rename_i heven
    exact ⟨by norm_num, fun _ => heven⟩
  · rename_i hodd
    refine ⟨by push_cast; norm_num [abs_of_nonneg], fun _ => ?_⟩
    exact (Int.not_even_iff_odd.mp hodd).add_one

theorem roundEven_mono (h : x ≤ y) : roundEven x ≤ roundEven y := by
  by_contra hlt
  have hgap : (roundEven y : ℚ) + 1 ≤ roundEven x := by exact_mod_cast not_le.mp hlt
  obtain ⟨hx, -⟩ := roundEven_nearest x
  obtain ⟨hy, -⟩ := roundEven_nearest y
  obtain ⟨hxlow, hxhigh⟩ := abs_le.mp hx
  obtain ⟨hylow, hyhigh⟩ := abs_le.mp hy
  have heq : x = y := by linarith
  rw [heq] at hlt
  exact hlt (le_refl _)

end RoundEven

/-- The distance of the neighbours of a number with so many fraction bits. -/
def spacing (f : ℕ) (x : ℚ) : ℚ := 2 ^ (Int.log 2 |x| - f)

def roundTo (f : ℕ) (x : ℚ) : ℚ := roundEven (x / spacing f x) * spacing f x

section RoundTo
variable {f : ℕ} {x y : ℚ} {n : ℤ}

theorem spacing_pos (f : ℕ) (x : ℚ) : 0 < spacing f x := zpow_pos two_pos _

theorem two_zpow_le {a b : ℤ} (h : a ≤ b) : (2 : ℚ) ^ a ≤ 2 ^ b := zpow_le_zpow_right₀ one_le_two h

theorem spacing_neg (f : ℕ) (x : ℚ) : spacing f (-x) = spacing f x := by
  rw [spacing, spacing, abs_neg]

theorem roundTo_neg (f : ℕ) (x : ℚ) : roundTo f (-x) = -roundTo f x := by
  rw [roundTo, spacing_neg, neg_div, roundEven_neg, Int.cast_neg, neg_mul]
  rfl

/-- A whole number of spacings is not rounded. -/
theorem roundTo_of_multiple (h : x = n * spacing f x) : roundTo f x = x := by
  have hquotient : x / spacing f x = n := (div_eq_iff (spacing_pos f x).ne').mpr h
  rw [roundTo, hquotient, roundEven_intCast]
  exact h.symm

theorem pow_log_le (hx : 0 < x) : (2 : ℚ) ^ Int.log 2 x ≤ x := by
  exact_mod_cast Int.zpow_log_le_self one_lt_two hx

theorem lt_pow_log (x : ℚ) : x < (2 : ℚ) ^ (Int.log 2 x + 1) := by
  exact_mod_cast Int.lt_zpow_succ_log_self (b := 2) one_lt_two x

/-- A number with a significand in range is not rounded. -/
theorem roundTo_of_grid (k : ℤ) (hn : |n| ≤ 2 ^ (f + 1)) (hx : x = n * 2 ^ k) : roundTo f x = x := by
  by_cases hzero : n = 0
  · apply roundTo_of_multiple (n := 0)
    rw [hx, hzero, Int.cast_zero, zero_mul, zero_mul]
  obtain ⟨e, he⟩ : ∃ e, e = Int.log 2 |x| := ⟨_, rfl⟩
  have hpow : (0 : ℚ) < 2 ^ k := zpow_pos two_pos k
  have hsize : |x| = (|n| : ℤ) * 2 ^ k := by rw [hx, abs_mul, abs_of_pos hpow, Int.cast_abs]
  have hpos : 0 < |x| := by
    rw [hsize]
    exact mul_pos (by exact_mod_cast abs_pos.mpr hzero) hpow
  have hlog : (2 : ℚ) ^ e ≤ (|n| : ℤ) * 2 ^ k := by
    rw [he, ← hsize]
    exact pow_log_le hpos
  have hspace : spacing f x = 2 ^ (e - f) := by rw [spacing, he]
  by_cases hinside : e ≤ f + k
  · -- the grid is finer than the number's own unit
    apply roundTo_of_multiple (n := n * 2 ^ (k - (e - f)).toNat)
    have hsplit : (2 : ℚ) ^ k = 2 ^ (k - (e - f)).toNat * 2 ^ (e - f) := by
      rw [← zpow_natCast, ← zpow_add₀ two_ne_zero]
      congr 1
      omega
    rw [hspace, hx, hsplit]
    push_cast
    ring
  · -- only the first power above the range is left
    have htop : (2 : ℚ) ^ e ≤ 2 ^ ((f + 1 : ℕ) + k) := by
      rw [zpow_add₀ two_ne_zero, zpow_natCast]
      refine hlog.trans (mul_le_mul_of_nonneg_right ?_ hpow.le)
      exact_mod_cast hn
    have hnext : e = f + 1 + k := by
      have hle := (zpow_le_zpow_iff_right₀ one_lt_two).mp htop
      omega
    have hedge : (2 : ℤ) ^ (f + 1) ≤ |n| := by
      have hpower : (2 : ℚ) ^ e = 2 ^ (f + 1) * 2 ^ k := by
        rw [hnext, zpow_add₀ two_ne_zero, ← zpow_natCast]
        rfl
      rw [hpower] at hlog
      exact_mod_cast le_of_mul_le_mul_right hlog hpow
    have heven : (2 : ℤ) ∣ n := by
      rw [← dvd_abs, le_antisymm hn hedge]
      exact dvd_pow_self 2 (Nat.succ_ne_zero f)
    obtain ⟨m, hm⟩ := heven
    apply roundTo_of_multiple (n := m)
    have hunit : e - f = k + 1 := by omega
    rw [hspace, hunit, zpow_add_one₀ two_ne_zero, hx, hm]
    push_cast
    ring

theorem pow_mul_spacing (f j : ℕ) (x : ℚ) :
    (2 : ℚ) ^ j * spacing f x = 2 ^ (Int.log 2 |x| - f + j) := by
  rw [spacing, add_comm, zpow_add₀ two_ne_zero, zpow_natCast]

theorem roundEven_scaled_le (f : ℕ) (x : ℚ) : roundEven (x / spacing f x) ≤ 2 ^ (f + 1) := by
  have hbelow : x / spacing f x ≤ ((2 ^ (f + 1) : ℤ) : ℚ) := by
    rw [div_le_iff₀ (spacing_pos f x)]
    push_cast
    rw [pow_mul_spacing]
    refine (le_abs_self x).trans ((lt_pow_log |x|).le.trans (two_zpow_le ?_))
    push_cast
    omega
  have hround := roundEven_mono hbelow
  rwa [roundEven_intCast] at hround

/-- A positive number lies between two powers, which rounding does not leave. -/
theorem roundTo_mem (hx : 0 < x) :
    (2 : ℚ) ^ Int.log 2 x ≤ roundTo f x ∧ roundTo f x ≤ 2 ^ (Int.log 2 x + 1) := by
  have hfit (j : ℕ) : (2 : ℚ) ^ j * spacing f x = 2 ^ (Int.log 2 x - f + j) := by
    rw [pow_mul_spacing, abs_of_pos hx]
  have habove : ((2 ^ f : ℤ) : ℚ) ≤ x / spacing f x := by
    rw [le_div_iff₀ (spacing_pos f x)]
    push_cast
    rw [hfit, sub_add_cancel]
    exact pow_log_le hx
  have hround := roundEven_mono habove
  rw [roundEven_intCast] at hround
  constructor
  · calc
      (2 : ℚ) ^ Int.log 2 x = (2 ^ f : ℤ) * spacing f x := by
        push_cast
        rw [hfit, sub_add_cancel]
      _ ≤ roundTo f x :=
        mul_le_mul_of_nonneg_right (by exact_mod_cast hround) (spacing_pos f x).le
  · calc
      roundTo f x ≤ (2 ^ (f + 1) : ℤ) * spacing f x :=
        mul_le_mul_of_nonneg_right (by exact_mod_cast roundEven_scaled_le f x) (spacing_pos f x).le
      _ = 2 ^ (Int.log 2 x + 1) := by
        push_cast
        rw [hfit]
        congr 1
        push_cast
        omega

theorem roundTo_mono_pos (hx : 0 < x) (h : x ≤ y) : roundTo f x ≤ roundTo f y := by
  have hy := hx.trans_le h
  rcases (Int.log_mono_right (b := 2) hx h).eq_or_lt with hsame | hlt
  · have hspace : spacing f x = spacing f y := by
      rw [spacing, spacing, abs_of_pos hx, abs_of_pos hy, hsame]
    have hquotient : x / spacing f y ≤ y / spacing f y :=
      div_le_div_of_nonneg_right h (spacing_pos f y).le
    rw [roundTo, roundTo, hspace]
    exact mul_le_mul_of_nonneg_right (by exact_mod_cast roundEven_mono hquotient)
      (spacing_pos f y).le
  · calc
      roundTo f x ≤ 2 ^ (Int.log 2 x + 1) := (roundTo_mem hx).2
      _ ≤ 2 ^ Int.log 2 y := two_zpow_le hlt
      _ ≤ roundTo f y := (roundTo_mem hy).1

theorem roundTo_nonneg (hx : 0 ≤ x) : 0 ≤ roundTo f x := by
  have hround := roundEven_mono (div_nonneg hx (spacing_pos f x).le)
  rw [show (0 : ℚ) = ((0 : ℤ) : ℚ) from rfl, roundEven_intCast] at hround
  exact mul_nonneg (by exact_mod_cast hround) (spacing_pos f x).le

theorem roundTo_mono (h : x ≤ y) : roundTo f x ≤ roundTo f y := by
  rcases lt_or_ge 0 x with hx | hx
  · exact roundTo_mono_pos hx h
  rcases le_or_gt 0 y with hy | hy
  · have hneg := roundTo_nonneg (f := f) (neg_nonneg.mpr hx)
    rw [roundTo_neg] at hneg
    exact (neg_nonneg.mp hneg).trans (roundTo_nonneg hy)
  · have hneg := roundTo_mono_pos (f := f) (neg_pos.mpr hy) (neg_le_neg h)
    rw [roundTo_neg, roundTo_neg] at hneg
    exact neg_le_neg_iff.mp hneg

theorem roundTo_idem (f : ℕ) (x : ℚ) : roundTo f (roundTo f x) = roundTo f x := by
  refine roundTo_of_grid (n := roundEven (x / spacing f x)) (Int.log 2 |x| - f) (abs_le.mpr ⟨?_, ?_⟩) rfl
  · have hneg := roundEven_scaled_le f (-x)
    rw [spacing_neg, neg_div, roundEven_neg] at hneg
    exact neg_le.mp hneg
  · exact roundEven_scaled_le f x

/-- Half way between two whole numbers one spacing apart. -/
theorem roundTo_half (hlow : 2 ^ f ≤ n) (hhigh : n < 2 ^ (f + 1)) :
    roundTo f (n + 1 / 2) = if Even n then (n : ℚ) else n + 1 := by
  have hbottom : (2 : ℚ) ^ f ≤ n := by exact_mod_cast hlow
  have htop : (n : ℚ) + 1 ≤ 2 ^ (f + 1) := by exact_mod_cast hhigh
  have hpos : (0 : ℚ) < n + 1 / 2 := by
    have hpower : (0 : ℚ) < 2 ^ f := pow_pos two_pos f
    linarith
  have hlog : Int.log 2 ((n : ℚ) + 1 / 2) = f := by
    apply le_antisymm
    · apply Int.lt_add_one_iff.mp
      rw [← Int.lt_zpow_iff_log_lt one_lt_two hpos]
      have hedge : (n : ℚ) + 1 / 2 < 2 ^ (f + 1) := by linarith
      exact_mod_cast hedge
    · rw [← Int.zpow_le_iff_le_log one_lt_two hpos]
      have hedge : (2 : ℚ) ^ f ≤ n + 1 / 2 := by linarith
      exact_mod_cast hedge
  have hspace : spacing f ((n : ℚ) + 1 / 2) = 1 := by
    rw [spacing, abs_of_pos hpos, hlog, sub_self, zpow_zero]
  rw [roundTo, hspace, div_one, mul_one, roundEven_half]
  split
  · rfl
  · push_cast
    rfl

end RoundTo

/-- The numbers with so many fraction bits. -/
structure Rounded (f : ℕ) where
  value : ℚ
  exact : roundTo f value = value

namespace Rounded
variable {f : ℕ}

def of (f : ℕ) (x : ℚ) : Rounded f := ⟨roundTo f x, roundTo_idem f x⟩

instance : CFloat (Rounded f) where
  add a b := of f (a.value + b.value)
  sub a b := of f (a.value - b.value)
  mul a b := of f (a.value * b.value)
  div a b := of f (a.value / b.value)
  lt a b := a.value < b.value
  le a b := a.value ≤ b.value
  decLt a b := inferInstanceAs (Decidable (a.value < b.value))
  decLe a b := inferInstanceAs (Decidable (a.value ≤ b.value))
  lit := of f
  ofInt n := of f n
  abs a := of f |a.value|
  lround a := exactRound a.value
  trunc a := exactTrunc a.value
  isFinite _ := true
  isFinite_zero := rfl

end Rounded

/-- `float`. -/
abbrev Binary32 := Rounded 23

/-- `double`. -/
abbrev Binary64 := Rounded 52

instance binary64Double : CDouble Binary32 Binary64 :=
  ⟨fun x => Rounded.of 52 x.value, fun x => Rounded.of 23 x.value⟩

/-- A 32-bit `int` is a `double`. -/
theorem binary64_int {n : ℤ} (hlow : 0 ≤ n) (hhigh : n < 2 ^ 31) : roundTo 52 (n : ℚ) = n := by
  refine roundTo_of_grid (n := n) 0 ?_ (by rw [zpow_zero, mul_one])
  rw [abs_of_nonneg hlow]
  exact hhigh.le.trans (by norm_num)

theorem binary64_zero : roundTo 52 0 = 0 := by exact_mod_cast binary64_int (n := 0) le_rfl (by norm_num)

theorem binary64_one : roundTo 52 1 = 1 := by exact_mod_cast binary64_int (n := 1) (by norm_num) (by norm_num)

/-- The arithmetic of a `double` between `int` values, rounding included, meets the laws. -/
instance binary64Share : LawfulShare Binary64 where
  share {a b} ha hab hb hlarge := by
    change roundTo 52 ((0 : ℚ) : ℚ) ≤ roundTo 52 (roundTo 52 (a : ℚ) / roundTo 52 (b : ℚ)) ∧
      roundTo 52 (roundTo 52 (a : ℚ) / roundTo 52 (b : ℚ)) ≤ roundTo 52 ((1 : ℚ) : ℚ)
    rw [binary64_int ha (by omega), binary64_int hb.le hlarge]
    have hnum : (0 : ℚ) ≤ a := by exact_mod_cast ha
    have hden : (0 : ℚ) < b := by exact_mod_cast hb
    have hle : (a : ℚ) ≤ b := by exact_mod_cast hab
    exact ⟨roundTo_mono (div_nonneg hnum hden.le), roundTo_mono ((div_le_one hden).mpr hle)⟩
  scale {x n} hx hone hn hlarge := by
    change roundTo 52 ((0 : ℚ) : ℚ) ≤ x.value at hx
    change x.value ≤ roundTo 52 ((1 : ℚ) : ℚ) at hone
    change roundTo 52 ((0 : ℚ) : ℚ) ≤ roundTo 52 (x.value * roundTo 52 (n : ℚ)) ∧
      roundTo 52 (x.value * roundTo 52 (n : ℚ)) ≤ roundTo 52 (n : ℚ)
    rw [binary64_int hn hlarge]
    have hnum : (0 : ℚ) ≤ n := by exact_mod_cast hn
    have hpos : 0 ≤ x.value := by rwa [binary64_zero] at hx
    have hle : x.value ≤ 1 := by rwa [binary64_one] at hone
    have hscaled := roundTo_mono (f := 52) (mul_le_of_le_one_left hnum hle)
    rw [binary64_int hn hlarge] at hscaled
    exact ⟨roundTo_mono (mul_nonneg hpos hnum), hscaled⟩
  trunc_mem {x n} hx hle hn hlarge := by
    change roundTo 52 ((0 : ℚ) : ℚ) ≤ x.value at hx
    change x.value ≤ roundTo 52 (n : ℚ) at hle
    rw [binary64_zero] at hx
    rw [binary64_int hn hlarge] at hle
    exact exactTrunc_mem hx hle

instance binary64Lawful : LawfulDouble Binary32 where
  le_of_not_lt {x y} _ _ h := by
    change ¬ x.value < y.value at h
    change y.value ≤ x.value
    exact not_lt.mp h
  le_refl {x} _ := le_refl x.value
  zero_le_one := roundTo_mono zero_le_one
  isFinite_one := rfl
  isFinite_ratio _ _ _ _ _ := rfl
  lround_mem {x n} hx hle hn hlarge := by
    change roundTo 52 ((0 : ℚ) : ℚ) ≤ x.value at hx
    change x.value ≤ roundTo 52 (n : ℚ) at hle
    rw [binary64_zero] at hx
    rw [binary64_int hn hlarge] at hle
    exact exactRound_mem hx hle

end Taq102.Lib
