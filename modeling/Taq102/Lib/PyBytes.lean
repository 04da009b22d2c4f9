import Mathlib.Algebra.Group.Nat.Defs
import Mathlib.Data.List.Basic

/-! Python's byte strings as lists: slices, slice assignment, and integers of a fixed width. -/
namespace Taq102.Lib.PyBytes

/-- `b[lo:hi]`. -/
def slice (b : List UInt8) (lo hi : Nat) : List UInt8 := (b.drop lo).take (hi - lo)

/-- A `bytearray` after `b[lo:hi] = v`. -/
def setSlice (b : List UInt8) (lo hi : Nat) (v : List UInt8) : List UInt8 :=
  b.take lo ++ v ++ b.drop (max lo hi)

def natLittle : List UInt8 → Nat
  | [] => 0
  | b :: rest => b.toNat + 256 * natLittle rest

def littleBytes : Nat → Nat → List UInt8
  | 0, _ => []
  | k + 1, v => UInt8.ofNat (v % 256) :: littleBytes k (v / 256)

def natBig (b : List UInt8) : Nat := natLittle b.reverse

def bigBytes (k v : Nat) : List UInt8 := (littleBytes k v).reverse

/-- `int.to_bytes`, none where the value overflows. -/
def toLittle (k v : Nat) : Option (List UInt8) := if v < 256 ^ k then some (littleBytes k v) else none

/-- Two regions, each a start and a length, share no byte. -/
def Apart (r s : Nat × Nat) : Prop := r.1 + r.2 ≤ s.1 ∨ s.1 + s.2 ≤ r.1

instance : DecidableRel Apart := fun _ _ => inferInstanceAs (Decidable (_ ∨ _))

section Numbers
variable {k v : Nat}

@[simp] theorem length_littleBytes (k v : Nat) : (littleBytes k v).length = k := by
  induction k generalizing v with
  | zero => rfl
  | succ k ih => rw [littleBytes, List.length_cons, ih]

@[simp] theorem length_bigBytes (k v : Nat) : (bigBytes k v).length = k := by
  rw [bigBytes, List.length_reverse, length_littleBytes]

theorem natLittle_littleBytes (h : v < 256 ^ k) : natLittle (littleBytes k v) = v := by
  induction k generalizing v with
  | zero =>
    rw [Nat.pow_zero] at h
    rw [littleBytes, natLittle]
    omega
  | succ k ih =>
    have hrest : v / 256 < 256 ^ k := by
      rw [Nat.pow_succ] at h
      exact Nat.div_lt_of_lt_mul (by omega)
    have hbyte : (UInt8.ofNat (v % 256)).toNat = v % 256 := by
      rw [UInt8.toNat_ofNat']
      exact Nat.mod_eq_of_lt (Nat.mod_lt v (by omega))
    rw [littleBytes, natLittle, ih hrest, hbyte]
    exact Nat.mod_add_div v 256

theorem natBig_bigBytes (h : v < 256 ^ k) : natBig (bigBytes k v) = v := by
  rw [natBig, bigBytes, List.reverse_reverse, natLittle_littleBytes h]

theorem natLittle_lt (b : List UInt8) : natLittle b < 256 ^ b.length := by
  induction b with
  | nil => exact Nat.one_pos
  | cons b rest ih =>
    have hbyte := b.toNat_lt
    rw [natLittle, List.length_cons, Nat.pow_succ]
    omega

theorem natBig_lt (b : List UInt8) : natBig b < 256 ^ b.length := by
  have hlt := natLittle_lt b.reverse
  rwa [List.length_reverse] at hlt

end Numbers

section Slices
variable {a b c v : List UInt8} {lo hi lo' hi' : Nat}

theorem length_slice (b : List UInt8) (lo hi : Nat) :
    (slice b lo hi).length = min (hi - lo) (b.length - lo) := by
  rw [slice, List.length_take, List.length_drop]

/-- A slice in the middle of a concatenation. -/
theorem slice_middle (hlo : lo = a.length) (hhi : hi = a.length + b.length) :
    slice (a ++ b ++ c) lo hi = b := by
  rw [slice, hlo, hhi, Nat.add_sub_cancel_left, List.append_assoc, List.drop_left, List.take_left]

/-- A slice that ends in the first part. -/
theorem slice_append_left (h : hi ≤ a.length) : slice (a ++ b) lo hi = slice a lo hi := by
  by_cases hlo : lo ≤ a.length
  · rw [slice, slice, List.drop_append_of_le_length hlo, List.take_append_of_le_length]
    rw [List.length_drop]
    omega
  · have hempty : hi - lo = 0 := by omega
    rw [slice, slice, hempty, List.take_zero, List.take_zero]

/-- A slice that begins after the first part. -/
theorem slice_append_right (h : a.length ≤ lo) :
    slice (a ++ b) lo hi = slice b (lo - a.length) (hi - a.length) := by
  rw [slice, slice, List.drop_append, List.drop_eq_nil_of_le h, List.nil_append]
  congr 1
  omega

/-- Assigning to the middle of a concatenation. -/
theorem setSlice_middle (hlo : lo = a.length) (hhi : hi = a.length + b.length) :
    setSlice (a ++ b ++ c) lo hi v = a ++ v ++ c := by
  have hmax : max lo hi = (a ++ b).length := by
    rw [List.length_append]
    omega
  rw [setSlice, hmax, List.drop_left, List.append_assoc a b c, hlo, List.take_left]

theorem length_setSlice (hlo : lo ≤ hi) (hhi : hi ≤ b.length) (hv : v.length = hi - lo) :
    (setSlice b lo hi v).length = b.length := by
  rw [setSlice, List.length_append, List.length_append, List.length_take, List.length_drop]
  omega

/-- The slice that was assigned. -/
theorem slice_setSlice (hlo : lo ≤ hi) (hhi : hi ≤ b.length) (hv : v.length = hi - lo) :
    slice (setSlice b lo hi v) lo hi = v := by
  have htake : (b.take lo).length = lo := by
    rw [List.length_take]
    omega
  exact slice_middle htake.symm (by omega)

/-- A slice beside the one that was assigned. -/
theorem slice_setSlice_beside (hlo : lo ≤ hi) (hhi : hi ≤ b.length) (hv : v.length = hi - lo)
    (h : hi' ≤ lo ∨ hi ≤ lo') : slice (setSlice b lo hi v) lo' hi' = slice b lo' hi' := by
  have htake : (b.take lo).length = lo := by
    rw [List.length_take]
    omega
  rcases h with hbefore | hafter
  · rw [setSlice, List.append_assoc, slice_append_left (by omega)]
    conv_rhs => rw [← List.take_append_drop lo b]
    rw [slice_append_left (by omega)]
  · have hpre : (b.take lo ++ v).length = hi := by
      rw [List.length_append]
      omega
    have hsplit : b = b.take hi ++ b.drop hi := (List.take_append_drop hi b).symm
    have htake' : (b.take hi).length = hi := by
      rw [List.length_take]
      omega
    rw [setSlice, Nat.max_eq_right hlo, slice_append_right (by omega), hpre]
    conv_rhs => rw [hsplit, slice_append_right (by omega), htake']

end Slices

end Taq102.Lib.PyBytes
