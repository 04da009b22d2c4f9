import Mathlib.Data.List.Basic

/-! A sequence read in blocks of one size. A buffer that collects pieces until a block is full
finds the blocks of the whole sequence, wherever it was cut. -/
namespace Taq102.Lib.Blocks
variable {α : Type*} {n : Nat} {xs piece : List α}

/-- The complete blocks. -/
def blocks (n : Nat) (xs : List α) : List (List α) :=
  (List.range (xs.length / n)).map fun k => (xs.drop (n * k)).take n

/-- What follows the last complete block. -/
def remainder (n : Nat) (xs : List α) : List α := xs.drop (n * (xs.length / n))

@[simp] theorem blocks_nil : blocks n ([] : List α) = [] := by
  rw [blocks, List.length_nil, Nat.zero_div]
  rfl

@[simp] theorem remainder_nil : remainder n ([] : List α) = [] := List.drop_nil

theorem length_remainder (n : Nat) (xs : List α) : (remainder n xs).length = xs.length % n := by
  rw [remainder, List.length_drop]
  have hsplit : n * (xs.length / n) + xs.length % n = xs.length := Nat.div_add_mod _ _
  omega

/-- The blocks of a sequence are not changed by what follows it. -/
theorem block_append {k : Nat} (hk : k < xs.length / n) :
    ((xs ++ piece).drop (n * k)).take n = (xs.drop (n * k)).take n := by
  have hlast : n * (k + 1) ≤ xs.length :=
    Nat.le_trans (Nat.mul_le_mul_left n hk) (Nat.mul_div_le xs.length n)
  rw [Nat.mul_succ] at hlast
  rw [List.drop_append_of_le_length (by omega), List.take_append_of_le_length]
  rw [List.length_drop]
  omega

private theorem length_append_div (h : (remainder n xs).length + piece.length < n) :
    (xs ++ piece).length / n = xs.length / n := by
  rw [length_remainder] at h
  have hsplit : n * (xs.length / n) + xs.length % n = xs.length := Nat.div_add_mod _ _
  have hsum : (xs ++ piece).length = xs.length % n + piece.length + n * (xs.length / n) := by
    rw [List.length_append]
    omega
  rw [hsum, Nat.add_mul_div_left _ _ (by omega), Nat.div_eq_of_lt h, Nat.zero_add]

theorem blocks_append_of_lt (h : (remainder n xs).length + piece.length < n) :
    blocks n (xs ++ piece) = blocks n xs := by
  rw [blocks, blocks, length_append_div h]
  refine List.map_congr_left fun k hk => ?_
  exact block_append (List.mem_range.mp hk)

theorem remainder_append_of_lt (h : (remainder n xs).length + piece.length < n) :
    remainder n (xs ++ piece) = remainder n xs ++ piece := by
  rw [remainder, length_append_div h, List.drop_append_of_le_length (Nat.mul_div_le _ _), remainder]

private theorem length_append_div_succ (hn : 0 < n)
    (h : (remainder n xs).length + piece.length = n) :
    (xs ++ piece).length / n = xs.length / n + 1 ∧
      (xs ++ piece).length = n * (xs.length / n + 1) := by
  rw [length_remainder] at h
  have hsplit : n * (xs.length / n) + xs.length % n = xs.length := Nat.div_add_mod _ _
  have hsum : (xs ++ piece).length = n * (xs.length / n + 1) := by
    rw [List.length_append, Nat.mul_succ]
    omega
  exact ⟨by rw [hsum, Nat.mul_div_cancel_left _ hn], hsum⟩

/-- A piece that fills the block closes it. -/
theorem blocks_append_of_eq (hn : 0 < n) (h : (remainder n xs).length + piece.length = n) :
    blocks n (xs ++ piece) = blocks n xs ++ [remainder n xs ++ piece] := by
  obtain ⟨hcount, _⟩ := length_append_div_succ hn h
  have hlast : ((xs ++ piece).drop (n * (xs.length / n))).take n = remainder n xs ++ piece := by
    rw [List.drop_append_of_le_length (Nat.mul_div_le _ _), ← remainder]
    exact List.take_of_length_le (by rw [List.length_append]; exact Nat.le_of_eq h)
  rw [blocks, blocks, hcount, List.range_succ, List.map_append, List.map_singleton, hlast]
  refine congrArg (· ++ _) (List.map_congr_left fun k hk => ?_)
  exact block_append (List.mem_range.mp hk)

theorem remainder_append_of_eq (hn : 0 < n) (h : (remainder n xs).length + piece.length = n) :
    remainder n (xs ++ piece) = [] := by
  obtain ⟨hcount, hlength⟩ := length_append_div_succ hn h
  rw [remainder, hcount, ← hlength]
  exact List.drop_length

/-- The first blocks of a sequence are those of what it begins with. -/
theorem blocks_begin (n : Nat) (xs piece : List α) : blocks n xs <+: blocks n (xs ++ piece) := by
  have hcount : xs.length / n ≤ (xs ++ piece).length / n := by
    rw [List.length_append]
    exact Nat.div_le_div_right (Nat.le_add_right _ _)
  have hfirst : blocks n xs = (List.range (xs.length / n)).map fun k =>
      ((xs ++ piece).drop (n * k)).take n :=
    List.map_congr_left fun k hk => (block_append (List.mem_range.mp hk)).symm
  rw [hfirst, blocks, ← Nat.add_sub_cancel' hcount, List.range_add, List.map_append]
  exact List.prefix_append _ _

end Taq102.Lib.Blocks
