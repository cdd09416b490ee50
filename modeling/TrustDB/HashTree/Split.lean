import Mathlib

/-!
The split point of a binary hash tree whose left subtree is always the largest
complete one: `split size` is the largest power of two strictly below `size`.
-/

namespace HashTree

variable {size level start width : Nat}

def split (size : Nat) : Nat := 2 ^ Nat.log2 (size - 1)

theorem split_pos (size : Nat) : 0 < split size := Nat.two_pow_pos _

theorem split_lt (large : 2 ≤ size) : split size < size := by
  have below : 2 ^ Nat.log2 (size - 1) ≤ size - 1 := Nat.log2_self_le (by omega)
  unfold split
  omega

theorem le_two_mul_split (large : 2 ≤ size) : size ≤ 2 * split size := by
  have above : size - 1 < 2 ^ (Nat.log2 (size - 1) + 1) := Nat.lt_log2_self
  rw [Nat.pow_succ] at above
  unfold split
  omega

theorem split_eq_of_bounds (below : 2 ^ level < size)
    (above : size ≤ 2 * 2 ^ level) : split size = 2 ^ level := by
  have positive := Nat.two_pow_pos level
  have level_eq : Nat.log2 (size - 1) = level := by
    rw [Nat.log2_eq_iff (by omega), Nat.pow_succ]
    omega
  rw [split, level_eq]

theorem split_two_pow_succ (level : Nat) : split (2 ^ (level + 1)) = 2 ^ level := by
  have positive := Nat.two_pow_pos level
  apply split_eq_of_bounds <;> rw [Nat.pow_succ] <;> omega

theorem split_stable {smaller larger : Nat} (past : split larger < smaller)
    (inside : smaller ≤ larger) : split smaller = split larger := by
  have positive := split_pos larger
  have bound : larger ≤ 2 * split larger := le_two_mul_split (by omega)
  exact split_eq_of_bounds past (Nat.le_trans inside bound)

theorem two_mul_split_le_of_le (large : 2 ≤ size) (above : size ≤ 2 ^ level) :
    2 * split size ≤ 2 ^ level := by
  have below := split_lt large
  unfold split at below ⊢
  have smaller : Nat.log2 (size - 1) < level :=
    (Nat.pow_lt_pow_iff_right (by omega)).mp (Nat.lt_of_lt_of_le below above)
  calc 2 * 2 ^ Nat.log2 (size - 1) = 2 ^ (Nat.log2 (size - 1) + 1) := by rw [Nat.pow_succ]; omega
    _ ≤ 2 ^ level := Nat.pow_le_pow_right (by omega) smaller

def Aligned (start width : Nat) : Prop := ∃ level block, start = block * 2 ^ level ∧ width ≤ 2 ^ level

theorem aligned_zero (width : Nat) : Aligned 0 width :=
  ⟨width, 0, by rw [Nat.zero_mul], Nat.le_of_lt Nat.lt_two_pow_self⟩

theorem Aligned.block (aligned : Aligned start (2 ^ level)) :
    ∃ block, start = block * 2 ^ level := by
  obtain ⟨upper, block, rfl, wide⟩ := aligned
  obtain ⟨gap, rfl⟩ := Nat.exists_eq_add_of_le ((Nat.pow_le_pow_iff_right (by omega)).mp wide)
  exact ⟨block * 2 ^ gap, by rw [Nat.mul_assoc, ← Nat.pow_add, Nat.add_comm gap level]⟩

section

variable (aligned : Aligned start width) (large : 2 ≤ width)
include aligned large

theorem Aligned.split_dvd : ∃ block, start = block * split width := by
  obtain ⟨upper, block, rfl, wide⟩ := aligned
  have below : 2 ^ Nat.log2 (width - 1) < 2 ^ upper := Nat.lt_of_lt_of_le (split_lt large) wide
  have smaller := Nat.le_of_lt ((Nat.pow_lt_pow_iff_right (by omega)).mp below)
  obtain ⟨gap, rfl⟩ := Nat.exists_eq_add_of_le smaller
  exact ⟨block * 2 ^ gap, by rw [split, Nat.mul_assoc, ← Nat.pow_add, Nat.add_comm gap]⟩

theorem Aligned.left : Aligned start (split width) := by
  obtain ⟨block, start_eq⟩ := aligned.split_dvd large
  exact ⟨Nat.log2 (width - 1), block, start_eq, Nat.le_refl _⟩

theorem Aligned.right : Aligned (start + split width) (width - split width) := by
  obtain ⟨block, start_eq⟩ := aligned.split_dvd large
  refine ⟨Nat.log2 (width - 1), block + 1, ?_, ?_⟩
  · rw [start_eq, Nat.succ_mul]
    rfl
  · have bound := le_two_mul_split large
    change width - split width ≤ split width
    omega

end

end HashTree
