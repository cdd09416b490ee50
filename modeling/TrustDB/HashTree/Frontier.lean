import Mathlib
import TrustDB.HashTree.Consistency

/-!
Appending to a hash tree one leaf at a time. The frontier is a binary counter:
slot `level` holds the root of a complete subtree of `2 ^ level` leaves exactly
when that bit of the leaf count is set. Pushing a leaf is an increment whose
carries merge equal subtrees.
-/

namespace HashTree

open List

/-- Root of the subtree of `2 ^ level` leaves with number `block` on its level. -/
def blockRoot {α : Type} (node : α → α → α) (leaves : Nat → α) (level block : Nat) : α :=
  rangeRoot node leaves (block * 2 ^ level) (2 ^ level)

theorem blockRoot_zero {α : Type} (node : α → α → α) (leaves : Nat → α) (block : Nat) :
    blockRoot node leaves 0 block = leaves block := by
  simp [blockRoot]

theorem blockRoot_succ {α : Type} (node : α → α → α) (leaves : Nat → α) (level block : Nat) :
    blockRoot node leaves (level + 1) block =
      node (blockRoot node leaves level (2 * block)) (blockRoot node leaves level (2 * block + 1)) := by
  have left : block * 2 ^ (level + 1) = 2 * block * 2 ^ level := by ring
  have right : 2 * block * 2 ^ level + 2 ^ level = (2 * block + 1) * 2 ^ level := by ring
  rw [blockRoot, rangeRoot_two_pow_succ, left, right]
  rfl

theorem blockRoot_congr {α : Type} (node : α → α → α) {first second level block blocks} (below : block < blocks)
    (same : ∀ index, index < blocks * 2 ^ level → first index = second index) :
    blockRoot node first level block = blockRoot node second level block := by
  apply rangeRoot_congr node (Nat.two_pow_pos level)
  intro index _ upper
  have ends : (block + 1) * 2 ^ level ≤ blocks * 2 ^ level := Nat.mul_le_mul_right _ below
  rw [Nat.succ_mul] at ends
  exact same index (by omega)

namespace Frontier

variable {α : Type}

def push (node : α → α → α) : List (Option α) → α → List (Option α)
  | [], value => [some value]
  | none :: rest, value => some value :: rest
  | some held :: rest, value => none :: push node rest (node held value)

def closed (node : α → α → α) : List (Option α) → Nat → Nat → α → List (Nat × Nat × α)
  | some held :: rest, level, block, value =>
    (level, block, value) :: closed node rest (level + 1) (block / 2) (node held value)
  | _, level, block, value => [(level, block, value)]

theorem closed_eq_cons (node : α → α → α) (frontier : List (Option α)) (level block : Nat) (value : α) :
    closed node frontier level block value =
      (level, block, value) :: (closed node frontier level block value).tail := by
  rcases frontier with _ | ⟨_ | held, rest⟩ <;> rfl

def fold (node : α → α → α) : List (Option α) → Option α → Option α
  | [], root => root
  | none :: rest, root => fold node rest root
  | some held :: rest, none => fold node rest (some held)
  | some held :: rest, some root => fold node rest (some (node held root))

/-- `blocks` subtrees of `2 ^ level` leaves have been counted into these slots. -/
def Counter (node : α → α → α) (leaves : Nat → α) : Nat → Nat → List (Option α) → Prop
  | _, blocks, [] => blocks = 0
  | level, blocks, slot :: rest =>
    slot = (if blocks % 2 = 1 then some (blockRoot node leaves level (blocks - 1)) else none) ∧
      Counter node leaves (level + 1) (blocks / 2) rest

section

variable {node : α → α → α} {leaves : Nat → α}

theorem Counter.congr {second} (frontier : List (Option α)) : ∀ level blocks,
    Counter node leaves level blocks frontier →
      (∀ index, index < blocks * 2 ^ level → leaves index = second index) →
        Counter node second level blocks frontier := by
  induction frontier with
  | nil => intro level blocks counted _; exact counted
  | cons slot rest ih =>
    intro level blocks counted same
    obtain ⟨slotEq, restCounted⟩ := counted
    constructor
    · rw [slotEq]
      split
      · rw [blockRoot_congr node (by omega : blocks - 1 < blocks) same]
      · rfl
    · refine ih (level + 1) (blocks / 2) restCounted (fun index below => same index ?_)
      have half : blocks / 2 * 2 ^ (level + 1) ≤ blocks * 2 ^ level := by
        rw [Nat.pow_succ', ← Nat.mul_assoc]
        exact Nat.mul_le_mul_right _ (by omega)
      omega

theorem Counter.push (frontier : List (Option α)) : ∀ level blocks,
    Counter node leaves level blocks frontier → Counter node leaves level (blocks + 1)
        (push node frontier (blockRoot node leaves level blocks)) := by
  induction frontier with
  | nil =>
    intro level blocks counted
    have empty : blocks = 0 := counted
    subst empty
    exact ⟨rfl, rfl⟩
  | cons slot rest ih =>
    intro level blocks counted
    obtain ⟨slotEq, restCounted⟩ := counted
    obtain ⟨half, parity⟩ : ∃ half, blocks = 2 * half ∨ blocks = 2 * half + 1 :=
      ⟨blocks / 2, by omega⟩
    rcases parity with rfl | rfl
    · -- the bit is clear: the pushed subtree settles here
      have halves : (2 * half + 1) / 2 = 2 * half / 2 := by omega
      simp only [Nat.mul_mod_right, zero_ne_one, ↓reduceIte] at slotEq
      subst slotEq
      exact ⟨by simp [Nat.add_mod], by rw [halves]; exact restCounted⟩
    · -- the bit is set: both halves of the next block are there
      have halves : (2 * half + 1) / 2 = half := by omega
      have carried : (2 * half + 1 + 1) / 2 = half + 1 := by omega
      have odd : (2 * half + 1) % 2 = 1 := by omega
      have even : ¬(2 * half + 1 + 1) % 2 = 1 := by omega
      simp only [odd, ↓reduceIte, Nat.add_sub_cancel] at slotEq
      subst slotEq
      rw [halves] at restCounted
      refine ⟨by simp [even], ?_⟩
      rw [carried, ← blockRoot_succ node leaves]
      exact ih (level + 1) half restCounted

theorem even_of_ends_above {level upper block blocks : Nat} (above : level < upper)
    (ends : (block + 1) * 2 ^ upper = blocks * 2 ^ level) : blocks % 2 = 0 := by
  obtain ⟨extra, rfl⟩ : ∃ extra, upper = level + 1 + extra := ⟨upper - level - 1, by omega⟩
  have split : (block + 1) * 2 ^ (level + 1 + extra) =
      (2 * ((block + 1) * 2 ^ extra)) * 2 ^ level := by ring
  rw [split] at ends
  have same := Nat.eq_of_mul_eq_mul_right (Nat.two_pow_pos level) ends
  omega

theorem block_eq_of_ends {level block blocks : Nat}
    (ends : (block + 1) * 2 ^ level = (blocks + 1) * 2 ^ level) : block = blocks := by
  have same := Nat.eq_of_mul_eq_mul_right (Nat.two_pow_pos level) ends
  omega

section

variable (frontier : List (Option α))
include frontier

theorem Counter.mem_closed : ∀ level blocks, Counter node leaves level blocks frontier → ∀ upper block root,
      (upper, block, root) ∈ closed node frontier level blocks (blockRoot node leaves level blocks) ↔
        level ≤ upper ∧ (block + 1) * 2 ^ upper = (blocks + 1) * 2 ^ level ∧
          root = blockRoot node leaves upper block := by
  -- with the bit clear nothing is carried, and no larger subtree ends here
  have settled (level blocks : Nat) (even : blocks % 2 = 0) (upper block : Nat) (root : α) :
      (upper, block, root) ∈ [(level, blocks, blockRoot node leaves level blocks)] ↔
        level ≤ upper ∧ (block + 1) * 2 ^ upper = (blocks + 1) * 2 ^ level ∧
          root = blockRoot node leaves upper block := by
    simp only [mem_singleton, Prod.mk.injEq]
    constructor
    · rintro ⟨rfl, rfl, rfl⟩
      exact ⟨le_rfl, rfl, rfl⟩
    · rintro ⟨lower, ends, rfl⟩
      obtain rfl | above : level = upper ∨ level < upper := by omega
      · obtain rfl := block_eq_of_ends ends
        exact ⟨rfl, rfl, rfl⟩
      · have odd := even_of_ends_above above ends
        omega
  induction frontier with
  | nil =>
    intro level blocks counted
    have empty : blocks = 0 := counted
    exact settled level blocks (by omega)
  | cons slot rest ih =>
    intro level blocks counted upper block root
    obtain ⟨slotEq, restCounted⟩ := counted
    by_cases odd : blocks % 2 = 1
    · have pair : 2 * (blocks / 2) + 1 = blocks := by omega
      have before : blocks - 1 = 2 * (blocks / 2) := by omega
      have carried : (blocks + 1) * 2 ^ level = (blocks / 2 + 1) * 2 ^ (level + 1) := by
        rw [← pair]
        have halves : (2 * (blocks / 2) + 1) / 2 = blocks / 2 := by omega
        rw [halves]
        ring
      simp only [odd, ↓reduceIte] at slotEq
      have merged : node (blockRoot node leaves level (blocks - 1))
          (blockRoot node leaves level blocks) = blockRoot node leaves (level + 1) (blocks / 2) := by
        rw [blockRoot_succ node leaves level, pair, before]
      rw [slotEq, closed, mem_cons, merged, ih (level + 1) (blocks / 2) restCounted upper block root, ← carried]
      simp only [Prod.mk.injEq]
      constructor
      · rintro (⟨rfl, rfl, rfl⟩ | ⟨lower, rest⟩)
        · exact ⟨le_rfl, rfl, rfl⟩
        · exact ⟨by omega, rest⟩
      · rintro ⟨lower, ends, rfl⟩
        obtain rfl | above : level = upper ∨ level < upper := by omega
        · obtain rfl := block_eq_of_ends ends
          exact .inl ⟨rfl, rfl, rfl⟩
        · exact .inr ⟨above, ends, rfl⟩
    · simp only [odd, ↓reduceIte] at slotEq
      rw [slotEq]
      exact settled level blocks (by omega) upper block root

theorem closed_levels : ∀ level block value,
    ((closed node frontier level block value).map Prod.fst).Pairwise (· < ·) ∧
      ∀ entry ∈ closed node frontier level block value, level ≤ entry.1 := by
  induction frontier with
  | nil => intro level block value; simp [closed]
  | cons slot rest ih =>
    intro level block value
    cases slot with
    | none => simp [closed]
    | some held =>
      obtain ⟨ordered, bounded⟩ := ih (level + 1) (block / 2) (node held value)
      constructor
      · simp only [closed, map_cons, pairwise_cons, mem_map]
        refine ⟨?_, ordered⟩
        rintro _ ⟨entry, member, rfl⟩
        exact bounded entry member
      · intro entry member
        rcases mem_cons.mp member with rfl | later
        · exact le_rfl
        · exact Nat.le_of_succ_le (bounded entry later)

theorem Counter.slot : ∀ level blocks, Counter node leaves level blocks frontier → ∀ offset,
      (frontier[offset]?).getD none = if blocks.testBit offset then
          some (blockRoot node leaves (level + offset) (blocks / 2 ^ offset - 1))
        else none := by
  induction frontier with
  | nil =>
    intro level blocks counted offset
    have empty : blocks = 0 := counted
    simp [empty]
  | cons slot rest ih =>
    intro level blocks counted offset
    obtain ⟨slotEq, restCounted⟩ := counted
    cases offset with
    | zero => simp [slotEq, Nat.testBit_zero]
    | succ offset =>
      have deeper := ih (level + 1) (blocks / 2) restCounted offset
      rw [getElem?_cons_succ, deeper, Nat.testBit_succ, Nat.div_div_eq_div_mul,
        ← Nat.pow_succ', Nat.add_right_comm, Nat.add_assoc]

theorem Counter.empty : ∀ level blocks,
    Counter node leaves level blocks frontier → (∀ slot ∈ frontier, slot = none) → blocks = 0 := by
  induction frontier with
  | nil => intro level blocks counted _; exact counted
  | cons slot rest ih =>
    intro level blocks counted clear
    obtain ⟨slotEq, restCounted⟩ := counted
    have half := ih (level + 1) (blocks / 2) restCounted
      (fun other member => clear other (mem_cons_of_mem _ member))
    rw [clear slot mem_cons_self] at slotEq
    split at slotEq
    · simp at slotEq
    · omega

end

theorem Counter.of_append_clear (kept dropped : List (Option α)) : ∀ level blocks,
    Counter node leaves level blocks (kept ++ dropped) → (∀ slot ∈ dropped, slot = none) →
      Counter node leaves level blocks kept := by
  induction kept with
  | nil => intro level blocks counted clear; exact Counter.empty dropped level blocks counted clear
  | cons slot rest ih =>
    intro level blocks counted clear
    exact ⟨counted.1, ih (level + 1) (blocks / 2) counted.2 clear⟩

theorem Counter.trim {frontier level blocks} (counted : Counter node leaves level blocks frontier) :
    Counter node leaves level blocks (frontier.rdropWhile Option.isNone) := by
  have whole : frontier.rdropWhile Option.isNone ++ frontier.rtakeWhile Option.isNone = frontier :=
    rdropWhile_append_rtakeWhile
  rw [← whole] at counted
  refine Counter.of_append_clear _ _ level blocks counted fun slot member => ?_
  simpa using mem_rtakeWhile_imp member

theorem Counter.fold (frontier : List (Option α)) : ∀ level blocks rest,
    Counter node leaves level blocks frontier → rest < 2 ^ level → fold node frontier
          (if rest = 0 then none else some (rangeRoot node leaves (blocks * 2 ^ level) rest)) =
        if blocks * 2 ^ level + rest = 0 then none
        else some (rangeRoot node leaves 0 (blocks * 2 ^ level + rest)) := by
  induction frontier with
  | nil =>
    intro level blocks rest counted _
    have empty : blocks = 0 := counted
    simp [empty, Frontier.fold]
  | cons slot slots ih =>
    intro level blocks rest counted bound
    obtain ⟨slotEq, restCounted⟩ := counted
    have width : 2 ^ (level + 1) = 2 * 2 ^ level := Nat.pow_succ'
    by_cases odd : blocks % 2 = 1
    · have start : (blocks - 1) * 2 ^ level = blocks / 2 * 2 ^ (level + 1) := by
        have before : blocks - 1 = 2 * (blocks / 2) := by omega
        rw [before]
        ring
      have next : blocks * 2 ^ level = blocks / 2 * 2 ^ (level + 1) + 2 ^ level := by
        have after : blocks = 2 * (blocks / 2) + 1 := by omega
        calc blocks * 2 ^ level = (2 * (blocks / 2) + 1) * 2 ^ level := by rw [← after]
          _ = blocks / 2 * 2 ^ (level + 1) + 2 ^ level := by ring
      have folded := ih (level + 1) (blocks / 2) (2 ^ level + rest) restCounted (by omega)
      have positive := Nat.two_pow_pos level
      rw [if_neg (by omega : ¬2 ^ level + rest = 0)] at folded
      simp only [odd, ↓reduceIte] at slotEq
      rw [slotEq, next, Nat.add_assoc, ← folded, blockRoot, start]
      by_cases none_left : rest = 0
      · simp [none_left, Frontier.fold]
      · have splits : split (2 ^ level + rest) = 2 ^ level :=
          split_eq_of_bounds (by omega) (by omega)
        have joined := rangeRoot_split node leaves (blocks / 2 * 2 ^ (level + 1))
          (by omega : 2 ≤ 2 ^ level + rest)
        rw [if_neg none_left, Frontier.fold, joined, splits, Nat.add_sub_cancel_left]
    · have same : blocks * 2 ^ level = blocks / 2 * 2 ^ (level + 1) := by
        have after : blocks = 2 * (blocks / 2) := by omega
        calc blocks * 2 ^ level = 2 * (blocks / 2) * 2 ^ level := by rw [← after]
          _ = blocks / 2 * 2 ^ (level + 1) := by ring
      simp only [odd, ↓reduceIte] at slotEq
      rw [slotEq, Frontier.fold, same]
      exact ih (level + 1) (blocks / 2) rest restCounted (by omega)

end

end Frontier

end HashTree
