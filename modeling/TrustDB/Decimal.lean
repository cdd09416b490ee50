import Mathlib

/-!
Decimal numbers filled up with zeros. Numbers that fit one width order as their digits do, also
with something behind them.
-/

namespace Decimal

open List

def padded (width n : Nat) : List Char := (Nat.toDigits 10 n).leftpad width '0'

theorem ofDigitChars_lt (first : List Char) : ∀ (second : List Char) (low high : Nat),
    first.length = second.length → (∀ symbol ∈ first, symbol.isDigit) → (∀ symbol ∈ second, symbol.isDigit) →
      (Nat.ofDigitChars 10 first low < Nat.ofDigitChars 10 second high ↔
        low < high ∨ low = high ∧ first < second) := by
  induction first with
  | nil =>
    intro second low high length _ _
    obtain rfl := length_eq_zero_iff.mp length.symm
    simp [Nat.ofDigitChars]
  | cons symbol rest ih =>
    intro second low high length digits others
    cases second with
    | nil => cases length
    | cons other more =>
      have digit := digits symbol mem_cons_self
      have otherDigit := others other mem_cons_self
      simp only [Char.isDigit, Bool.and_eq_true, decide_eq_true_eq, UInt32.le_iff_toNat_le] at digit otherDigit
      have order : symbol < other ↔ symbol.toNat < other.toNat := Iff.rfl
      have equal : symbol = other ↔ symbol.toNat = other.toNat := Char.toNat_inj.symm
      have zero : '0'.toNat = 48 := rfl
      have low_ : 48 ≤ symbol.toNat ∧ symbol.toNat ≤ 57 := digit
      have high_ : 48 ≤ other.toNat ∧ other.toNat ≤ 57 := otherDigit
      rw [Nat.ofDigitChars_cons, Nat.ofDigitChars_cons,
        ih more _ _ (Nat.succ.inj length) (fun later member => digits later (mem_cons_of_mem _ member))
          (fun later member => others later (mem_cons_of_mem _ member)), cons_lt_cons_iff, order, equal]
      by_cases behind : rest < more
      · simp only [behind, zero, and_true]
        omega
      · simp only [behind, zero, and_false, or_false]
        omega

variable {width first second : Nat}

theorem padded_length (some_ : 0 < width) (fits : first < 10 ^ width) : (padded width first).length = width := by
  rw [padded, length_leftpad]
  exact Nat.max_eq_left (Nat.toDigits_length 10 first width some_ fits)

theorem padded_digits (width n : Nat) : ∀ symbol ∈ padded width n, symbol.isDigit := by
  intro symbol member
  rcases mem_append.mp member with filled | digit
  · rw [eq_of_mem_replicate filled]
    rfl
  · exact Nat.isDigit_of_mem_toDigits (by decide) (by decide) digit

theorem padded_value (width n : Nat) : Nat.ofDigitChars 10 (padded width n) 0 = n := by
  have zeros : ∀ count, Nat.ofDigitChars 10 (replicate count '0') 0 = 0 := by
    intro count
    induction count with
    | zero => rfl
    | succ count ih => exact ih
  rw [padded, leftpad, Nat.ofDigitChars_append, zeros, Nat.ofDigitChars_toDigits (by decide) (by decide)]

theorem padded_lt (some_ : 0 < width) (fits : first < 10 ^ width) (otherFits : second < 10 ^ width) :
    padded width first < padded width second ↔ first < second := by
  have lengths := (padded_length some_ fits).trans (padded_length some_ otherFits).symm
  have values := ofDigitChars_lt _ _ 0 0 lengths (padded_digits width first) (padded_digits width second)
  rw [padded_value, padded_value] at values
  simpa using values.symm

theorem append_lt {left right} (behind after : List Char) (lengths : left.length = right.length) :
    left ++ behind < right ++ after ↔ left < right ∨ left = right ∧ behind < after := by
  induction left generalizing right with
  | nil =>
    obtain rfl := length_eq_zero_iff.mp lengths.symm
    simp
  | cons symbol rest ih =>
    cases right with
    | nil => cases lengths
    | cons other more =>
      simp only [cons_append, cons_lt_cons_iff, ih (Nat.succ.inj lengths), cons.injEq]
      tauto

theorem padded_append_lt (some_ : 0 < width) (fits : first < 10 ^ width) (otherFits : second < 10 ^ width)
    (behind after : List Char) :
    padded width first ++ behind < padded width second ++ after ↔
      first < second ∨ first = second ∧ behind < after := by
  have lengths := (padded_length some_ fits).trans (padded_length some_ otherFits).symm
  have equal : padded width first = padded width second ↔ first = second := by
    refine ⟨fun same => ?_, congrArg _⟩
    rw [← padded_value width first, same, padded_value]
  rw [append_lt behind after lengths, padded_lt some_ fits otherFits, equal]

end Decimal
