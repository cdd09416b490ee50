import Mathlib

/-!
Numbers in base 128, lowest digits first: every byte but the last of a number has its high bit set.
-/

namespace Varint

def value : List UInt8 → Nat
  | [] => 0
  | byte :: rest => byte.toNat % 128 + 128 * value rest

/-- The bytes of one number. -/
def Terminated : List UInt8 → Prop
  | [] => False
  | [last] => last.toNat < 128
  | byte :: next :: rest => 128 ≤ byte.toNat ∧ Terminated (next :: rest)

theorem terminated_cons {byte rest} (continues : 128 ≤ byte.toNat) :
    Terminated (byte :: rest) ↔ Terminated rest := by
  cases rest with
  | nil => simp only [Terminated, iff_false]; omega
  | cons next rest => simp [Terminated, continues]

theorem terminated_last {byte rest} (ends : byte.toNat < 128) : Terminated (byte :: rest) ↔ rest = [] := by
  cases rest with
  | nil => simp [Terminated, ends]
  | cons next rest => simp only [Terminated, reduceCtorEq, iff_false]; omega

theorem terminated_ne_nil {digits} (terminated : Terminated digits) : digits ≠ [] := by
  rintro rfl
  exact terminated

theorem lt_of_terminated {last} (front : List UInt8) (terminated : Terminated (front ++ [last])) :
    last.toNat < 128 := by
  induction front with
  | nil => exact terminated
  | cons byte rest ih =>
    by_cases ends : byte.toNat < 128
    · simp [terminated_last ends] at terminated
    · exact ih ((terminated_cons (by omega)).mp terminated)

theorem value_append (front rest : List UInt8) :
    value (front ++ rest) = value front + 128 ^ front.length * value rest := by
  induction front with
  | nil => simp [value]
  | cons byte front ih =>
    rw [List.cons_append, value, ih, value, List.length_cons, Nat.pow_succ', Nat.mul_add, Nat.mul_assoc, Nat.add_assoc]

theorem value_lt (digits : List UInt8) : value digits < 128 ^ digits.length := by
  induction digits with
  | nil => exact Nat.one_pos
  | cons byte rest ih =>
    rw [value, List.length_cons, Nat.pow_succ]
    omega

theorem value_lt_two_pow_iff {digits} (terminated : Terminated digits) (short : digits.length ≤ 10) :
    value digits < 2 ^ 64 ↔ ∀ byte, digits[9]? = some byte → byte.toNat ≤ 1 := by
  by_cases full : digits.length = 10
  · obtain ⟨front, last, rfl⟩ : ∃ front last, digits = front ++ [last] :=
      ⟨_, _, (List.dropLast_append_getLast (terminated_ne_nil terminated)).symm⟩
    have nine : front.length = 9 := by simpa using full
    have small := lt_of_terminated front terminated
    have below := value_lt front
    rw [nine] at below
    rw [value_append, nine, value, value, Nat.mod_eq_of_lt small]
    simp only [List.getElem?_append_right (Nat.le_of_eq nine), nine, Nat.sub_self, List.getElem?_cons_zero,
      Option.some.injEq, forall_eq']
    omega
  · have below := value_lt digits
    have less : 128 ^ digits.length ≤ 128 ^ 9 := Nat.pow_le_pow_right (by decide) (by omega)
    rw [List.getElem?_eq_none (by omega)]
    simp only [reduceCtorEq, false_implies, implies_true, iff_true]
    omega

end Varint
