import Mathlib

/-!
Three texts joined by a separator. The parts can be read off the joined text exactly when the
separator does not stand inside them.
-/

namespace Joined

open List

variable {α : Type} {sep : α} {a b c x y z : List α}

def join (sep : α) (a b c : List α) : List α := a ++ sep :: (b ++ sep :: c)

/-- No other three parts, the last of them in `last`, join to the same text. -/
def Unshared (sep : α) (last : List α → Prop) (a b c : List α) : Prop :=
  ∀ x y z, last z → join sep x y z = join sep a b c → x = a ∧ y = b ∧ z = c

theorem cut_injective (first : sep ∉ a) (second : sep ∉ x) (same : a ++ sep :: b = x ++ sep :: y) :
    a = x ∧ b = y := by
  induction a generalizing x with
  | nil =>
    cases x with
    | nil => exact ⟨rfl, tail_eq_of_cons_eq same⟩
    | cons head tail => exact absurd (head_eq_of_cons_eq same) (fun same => second (by simp [same]))
  | cons head tail ih =>
    cases x with
    | nil => exact absurd (head_eq_of_cons_eq same) (fun same => first (by simp [same]))
    | cons other rest =>
      simp only [cons_append, cons.injEq, mem_cons, not_or] at same first second
      obtain ⟨rfl, rest⟩ := ih first.2 second.2 same.2
      exact ⟨by rw [same.1], rest⟩

theorem join_injective (freeA : sep ∉ a) (freeB : sep ∉ b) (freeX : sep ∉ x) (freeY : sep ∉ y)
    (same : join sep x y z = join sep a b c) : x = a ∧ y = b ∧ z = c := by
  obtain ⟨first, rest⟩ := cut_injective freeX freeA same
  obtain ⟨second, third⟩ := cut_injective freeY freeB rest
  exact ⟨first, second, third⟩

theorem count_join [DecidableEq α] :
    (join sep a b c).count sep = a.count sep + b.count sep + c.count sep + 2 := by
  simp only [join, count_append, count_cons_self]
  omega

theorem free_of_join_eq [DecidableEq α] (freeA : sep ∉ a) (freeB : sep ∉ b) (freeC : sep ∉ c)
    (same : join sep x y z = join sep a b c) : sep ∉ x ∧ sep ∉ y ∧ sep ∉ z := by
  have counts := congrArg (count sep) same
  rw [count_join, count_join, count_eq_zero_of_not_mem freeA, count_eq_zero_of_not_mem freeB,
    count_eq_zero_of_not_mem freeC] at counts
  refine ⟨?_, ?_, ?_⟩ <;> apply count_eq_zero.mp <;> omega

theorem join_dropLast (filled : c ≠ []) : (join sep a b c).dropLast = join sep a b c.dropLast := by
  have whole : join sep a b c = (a ++ sep :: (b ++ [sep])) ++ c := by simp [join]
  rw [whole, dropLast_append_of_ne_nil filled]
  simp [join]

theorem unshared_of_mem {last : List α → Prop} (accepts : ∀ front, last (front ++ sep :: c))
    (unshared : Unshared sep last a b c) : sep ∉ a ∧ sep ∉ b := by
  constructor
  · intro inside
    obtain ⟨front, back, rfl⟩ := append_of_mem inside
    have other := unshared front back (b ++ sep :: c) (accepts b) (by simp [join])
    have lengths := congrArg length other.1
    simp at lengths
  · intro inside
    obtain ⟨front, back, rfl⟩ := append_of_mem inside
    have other := unshared a front (back ++ sep :: c) (accepts back) (by simp [join])
    have lengths := congrArg length other.2.1
    simp at lengths

theorem unshared_iff [DecidableEq α] :
    Unshared sep (fun _ => True) a b c ↔ sep ∉ a ∧ sep ∉ b ∧ sep ∉ c := by
  constructor
  · intro unshared
    obtain ⟨freeA, freeB⟩ := unshared_of_mem (fun _ => trivial) unshared
    refine ⟨freeA, freeB, fun inside => ?_⟩
    obtain ⟨front, back, rfl⟩ := append_of_mem inside
    have other := unshared a (b ++ sep :: front) back trivial (by simp [join])
    have lengths := congrArg length other.2.1
    simp at lengths
  · rintro ⟨freeA, freeB, freeC⟩ x y z - same
    obtain ⟨freeX, freeY, -⟩ := free_of_join_eq freeA freeB freeC same
    exact join_injective freeA freeB freeX freeY same

theorem unshared_nonempty_iff [DecidableEq α] (filled : c ≠ []) :
    Unshared sep (· ≠ []) a b c ↔ sep ∉ a ∧ sep ∉ b ∧ sep ∉ c.dropLast := by
  constructor
  · intro unshared
    obtain ⟨freeA, freeB⟩ := unshared_of_mem (by simp) unshared
    refine ⟨freeA, freeB, fun inside => ?_⟩
    obtain ⟨front, back, split⟩ := append_of_mem inside
    have whole : c = front ++ sep :: (back ++ [c.getLast filled]) := by
      conv_lhs => rw [← dropLast_append_getLast filled, split]
      simp
    have other := unshared a (b ++ sep :: front) (back ++ [c.getLast filled]) (by simp) (by
      conv_rhs => rw [whole]
      simp [join])
    have lengths := congrArg length other.2.1
    simp at lengths
  · rintro ⟨freeA, freeB, freeC⟩ x y z nonempty same
    have shortened := congrArg dropLast same
    rw [join_dropLast nonempty, join_dropLast filled] at shortened
    obtain ⟨freeX, freeY, -⟩ := free_of_join_eq freeA freeB freeC shortened
    exact join_injective freeA freeB freeX freeY same

end Joined
