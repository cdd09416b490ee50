import Mathlib

/-!
Binary search for the first index at which a test holds. The test is meant to stay true once
it is true; the search then cuts a list where the test starts to hold.
-/

namespace Search

open List

def searchFrom (holds : Nat → Bool) : Nat → Nat → Nat → Nat
  | 0, low, _ => low
  | fuel + 1, low, high =>
    if low < high then
      let middle := (low + high) / 2
      if holds middle then searchFrom holds fuel low middle else searchFrom holds fuel (middle + 1) high
    else low

/-- The least index below `count` at which the test holds, or `count`. -/
def search (count : Nat) (holds : Nat → Bool) : Nat := searchFrom holds count 0 count

variable {holds : Nat → Bool} {count : Nat}

structure Cuts (holds : Nat → Bool) (count index : Nat) : Prop where
  bounded : index ≤ count
  below : ∀ lower < index, holds lower = false
  above : ∀ upper, index ≤ upper → upper < count → holds upper = true

section

variable (monotone : ∀ lower upper, lower ≤ upper → upper < count → holds lower = true → holds upper = true)
include monotone

theorem searchFrom_cuts (fuel low high : Nat) (enough : high - low ≤ fuel) (ordered : low ≤ high)
    (bounded : high ≤ count) (below : ∀ lower < low, holds lower = false)
    (above : ∀ upper, high ≤ upper → upper < count → holds upper = true) :
    Cuts holds count (searchFrom holds fuel low high) := by
  induction fuel generalizing low high with
  | zero =>
    have met : low = high := by omega
    subst met
    exact ⟨bounded, below, above⟩
  | succ fuel ih =>
    unfold searchFrom
    by_cases open_ : low < high
    · simp only [open_, ↓reduceIte]
      by_cases hit : holds ((low + high) / 2) = true
      · rw [if_pos hit]
        apply ih
        · omega
        · omega
        · omega
        · exact below
        · intro upper reached bound
          exact monotone _ _ reached bound hit
      · rw [if_neg hit]
        apply ih
        · omega
        · omega
        · exact bounded
        · intro lower bound
          by_contra holding
          exact hit (monotone lower _ (by omega) (by omega) (by simpa using holding))
        · exact above
    · have met : low = high := by omega
      subst met
      simp only [Nat.lt_irrefl, ↓reduceIte]
      exact ⟨bounded, below, above⟩

theorem search_cuts : Cuts holds count (search count holds) := by
  apply searchFrom_cuts monotone
  · omega
  · omega
  · exact Nat.le_refl _
  · intro lower impossible
    omega
  · intro upper reached bound
    omega

end

section

variable {α : Type} (test : α → Bool) (items : List α)

def searchList : Nat := search items.length fun index => items[index]?.any test

variable {test items}

section

variable (monotone : items.Pairwise fun first second => test first = true → test second = true)

include monotone

theorem searchList_cuts :
    Cuts (fun index => items[index]?.any test) items.length (searchList test items) := by
  apply search_cuts
  intro lower upper ordered bound holding
  have lowerBound : lower < items.length := by omega
  simp only [getElem?_eq_getElem lowerBound, getElem?_eq_getElem bound, Option.any_some] at holding ⊢
  rcases Nat.eq_or_lt_of_le ordered with same | below
  · subst same
    exact holding
  · exact pairwise_iff_getElem.mp monotone lower upper lowerBound bound below holding

theorem searchList_take :
    ∀ item ∈ items.take (searchList test items), test item = false := by
  intro item member
  obtain ⟨index, bound, found⟩ := mem_iff_getElem.mp member
  rw [getElem_take] at found
  have short : index < searchList test items ∧ index < items.length := by
    rw [length_take] at bound
    omega
  have fails := (searchList_cuts monotone).below index short.1
  simpa [getElem?_eq_getElem short.2, found] using fails

theorem searchList_drop :
    ∀ item ∈ items.drop (searchList test items), test item = true := by
  intro item member
  obtain ⟨index, bound, found⟩ := mem_iff_getElem.mp member
  rw [getElem_drop] at found
  have short : searchList test items + index < items.length := by
    rw [length_drop] at bound
    omega
  have passes := (searchList_cuts monotone).above _ (Nat.le_add_right _ index) short
  simpa [getElem?_eq_getElem short, found] using passes

end

end

end Search
