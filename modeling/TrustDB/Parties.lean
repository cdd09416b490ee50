import Mathlib

/-!
Finitely many parties, each in a phase of its own. A phase has a weight; the total of the weights
counts what the parties hold together, and changes by one party when one party moves.
-/

namespace Parties

open scoped BigOperators

variable {Party Phase : Type} [Fintype Party] [DecidableEq Party] (weight : Phase → Nat) (phases : Party → Phase)

def total : Nat := ∑ party, weight (phases party)

theorem total_eq (party : Party) :
    total weight phases = weight (phases party) + ∑ other ∈ Finset.univ.erase party, weight (phases other) :=
  (Finset.add_sum_erase _ _ (Finset.mem_univ party)).symm

theorem le_total (party : Party) : weight (phases party) ≤ total weight phases := by
  rw [total_eq weight phases party]
  exact Nat.le_add_right _ _

theorem total_update (party : Party) (phase : Phase) :
    total weight (Function.update phases party phase) + weight (phases party) = total weight phases + weight phase := by
  rw [total_eq weight _ party, total_eq weight phases party, Function.update_self]
  have rest : ∑ other ∈ Finset.univ.erase party, weight (Function.update phases party phase other) =
      ∑ other ∈ Finset.univ.erase party, weight (phases other) :=
    Finset.sum_congr rfl fun other inside => by rw [Function.update_of_ne (Finset.ne_of_mem_erase inside)]
  omega

end Parties
