import Mathlib

/-!
Weighted quorums. Members carry natural weights; two sets of members whose weights reach the
quorum of a third-part fault bound share more weight than the bound allows to be faulty.
-/

namespace Quorum

variable {ι : Type} [DecidableEq ι]

def faulty (total : Nat) : Nat := (total - 1) / 3

def required (total : Nat) : Nat := total - faulty total

theorem weight_overlap (weight : ι → Nat) {members first second} (firstIn : first ⊆ members)
    (secondIn : second ⊆ members) : ∑ member ∈ first, weight member + ∑ member ∈ second, weight member ≤
      ∑ member ∈ members, weight member + ∑ member ∈ first ∩ second, weight member := by
  have union : ∑ member ∈ first ∪ second, weight member ≤ ∑ member ∈ members, weight member :=
    Finset.sum_le_sum_of_subset (Finset.union_subset firstIn secondIn)
  have parts : ∑ member ∈ first ∪ second, weight member + ∑ member ∈ first ∩ second, weight member =
      ∑ member ∈ first, weight member + ∑ member ∈ second, weight member := Finset.sum_union_inter
  omega

theorem faulty_lt_overlap (weight : ι → Nat) {members first second} (firstIn : first ⊆ members)
    (secondIn : second ⊆ members) (positive : 0 < ∑ member ∈ members, weight member)
    (firstQuorum : required (∑ member ∈ members, weight member) ≤ ∑ member ∈ first, weight member)
    (secondQuorum : required (∑ member ∈ members, weight member) ≤ ∑ member ∈ second, weight member) :
    faulty (∑ member ∈ members, weight member) < ∑ member ∈ first ∩ second, weight member := by
  have overlap := weight_overlap weight firstIn secondIn
  unfold required faulty at *
  omega

end Quorum
