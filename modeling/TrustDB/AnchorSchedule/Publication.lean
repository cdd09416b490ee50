import Mathlib
import TrustDB.AnchorSchedule.Core

/-!
`SelectPublicationTargets`: one pass over the tree heads of a batch keeps the highest one and the
lowest one above the covered size, and stops at two different heads of one size.
-/

namespace TrustDB.AnchorSchedule

open Result List Model

structure Selection where
  seen : AList fun _ : Nat => SignedTreeHead
  windowStart : SignedTreeHead
  highest : SignedTreeHead

def Selection.empty : Selection where
  seen := ∅
  windowStart := default
  highest := default

/-- The check of a head against the one of its size. -/
def noteTarget (seen : AList fun _ : Nat => SignedTreeHead) (sth : SignedTreeHead) :
    Outcome (AList fun _ : Nat => SignedTreeHead) :=
  match seen.lookup sth.treeSize with
  | some existing =>
    if sameTarget existing sth then .ok seen
    else .error (.new .dataLoss "anchor publication contains conflicting STHs at one tree size")
  | none => .ok (seen.insert sth.treeSize sth)

/-- One round of the loop. -/
def selectTarget (coveredTreeSize : Nat) (chosen : Selection) (sth : SignedTreeHead) : Outcome Selection := do
  reject (sth.treeSize = 0) (.new .invalidArgument "anchor publication STH tree_size is required")
  let seen ← noteTarget chosen.seen sth
  return {
    seen := seen
    highest := if chosen.highest.treeSize = 0 ∨ chosen.highest.treeSize < sth.treeSize then sth else chosen.highest
    windowStart :=
      if coveredTreeSize < sth.treeSize ∧
          (chosen.windowStart.treeSize = 0 ∨ sth.treeSize < chosen.windowStart.treeSize) then sth
      else chosen.windowStart }

/-- The start of the window and the target. -/
def selectPublicationTargets (sths : List SignedTreeHead) (coveredTreeSize : Nat) :
    Outcome (SignedTreeHead × SignedTreeHead) := do
  reject (sths.length = 0) (.new .invalidArgument "anchor publication requires at least one STH")
  let chosen ← sths.foldlM (selectTarget coveredTreeSize) .empty
  return (if chosen.windowStart.treeSize = 0 then chosen.highest else chosen.windowStart, chosen.highest)

/-- Every head has a size, and heads of one size are the same. -/
def Consistent (sths : List SignedTreeHead) : Prop :=
  (∀ sth ∈ sths, sth.treeSize ≠ 0) ∧
    ∀ sth ∈ sths, ∀ other ∈ sths, sth.treeSize = other.treeSize → sth = other

def IsHighest (sths : List SignedTreeHead) (target : SignedTreeHead) : Prop :=
  target ∈ sths ∧ ∀ sth ∈ sths, sth.treeSize ≤ target.treeSize

/-- The lowest head above the covered size. -/
def IsLowest (covered : Nat) (sths : List SignedTreeHead) (start : SignedTreeHead) : Prop :=
  (start ∈ sths ∧ covered < start.treeSize) ∧
    ∀ sth ∈ sths, covered < sth.treeSize → start.treeSize ≤ sth.treeSize

/-- What the pass has chosen from the heads so far. -/
structure Chosen (covered : Nat) (sths : List SignedTreeHead) (chosen : Selection) : Prop where
  consistent : Consistent sths
  seen : ∀ size sth, chosen.seen.lookup size = some sth ↔ sth ∈ sths ∧ sth.treeSize = size
  highest : sths = [] ∧ chosen.highest.treeSize = 0 ∨ IsHighest sths chosen.highest
  start : (∀ sth ∈ sths, sth.treeSize ≤ covered) ∧ chosen.windowStart.treeSize = 0 ∨
    IsLowest covered sths chosen.windowStart

section

variable {covered : Nat} {sths : List SignedTreeHead} {chosen next : Selection} {sth : SignedTreeHead}

theorem chosen_empty : Chosen covered [] .empty where
  consistent := ⟨by simp, by simp⟩
  seen := by simp [Selection.empty]
  highest := .inl ⟨rfl, rfl⟩
  start := .inl ⟨by simp, rfl⟩

theorem noteTarget_eq_ok {seen} (consistent : Consistent sths)
    (holds : ∀ size sth, seen.lookup size = some sth ↔ sth ∈ sths ∧ sth.treeSize = size) :
    (∀ noted, noteTarget seen sth = .ok noted → (∀ other ∈ sths, other.treeSize = sth.treeSize → other = sth) ∧
      ∀ size other, noted.lookup size = some other ↔ other ∈ sths ++ [sth] ∧ other.treeSize = size) ∧
    ((∀ other ∈ sths, other.treeSize = sth.treeSize → other = sth) → ∃ noted, noteTarget seen sth = .ok noted) := by
  unfold noteTarget
  cases found : seen.lookup sth.treeSize with
  | none =>
    have new : ∀ other ∈ sths, other.treeSize ≠ sth.treeSize := fun other member same => by
      rw [(holds _ _).mpr ⟨member, same⟩] at found
      cases found
    refine ⟨fun noted note => ?_, fun _ => ⟨_, rfl⟩⟩
    cases note
    refine ⟨fun other member same => absurd same (new other member), fun size other => ?_⟩
    rw [mem_append, mem_singleton]
    by_cases here : size = sth.treeSize
    · subst here
      rw [AList.lookup_insert, Option.some.injEq]
      constructor
      · rintro rfl
        exact ⟨.inr rfl, rfl⟩
      · rintro ⟨member | rfl, size⟩
        · exact absurd size (new other member)
        · rfl
    · rw [AList.lookup_insert_ne here, holds]
      constructor
      · rintro ⟨member, size⟩
        exact ⟨.inl member, size⟩
      · rintro ⟨member | rfl, size⟩
        · exact ⟨member, size⟩
        · exact absurd size.symm here
  | some existing =>
    obtain ⟨member, size⟩ := (holds _ _).mp found
    by_cases same : existing = sth
    · subst same
      have agreed : sameTarget existing existing = true := decide_eq_true rfl
      simp only [agreed, if_true]
      refine ⟨fun noted note => ?_, fun _ => ⟨seen, rfl⟩⟩
      cases note
      refine ⟨fun other otherMember same => consistent.2 other otherMember existing member same, fun size other => ?_⟩
      rw [holds, mem_append, mem_singleton, or_iff_left_of_imp fun same => same ▸ member]
    · have refused : ¬sameTarget existing sth = true := fun agrees => same (of_decide_eq_true agrees)
      refine ⟨fun noted note => ?_, fun agrees => absurd (agrees existing member size) same⟩
      simp only [refused, Bool.false_eq_true, if_false, reduceCtorEq] at note

theorem consistent_append (consistent : Consistent sths) (sized : sth.treeSize ≠ 0)
    (agrees : ∀ other ∈ sths, other.treeSize = sth.treeSize → other = sth) : Consistent (sths ++ [sth]) := by
  simp only [Consistent, mem_append, mem_singleton]
  constructor
  · rintro other (member | rfl)
    · exact consistent.1 other member
    · exact sized
  · rintro first (member | rfl) second (otherMember | rfl) same
    · exact consistent.2 first member second otherMember same
    · exact agrees first member same
    · exact (agrees second otherMember same.symm).symm
    · rfl

theorem Chosen.step (before : Chosen covered sths chosen) (chose : selectTarget covered chosen sth = .ok next) :
    Chosen covered (sths ++ [sth]) next := by
  simp only [selectTarget, bind_eq_ok, reject_eq_ok, return_eq_ok] at chose
  obtain ⟨_, sized, seen, noted, rfl⟩ := chose
  obtain ⟨agrees, holds⟩ := (noteTarget_eq_ok before.consistent before.seen).1 seen noted
  refine ⟨consistent_append before.consistent sized agrees, holds, .inr ?_, ?_⟩
  · simp only [IsHighest, mem_append, mem_singleton]
    rcases before.highest with ⟨rfl, zero⟩ | ⟨member, largest⟩
    · simp [zero]
    · have positive := before.consistent.1 _ member
      split
      · refine ⟨.inr rfl, ?_⟩
        rintro other (member | rfl)
        · have := largest other member
          omega
        · exact le_rfl
      · refine ⟨.inl member, ?_⟩
        rintro other (member | rfl)
        · exact largest other member
        · omega
  · simp only [IsLowest, mem_append, mem_singleton]
    rcases before.start with ⟨below, zero⟩ | ⟨⟨member, above⟩, lowest⟩
    · by_cases above : covered < sth.treeSize
      · rw [if_pos ⟨above, .inl zero⟩]
        refine .inr ⟨⟨.inr rfl, above⟩, ?_⟩
        rintro other (member | rfl) otherAbove
        · have := below other member
          omega
        · exact le_rfl
      · rw [if_neg fun both => above both.1]
        refine .inl ⟨?_, zero⟩
        rintro other (member | rfl)
        · exact below other member
        · omega
    · have positive := before.consistent.1 _ member
      split
      · rename_i lower
        refine .inr ⟨⟨.inr rfl, lower.1⟩, ?_⟩
        rintro other (member | rfl) otherAbove
        · have := lowest other member otherAbove
          omega
        · exact le_rfl
      · refine .inr ⟨⟨.inl member, above⟩, ?_⟩
        rintro other (member | rfl) otherAbove
        · exact lowest other member otherAbove
        · omega

theorem Chosen.run {rest : List SignedTreeHead} (before : Chosen covered sths chosen) :
    (∀ next, rest.foldlM (selectTarget covered) chosen = .ok next → Chosen covered (sths ++ rest) next) ∧
      (Consistent (sths ++ rest) → ∃ next, rest.foldlM (selectTarget covered) chosen = .ok next) := by
  induction rest generalizing sths chosen with
  | nil =>
    refine ⟨fun next ended => ?_, fun _ => ⟨chosen, rfl⟩⟩
    cases ended
    rwa [append_nil]
  | cons sth rest ih =>
    rw [foldlM_cons]
    constructor
    · intro next ended
      obtain ⟨between, chose, ended⟩ := bind_eq_ok.mp ended
      simpa using (ih (before.step chose)).1 next ended
    · intro consistent
      have sized : sth.treeSize ≠ 0 := consistent.1 sth (by simp)
      have agrees : ∀ other ∈ sths, other.treeSize = sth.treeSize → other = sth := fun other member =>
        consistent.2 other (by simp [member]) sth (by simp)
      obtain ⟨noted, note⟩ := (noteTarget_eq_ok before.consistent before.seen).2 agrees
      have chose : ∃ between, selectTarget covered chosen sth = .ok between := by
        simp [selectTarget, reject_of_not sized, note]
      obtain ⟨between, chose⟩ := chose
      rw [chose]
      exact (ih (before.step chose)).2 (by simpa using consistent)

theorem selectPublicationTargets_eq_ok {start target} :
    selectPublicationTargets sths covered = .ok (start, target) ↔ Consistent sths ∧ IsHighest sths target ∧
      (IsLowest covered sths start ∨ (∀ sth ∈ sths, sth.treeSize ≤ covered) ∧ start = target) := by
  have pass := @Chosen.run covered [] .empty sths chosen_empty
  constructor
  · intro selected
    simp only [selectPublicationTargets, bind_eq_ok, reject_eq_ok, length_eq_zero_iff, return_eq_ok,
      Prod.mk.injEq] at selected
    obtain ⟨_, some_, chosen, ended, rfl, rfl⟩ := selected
    have all := pass.1 chosen ended
    refine ⟨all.consistent, all.highest.resolve_left fun empty => some_ empty.1, ?_⟩
    rcases all.start with ⟨below, zero⟩ | lowest
    · exact .inr ⟨below, if_pos zero⟩
    · rw [if_neg (all.consistent.1 _ lowest.1.1)]
      exact .inl lowest
  · rintro ⟨consistent, highest, lowest⟩
    obtain ⟨chosen, ended⟩ := pass.2 consistent
    have all := pass.1 chosen ended
    have some_ : sths ≠ [] := ne_nil_of_mem highest.1
    have own := all.highest.resolve_left fun empty => some_ empty.1
    have target_ : chosen.highest = target := consistent.2 _ own.1 _ highest.1
      (Nat.le_antisymm (highest.2 _ own.1) (own.2 _ highest.1))
    have start_ : (if chosen.windowStart.treeSize = 0 then chosen.highest else chosen.windowStart) = start := by
      rcases all.start with ⟨below, zero⟩ | found
      · rcases lowest with lowest | ⟨_, rfl⟩
        · exact absurd (below start lowest.1.1) (Nat.not_le_of_lt lowest.1.2)
        · rw [if_pos zero, target_]
      · rw [if_neg (consistent.1 _ found.1.1)]
        rcases lowest with lowest | ⟨below, _⟩
        · exact consistent.2 _ found.1.1 _ lowest.1.1
            (Nat.le_antisymm (found.2 _ lowest.1.1 lowest.1.2) (lowest.2 _ found.1.1 found.1.2))
        · exact absurd (below _ found.1.1) (Nat.not_le_of_lt found.1.2)
    have sized : ¬sths.length = 0 := by simpa using some_
    rw [selectPublicationTargets, reject_of_not sized, ok_bind, ended, ok_bind, start_, target_]
    rfl

end

/-- The answer depends on the set of the heads only: it is the highest head with the lowest uncovered one, or an error
if two heads of one size differ. -/
theorem publication_targets_canonical (sths others : List SignedTreeHead) (covered : Nat)
    (same : ∀ sth, sth ∈ sths ↔ sth ∈ others) :
    (selectPublicationTargets sths covered).toOption = (selectPublicationTargets others covered).toOption ∧
    (∀ start target, selectPublicationTargets sths covered = .ok (start, target) → IsHighest sths target ∧
      (IsLowest covered sths start ∨ (∀ sth ∈ sths, sth.treeSize ≤ covered) ∧ start = target)) ∧
    ∀ first ∈ sths, ∀ second ∈ sths, first.treeSize = second.treeSize → first ≠ second →
      (selectPublicationTargets sths covered).toOption = none := by
  refine ⟨Option.ext fun ⟨start, target⟩ => ?_,
    fun start target selected => (selectPublicationTargets_eq_ok.mp selected).2, ?_⟩
  · simp only [toOption_eq_some, selectPublicationTargets_eq_ok, Consistent, IsHighest, IsLowest, same]
  · intro first member second otherMember size different
    refine Option.eq_none_iff_forall_ne_some.mpr fun answer selected => ?_
    have consistent := (selectPublicationTargets_eq_ok.mp (toOption_eq_some.mp selected)).1
    exact different (consistent.2 first member second otherMember size)

/-- Three heads in another order and with one of them twice. -/
theorem publication_targets_canonical_sample :
    let head (treeSize : Nat) : SignedTreeHead := { (default : SignedTreeHead) with treeSize }
    (selectPublicationTargets [head 5, head 3, head 9] 3).toOption =
      (selectPublicationTargets [head 9, head 9, head 3, head 5] 3).toOption :=
  (publication_targets_canonical _ _ 3 fun sth => by simp only [List.mem_cons, List.not_mem_nil, or_false]; tauto).1

end TrustDB.AnchorSchedule
