import Mathlib

/-!
Hash chains: every entry names the digest of the one before it. The digest of the last entry then
stands for all of them, as far back as the chain is kept.
-/

namespace HashChain

open List

variable {ρ δ κ : Type} {digest prev : ρ → δ} {view : ρ → κ}

def Linked (digest prev : ρ → δ) (entries : List ρ) : Prop :=
  entries.IsChain fun earlier later => prev later = digest earlier

theorem Linked.front {entries last} (linked : Linked digest prev (entries ++ [last])) :
    Linked digest prev entries ∧ ∀ before, entries.getLast? = some before → prev last = digest before := by
  obtain ⟨front, -, joint⟩ := isChain_append.mp linked
  exact ⟨front, fun before found => joint before found last rfl⟩

theorem Linked.suffix {first second} (binds : ∀ entry ∈ first, ∀ other ∈ second, digest entry = digest other →
      view entry = view other ∧ prev entry = prev other) (linked : Linked digest prev first)
    (otherLinked : Linked digest prev second) (last : first.getLast?.map digest = second.getLast?.map digest)
    (shorter : first.length ≤ second.length) : first.map view <:+ second.map view := by
  induction first using reverseRecOn generalizing second with
  | nil => exact nil_suffix
  | append_singleton front entry ih =>
    cases second using reverseRecOn with
    | nil =>
      rw [length_append, length_singleton, length_nil] at shorter
      omega
    | append_singleton otherFront other =>
      rw [getLast?_concat, getLast?_concat, Option.map_some, Option.map_some, Option.some.injEq] at last
      obtain ⟨views, prevs⟩ := binds entry (by simp) other (by simp) last
      obtain ⟨frontLinked, joint⟩ := linked.front
      obtain ⟨otherFrontLinked, otherJoint⟩ := otherLinked.front
      rw [length_append, length_append, length_singleton, length_singleton] at shorter
      have earlier : front.map view <:+ otherFront.map view := by
        rcases eq_nil_or_concat' front with rfl | ⟨rest, before, rfl⟩
        · exact nil_suffix
        · obtain ⟨otherRest, otherBefore, rfl⟩ : ∃ rest before, otherFront = rest ++ [before] := by
            rcases eq_nil_or_concat' otherFront with rfl | found
            · simp at shorter
            · exact found
          refine ih (fun one member two otherMember => binds one (mem_append_left _ member) two
              (mem_append_left _ otherMember))
            frontLinked otherFrontLinked ?_ (by omega)
          rw [getLast?_concat, getLast?_concat, Option.map_some, Option.map_some,
            ← joint before getLast?_concat, ← otherJoint otherBefore getLast?_concat, prevs]
      obtain ⟨longer, whole⟩ := earlier
      refine ⟨longer, ?_⟩
      rw [map_append, map_append, ← append_assoc, whole, map_singleton, map_singleton, views]

end HashChain
