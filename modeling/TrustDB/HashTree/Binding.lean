import TrustDB.HashTree.Shape

/-!
What an accepted path says about the committed leaves. Both results are relative
to the pairs actually hashed by the two runs, never to a globally injective node
function, which no fixed-width digest has.
-/

namespace HashTree.Shape

open List

section

variable {α β : Type} {node : α → α → α} {decode : β → Option α}

theorem rebuild_left {value result left right index path rest} (goesLeft : index < left.size)
    (rebuilt : (fork left right).rebuild node decode value index path = some (result, rest)) :
    ∃ child sibling other,
      left.rebuild node decode value index path = some (child, sibling :: rest) ∧
        decode sibling = some other ∧ result = node child other ∧
          (fork left right).rebuildPairs node decode value index path =
            left.rebuildPairs node decode value index path ++ [(child, other)] := by
  simp only [rebuild, goesLeft, ↓reduceIte] at rebuilt
  split at rebuilt
  · rename_i child sibling tail found
    obtain ⟨other, decoded, same⟩ := Option.map_eq_some_iff.mp rebuilt
    cases same
    refine ⟨child, sibling, other, found, decoded, rfl, ?_⟩
    simp [rebuildPairs, goesLeft, found, decoded]
  · simp at rebuilt

theorem rebuild_right {value result left right index path rest} (goesRight : ¬index < left.size)
    (rebuilt : (fork left right).rebuild node decode value index path = some (result, rest)) :
    ∃ child sibling other,
      right.rebuild node decode value (index - left.size) path = some (child, sibling :: rest) ∧
        decode sibling = some other ∧ result = node other child ∧
          (fork left right).rebuildPairs node decode value index path =
            right.rebuildPairs node decode value (index - left.size) path ++ [(other, child)] := by
  simp only [rebuild, goesRight, ↓reduceIte] at rebuilt
  split at rebuilt
  · rename_i child sibling tail found
    obtain ⟨other, decoded, same⟩ := Option.map_eq_some_iff.mp rebuilt
    cases same
    refine ⟨child, sibling, other, found, decoded, rfl, ?_⟩
    simp [rebuildPairs, goesRight, found, decoded]
  · simp at rebuilt

/-- The root of a tree of this shape with `value` at the given position. Of the other subtrees
only their roots are known. -/
inductive Opens (node : α → α → α) : Shape → Nat → α → α → Prop
  | leaf (value : α) : Opens node leaf 0 value value
  | left {left : Shape} {index : Nat} {value child : α} (right : Shape) (sibling : α) :
      Opens node left index value child → Opens node (fork left right) index value (node child sibling)
  | right {right : Shape} {index : Nat} {value child : α} (left : Shape) (sibling : α) :
      Opens node right index value child →
        Opens node (fork left right) (left.size + index) value (node sibling child)

theorem opens_of_rebuild {value : α} (shape : Shape) : ∀ index (path rest : List β) root,
    index < shape.size → shape.rebuild node decode value index path = some (root, rest) →
      Opens node shape index value root := by
  induction shape with
  | leaf =>
    intro index path rest root inside rebuilt
    obtain rfl : index = 0 := by simpa [size] using inside
    simp only [rebuild, Option.some.injEq, Prod.mk.injEq] at rebuilt
    rw [← rebuilt.1]
    exact .leaf value
  | fork left right ihLeft ihRight =>
    intro index path rest root inside rebuilt
    simp only [size] at inside
    by_cases goesLeft : index < left.size
    · obtain ⟨child, sibling, other, below, _, rfl, _⟩ := rebuild_left goesLeft rebuilt
      exact .left right other (ihLeft index path _ child goesLeft below)
    · obtain ⟨child, sibling, other, below, _, rfl, _⟩ := rebuild_right goesLeft rebuilt
      have opened := ihRight (index - left.size) path _ child (by omega) below
      have position : left.size + (index - left.size) = index := by omega
      exact position ▸ .right left other opened

theorem top_mem_rootPairs (leaves : Nat → α) (left right : Shape) (start : Nat) :
    (left.root node leaves start, right.root node leaves (start + left.size)) ∈
      (fork left right).rootPairs node leaves start := by
  simp [rootPairs]

/-- Against a root of the same shape, only the committed leaf with its own audit path
is accepted: no other leaf, and no longer, shorter or reordered path. -/
theorem rebuild_unique (leaves : Nat → α) (value : α) (shape : Shape) :
    ∀ start index (path rest : List β), index < shape.size →
      CollisionFree (fun pair : α × α => node pair.1 pair.2)
        (shape.rootPairs node leaves start ++ shape.rebuildPairs node decode value index path) →
      shape.rebuild node decode value index path = some (shape.root node leaves start, rest) →
      value = leaves (start + index) ∧
        ∃ used, path = used ++ rest ∧
          used.map decode = (shape.auditPath node leaves start index).map some := by
  induction shape with
  | leaf =>
    intro start index path rest bound _ rebuilt
    have zero : index = 0 := by simpa [size] using bound
    simp only [rebuild, root, Option.some.injEq, Prod.mk.injEq] at rebuilt
    refine ⟨by simpa [zero] using rebuilt.1, [], by simpa using rebuilt.2, ?_⟩
    simp [auditPath]
  | fork left right ihLeft ihRight =>
    intro start index path rest bound free rebuilt
    simp only [size] at bound
    by_cases goesLeft : index < left.size
    · obtain ⟨child, sibling, other, below, decoded, equal, pairs⟩ :=
        rebuild_left goesLeft rebuilt
      -- the rebuilt top pair and the committed one hash alike, so they are the same pair
      have samePair := free _ (mem_append_left _ (top_mem_rootPairs leaves left right start))
        (child, other) (by simp [pairs]) equal
      obtain ⟨sameChild, sameOther⟩ := Prod.mk.inj samePair
      rw [← sameChild] at below
      obtain ⟨value_eq, used, path_eq, used_eq⟩ := ihLeft start index path (sibling :: rest)
        goesLeft (free.mono (by simp [rootPairs, pairs]; grind)) below
      refine ⟨value_eq, used ++ [sibling], by simp [path_eq], ?_⟩
      simp [auditPath, goesLeft, used_eq, decoded, sameOther]
    · obtain ⟨child, sibling, other, below, decoded, equal, pairs⟩ :=
        rebuild_right goesLeft rebuilt
      have samePair := free _ (mem_append_left _ (top_mem_rootPairs leaves left right start))
        (other, child) (by simp [pairs]) equal
      obtain ⟨sameOther, sameChild⟩ := Prod.mk.inj samePair
      rw [← sameChild] at below
      obtain ⟨value_eq, used, path_eq, used_eq⟩ := ihRight (start + left.size)
        (index - left.size) path (sibling :: rest) (by omega)
        (free.mono (by simp [rootPairs, pairs]; grind)) below
      have position : start + left.size + (index - left.size) = start + index := by omega
      refine ⟨by rw [value_eq, position], used ++ [sibling], by simp [path_eq], ?_⟩
      simp [auditPath, goesLeft, used_eq, decoded, sameOther]

/-- A path accepted for a claimed shape that need not be the committed one still starts at
a committed leaf, as long as no leaf value is the image of a hashed pair. -/
theorem rebuild_committed (leaves : Nat → α) (value : α) (claimed : Shape) :
    ∀ (shape : Shape) start index (path rest : List β), index < claimed.size →
      CollisionFree (fun pair : α × α => node pair.1 pair.2)
        (shape.rootPairs node leaves start ++ claimed.rebuildPairs node decode value index path) →
      (∀ pair ∈ shape.rootPairs node leaves start ++ claimed.rebuildPairs node decode value index path,
        node pair.1 pair.2 ≠ value ∧ ∀ position, start ≤ position → position < start + shape.size →
            node pair.1 pair.2 ≠ leaves position) →
      claimed.rebuild node decode value index path = some (shape.root node leaves start, rest) →
      ∃ position, start ≤ position ∧ position < start + shape.size ∧ value = leaves position := by
  induction claimed with
  | leaf =>
    intro shape start index path rest _ _ separated rebuilt
    simp only [rebuild, Option.some.injEq, Prod.mk.injEq] at rebuilt
    cases shape with
    | leaf => exact ⟨start, Nat.le_refl _, by simp [size], rebuilt.1⟩
    | fork left right =>
      -- a leaf value cannot be an inner node of the committed tree
      have apart := separated _ (mem_append_left _ (top_mem_rootPairs leaves left right start))
      exact absurd rebuilt.1.symm apart.1
  | fork left right ihLeft ihRight =>
    intro shape start index path rest bound free separated rebuilt
    simp only [size] at bound
    by_cases goesLeft : index < left.size
    · obtain ⟨child, sibling, other, below, _, equal, pairs⟩ := rebuild_left goesLeft rebuilt
      have top : (child, other) ∈ (fork left right).rebuildPairs node decode value index path := by
        simp [pairs]
      cases shape with
      | leaf =>
        have apart := (separated _ (mem_append_right _ top)).2 start (Nat.le_refl _)
          (by simp [size])
        exact absurd equal.symm apart
      | fork committedLeft committedRight =>
        have samePair := free _
          (mem_append_left _ (top_mem_rootPairs leaves committedLeft committedRight start))
          (child, other) (mem_append_right _ top) equal
        rw [← (Prod.mk.inj samePair).1] at below
        have subset : committedLeft.rootPairs node leaves start ++
            left.rebuildPairs node decode value index path ⊆
            (fork committedLeft committedRight).rootPairs node leaves start ++
              (fork left right).rebuildPairs node decode value index path := by
          simp [rootPairs, pairs]; grind
        obtain ⟨position, lower, upper, found⟩ := ihLeft committedLeft start index path
          (sibling :: rest) goesLeft (free.mono subset)
          (fun pair member => ⟨(separated pair (subset member)).1, fun place low high =>
            (separated pair (subset member)).2 place low (by simp only [size]; omega)⟩) below
        exact ⟨position, lower, by simp only [size]; omega, found⟩
    · obtain ⟨child, sibling, other, below, _, equal, pairs⟩ := rebuild_right goesLeft rebuilt
      have top : (other, child) ∈ (fork left right).rebuildPairs node decode value index path := by
        simp [pairs]
      cases shape with
      | leaf =>
        have apart := (separated _ (mem_append_right _ top)).2 start (Nat.le_refl _)
          (by simp [size])
        exact absurd equal.symm apart
      | fork committedLeft committedRight =>
        have samePair := free _
          (mem_append_left _ (top_mem_rootPairs leaves committedLeft committedRight start))
          (other, child) (mem_append_right _ top) equal
        rw [← (Prod.mk.inj samePair).2] at below
        have subset : committedRight.rootPairs node leaves (start + committedLeft.size) ++
            right.rebuildPairs node decode value (index - left.size) path ⊆
            (fork committedLeft committedRight).rootPairs node leaves start ++
              (fork left right).rebuildPairs node decode value index path := by
          simp [rootPairs, pairs]; grind
        obtain ⟨position, lower, upper, found⟩ := ihRight committedRight
          (start + committedLeft.size) (index - left.size) path (sibling :: rest) (by omega)
          (free.mono subset)
          (fun pair member => ⟨(separated pair (subset member)).1, fun place low high =>
            (separated pair (subset member)).2 place (by omega) (by simp only [size]; omega)⟩)
          below
        exact ⟨position, by omega, by simp only [size]; omega, found⟩

end

end HashTree.Shape
