import TrustDB.HashTree.Binding

/-!
The tree bracketed at the largest power of two, its prefixes, and consistency
proofs between a prefix and the whole. The proof generator and the verifier
recurse on the larger shape; the flag stays up while the smaller tree is still
a left spine of the larger one and its root need not be sent.
-/

namespace HashTree

open List

def rfcShapeAux : Nat → Nat → Shape
  | 0, _ => .leaf
  | fuel + 1, size =>
    if size < 2 then .leaf
    else .fork (rfcShapeAux fuel (split size)) (rfcShapeAux fuel (size - split size))

/-- Bracketing of `size` leaves with the largest complete tree on the left. -/
def rfcShape (size : Nat) : Shape := rfcShapeAux size size

theorem rfcShapeAux_fuel : ∀ fuel other size, size ≤ fuel → size ≤ other →
    rfcShapeAux fuel size = rfcShapeAux other size := by
  intro fuel
  induction fuel with
  | zero =>
    intro other size bound _
    have empty : size = 0 := by omega
    cases other <;> simp [rfcShapeAux, empty]
  | succ fuel ih =>
    intro other size bound otherBound
    cases other with
    | zero =>
      have empty : size = 0 := by omega
      simp [rfcShapeAux, empty]
    | succ other =>
      simp only [rfcShapeAux]
      split
      · rfl
      · have below : split size < size := split_lt (by omega)
        have positive := split_pos size
        rw [ih other (split size) (by omega) (by omega),
          ih other (size - split size) (by omega) (by omega)]

theorem rfcShape_small {size : Nat} (small : size < 2) : rfcShape size = .leaf := by
  cases size <;> simp [rfcShape, rfcShapeAux, small]

theorem rfcShape_split {size : Nat} (large : 2 ≤ size) :
    rfcShape size = .fork (rfcShape (split size)) (rfcShape (size - split size)) := by
  have below := split_lt large
  have positive := split_pos size
  obtain ⟨fuel, rfl⟩ : ∃ fuel, size = fuel + 1 := ⟨size - 1, by omega⟩
  simp only [rfcShape]
  rw [rfcShapeAux, if_neg (by omega),
    rfcShapeAux_fuel fuel (split (fuel + 1)) (split (fuel + 1)) (by omega) (by omega),
    rfcShapeAux_fuel fuel (fuel + 1 - split (fuel + 1)) (fuel + 1 - split (fuel + 1)) (by omega)
      (by omega)]

theorem rfcShape_size {size : Nat} (positive : 0 < size) : (rfcShape size).size = size := by
  induction size using Nat.strongRecOn with
  | ind size ih =>
    by_cases large : 2 ≤ size
    · have below := split_lt large
      have splitPos := split_pos size
      rw [rfcShape_split large, Shape.size, ih (split size) below splitPos,
        ih (size - split size) (by omega) (by omega)]
      omega
    · rw [rfcShape_small (by omega), Shape.size]
      omega

theorem rfcShape_two_pow_succ (level : Nat) :
    rfcShape (2 ^ (level + 1)) = .fork (rfcShape (2 ^ level)) (rfcShape (2 ^ level)) := by
  have positive := Nat.two_pow_pos level
  have double : 2 ^ (level + 1) = 2 * 2 ^ level := by rw [Nat.pow_succ]; omega
  rw [rfcShape_split (by omega), split_two_pow_succ, double]
  congr 2
  omega

/-- Root of the leaves in `[start, start + size)`, bracketed as in RFC 6962. -/
def rangeRoot {α : Type} (node : α → α → α) (leaves : Nat → α) (start size : Nat) : α :=
  (rfcShape size).root node leaves start

section

variable {α : Type} (node : α → α → α) (leaves : Nat → α)

@[simp] theorem rangeRoot_one (start : Nat) : rangeRoot node leaves start 1 = leaves start := by
  simp [rangeRoot, rfcShape_small, Shape.root]

theorem rangeRoot_split (start : Nat) {size} (large : 2 ≤ size) : rangeRoot node leaves start size =
      node (rangeRoot node leaves start (split size))
        (rangeRoot node leaves (start + split size) (size - split size)) := by
  rw [rangeRoot, rfcShape_split large, Shape.root, rfcShape_size (split_pos size)]
  rfl

theorem rangeRoot_two_pow_succ (start level : Nat) :
    rangeRoot node leaves start (2 ^ (level + 1)) = node (rangeRoot node leaves start (2 ^ level))
        (rangeRoot node leaves (start + 2 ^ level) (2 ^ level)) := by
  rw [rangeRoot, rfcShape_two_pow_succ, Shape.root, rfcShape_size (Nat.two_pow_pos level)]
  rfl

theorem rangeRoot_congr {first second start size} (positive : 0 < size)
    (same : ∀ index, start ≤ index → index < start + size → first index = second index) :
    rangeRoot node first start size = rangeRoot node second start size := by
  apply Shape.root_congr
  rw [rfcShape_size positive]
  exact same

end

namespace Shape

/-- Bracketing of the first `count` leaves. -/
def take : Shape → Nat → Shape
  | leaf, _ => leaf
  | fork left right, count =>
    if count ≤ left.size then left.take count else fork left (right.take (count - left.size))

theorem take_self (shape : Shape) : shape.take shape.size = shape := by
  induction shape with
  | leaf => rfl
  | fork left right _ ihRight =>
    have positive := right.size_pos
    have past : ¬left.size + right.size ≤ left.size := by omega
    simp [take, size, past, ihRight]

end Shape

theorem rfcShape_take {count size : Nat} (positive : 0 < count) (inside : count ≤ size) :
    (rfcShape size).take count = rfcShape count := by
  induction size using Nat.strongRecOn generalizing count with
  | ind size ih =>
    by_cases large : 2 ≤ size
    · have below := split_lt large
      have splitPos := split_pos size
      rw [rfcShape_split large, Shape.take, rfcShape_size splitPos]
      split
      · rename_i withinLeft
        exact ih (split size) below positive withinLeft
      · rename_i past
        rw [ih (size - split size) (by omega) (by omega) (by omega),
          rfcShape_split (by omega : 2 ≤ count), split_stable (by omega) inside]
    · rw [rfcShape_small (by omega : size < 2), rfcShape_small (by omega : count < 2),
        Shape.take]

namespace Shape

def consistencyPath {α : Type} (node : α → α → α) (leaves : Nat → α) :
    Shape → Nat → Nat → Bool → List α
  | leaf, start, _, complete => if complete then [] else [leaves start]
  | fork left right, start, count, complete =>
    if count = left.size + right.size then
      if complete then [] else [(fork left right).root node leaves start]
    else if count ≤ left.size then
      left.consistencyPath node leaves start count complete ++
        [right.root node leaves (start + left.size)]
    else
      right.consistencyPath node leaves (start + left.size) (count - left.size) false ++
        [left.root node leaves start]

theorem consistencyPath_size {α : Type} (node : α → α → α) (leaves : Nat → α) (shape : Shape)
    (start : Nat) (complete : Bool) :
    shape.consistencyPath node leaves start shape.size complete =
      if complete then [] else [shape.root node leaves start] := by
  cases shape with
  | leaf => rfl
  | fork left right => simp [consistencyPath, size]

theorem consistencyPath_congr {α : Type} (node : α → α → α) {first second} (shape : Shape) :
    ∀ start count complete,
      (∀ index, start ≤ index → index < start + shape.size → first index = second index) →
      shape.consistencyPath node first start count complete =
        shape.consistencyPath node second start count complete := by
  induction shape with
  | leaf =>
    intro start count complete same
    rw [consistencyPath, consistencyPath, same start (Nat.le_refl _) (by simp [size])]
  | fork left right ihLeft ihRight =>
    intro start count complete same
    simp only [size] at same
    have inLeft : ∀ index, start ≤ index → index < start + left.size → first index = second index :=
      fun index lower upper => same index lower (by omega)
    have inRight : ∀ index, start + left.size ≤ index →
        index < start + left.size + right.size → first index = second index :=
      fun index lower upper => same index (by omega) (by omega)
    simp only [consistencyPath, root, ihLeft start _ _ inLeft, ihRight _ _ _ inRight,
      root_congr node left start inLeft, root_congr node right _ inRight]

def sharedRoots {α β : Type} (decode : β → Option α) (oldRoot : α) (complete : Bool)
    (path : List β) : Option ((α × α) × List β) :=
  if complete then some ((oldRoot, oldRoot), path)
  else
    match path with
    | [] => none
    | first :: rest => (decode first).map fun value => ((value, value), rest)

/-- Recomputes the root of the first `count` leaves and the root of the whole from the
sizes, the claimed old root and the hashes a prover sent. -/
def consistencyRoots {α β : Type} (node : α → α → α) (decode : β → Option α) (oldRoot : α) :
    Shape → Nat → Bool → List β → Option ((α × α) × List β)
  | leaf, _, complete, path => sharedRoots decode oldRoot complete path
  | fork left right, count, complete, path =>
    if count = left.size + right.size then sharedRoots decode oldRoot complete path
    else if count ≤ left.size then
      match left.consistencyRoots node decode oldRoot count complete path with
      | some ((old, new), sibling :: rest) =>
        (decode sibling).map fun other => ((old, node new other), rest)
      | _ => none
    else
      match right.consistencyRoots node decode oldRoot (count - left.size) false path with
      | some ((old, new), sibling :: rest) =>
        (decode sibling).map fun other => ((node other old, node other new), rest)
      | _ => none

/-- The pairs that `consistencyRoots` hands to the node function. -/
def consistencyPairs {α β : Type} (node : α → α → α) (decode : β → Option α) (oldRoot : α) :
    Shape → Nat → Bool → List β → List (α × α)
  | leaf, _, _, _ => []
  | fork left right, count, complete, path =>
    if count = left.size + right.size then []
    else if count ≤ left.size then
      left.consistencyPairs node decode oldRoot count complete path ++
        match left.consistencyRoots node decode oldRoot count complete path with
        | some ((_, new), sibling :: _) =>
          ((decode sibling).map fun other => (new, other)).toList
        | _ => []
    else
      right.consistencyPairs node decode oldRoot (count - left.size) false path ++
        match right.consistencyRoots node decode oldRoot (count - left.size) false path with
        | some ((old, new), sibling :: _) =>
          ((decode sibling).map fun other => [(other, old), (other, new)]).getD []
        | _ => []

theorem consistencyRoots_path {α β : Type} (node : α → α → α) (decode : β → Option α) (encode : α → β)
    (decodes : ∀ value, decode (encode value) = some value) (leaves : Nat → α) (oldRoot : α) (shape : Shape) :
    ∀ start count complete rest, 0 < count → count ≤ shape.size →
      (complete = true → oldRoot = (shape.take count).root node leaves start) →
      shape.consistencyRoots node decode oldRoot count complete
          ((shape.consistencyPath node leaves start count complete).map encode ++ rest) =
        some (((shape.take count).root node leaves start, shape.root node leaves start), rest) := by
  induction shape with
  | leaf =>
    intro start count complete rest positive bound anchored
    cases complete with
    | true => simp [consistencyRoots, sharedRoots, consistencyPath, anchored rfl, take]
    | false => simp [consistencyRoots, sharedRoots, consistencyPath, decodes, take, root]
  | fork left right ihLeft ihRight =>
    intro start count complete rest positive bound anchored
    simp only [size] at bound
    by_cases whole : count = left.size + right.size
    · have self : (fork left right).take count = fork left right := by
        rw [whole]
        exact take_self (fork left right)
      cases complete with
      | true =>
        rw [self] at anchored ⊢
        simp [consistencyRoots, sharedRoots, consistencyPath, whole, anchored rfl]
      | false =>
        rw [self]
        simp [consistencyRoots, sharedRoots, consistencyPath, whole, decodes]
    · by_cases withinLeft : count ≤ left.size
      · have same : (fork left right).take count = left.take count := by simp [take, withinLeft]
        rw [same] at anchored ⊢
        have child := ihLeft start count complete
          (encode (right.root node leaves (start + left.size)) :: rest) positive withinLeft anchored
        simp only [consistencyRoots, consistencyPath, whole, withinLeft, ↓reduceIte,
          map_append, map_cons, map_nil, append_assoc, singleton_append, child, decodes, Option.map_some, root]
      · have child := ihRight (start + left.size) (count - left.size) false
          (encode (left.root node leaves start) :: rest) (by omega) (by omega) (by simp)
        simp only [consistencyRoots, consistencyPath, whole, withinLeft, ↓reduceIte,
          map_append, map_cons, map_nil, append_assoc,
          singleton_append, child, decodes, Option.map_some, root, take]

theorem leaves_eq_of_root_eq {α : Type} {node first second} (shape : Shape) : ∀ start,
      CollisionFree (fun pair : α × α => node pair.1 pair.2)
        (shape.rootPairs node first start ++ shape.rootPairs node second start) →
      shape.root node first start = shape.root node second start →
      ∀ index, start ≤ index → index < start + shape.size → first index = second index := by
  induction shape with
  | leaf =>
    intro start _ same index lower upper
    simp only [size] at upper
    have only : index = start := by omega
    simpa [root, only] using same
  | fork left right ihLeft ihRight =>
    intro start free same index lower upper
    simp only [size] at upper
    have samePair := free _ (mem_append_left _ (top_mem_rootPairs first left right start))
      _ (mem_append_right _ (top_mem_rootPairs second left right start)) same
    obtain ⟨sameLeft, sameRight⟩ := Prod.mk.inj samePair
    by_cases goesLeft : index < start + left.size
    · exact ihLeft start (free.mono (by simp [rootPairs]; grind)) sameLeft index lower goesLeft
    · exact ihRight (start + left.size) (free.mono (by simp [rootPairs]; grind)) sameRight index
        (by omega) (by omega)

section

variable {α β : Type} {node : α → α → α} {decode : β → Option α} {oldRoot : α}

theorem sharedRoots_eq {complete path rest old new}
    (found : sharedRoots decode oldRoot complete path = some ((old, new), rest)) : old = new := by
  unfold sharedRoots at found
  split at found
  · simp only [Option.some.injEq, Prod.mk.injEq] at found
    exact found.1.1.symm.trans found.1.2
  · split at found
    · simp at found
    · obtain ⟨value, _, same⟩ := Option.map_eq_some_iff.mp found
      simp only [Prod.mk.injEq] at same
      exact same.1.1.symm.trans same.1.2

theorem consistencyRoots_sound (first second : Nat → α) (shape : Shape) :
    ∀ start count complete (path rest : List β), 0 < count → count ≤ shape.size →
      CollisionFree (fun pair : α × α => node pair.1 pair.2)
        ((shape.take count).rootPairs node first start ++ shape.rootPairs node second start ++
          shape.consistencyPairs node decode oldRoot count complete path) →
      shape.consistencyRoots node decode oldRoot count complete path =
        some (((shape.take count).root node first start, shape.root node second start), rest) →
      ∀ index, start ≤ index → index < start + count → first index = second index := by
  induction shape with
  | leaf =>
    intro start count complete path rest positive bound _ found index lower upper
    simp only [size] at bound
    have only : index = start := by omega
    have same := sharedRoots_eq found
    simpa [root, take, only] using same
  | fork left right ihLeft ihRight =>
    intro start count complete path rest positive bound free found
    simp only [size] at bound
    by_cases whole : count = left.size + right.size
    · have self : (fork left right).take count = fork left right := by
        rw [whole]
        exact take_self (fork left right)
      rw [self] at found free
      simp only [consistencyRoots, whole, ↓reduceIte] at found
      rw [whole]
      exact leaves_eq_of_root_eq (fork left right) start
        (free.mono (subset_append_left _ _)) (sharedRoots_eq found)
    · by_cases withinLeft : count ≤ left.size
      · have same : (fork left right).take count = left.take count := by simp [take, withinLeft]
        rw [same] at found free
        simp only [consistencyRoots, whole, withinLeft, ↓reduceIte] at found
        split at found
        · rename_i old new sibling tail below
          obtain ⟨other, decoded, roots⟩ := Option.map_eq_some_iff.mp found
          simp only [Prod.mk.injEq] at roots
          obtain ⟨⟨oldEq, newEq⟩, rfl⟩ := roots
          have pairs : (fork left right).consistencyPairs node decode oldRoot count complete path =
              left.consistencyPairs node decode oldRoot count complete path ++ [(new, other)] := by
            simp [consistencyPairs, whole, withinLeft, below, decoded]
          rw [pairs] at free
          have samePair := free (new, other) (by simp) _
            (mem_append_left _ (mem_append_right _ (top_mem_rootPairs second left right start))) newEq
          rw [oldEq, (Prod.mk.inj samePair).1] at below
          exact ihLeft start count complete path (sibling :: tail) positive withinLeft
            (free.mono (by simp [rootPairs]; grind)) below
        · simp at found
      · have same : (fork left right).take count =
            fork left (right.take (count - left.size)) := by simp [take, withinLeft]
        rw [same] at found free
        simp only [consistencyRoots, whole, withinLeft, ↓reduceIte] at found
        split at found
        · rename_i old new sibling tail below
          obtain ⟨other, decoded, roots⟩ := Option.map_eq_some_iff.mp found
          simp only [Prod.mk.injEq] at roots
          obtain ⟨⟨oldEq, newEq⟩, rfl⟩ := roots
          have pairs : (fork left right).consistencyPairs node decode oldRoot count complete path =
              right.consistencyPairs node decode oldRoot (count - left.size) false path ++
                [(other, old), (other, new)] := by
            simp [consistencyPairs, whole, withinLeft, below, decoded]
          rw [pairs] at free
          -- the sibling sent is the left root of both trees
          have oldPair := free (other, old) (by simp) _
            (mem_append_left _ (mem_append_left _
              (top_mem_rootPairs first left (right.take (count - left.size)) start))) oldEq
          have newPair := free (other, new) (by simp) _
            (mem_append_left _ (mem_append_right _ (top_mem_rootPairs second left right start))) newEq
          rw [(Prod.mk.inj oldPair).2, (Prod.mk.inj newPair).2] at below
          have leftRoots : left.root node first start = left.root node second start :=
            (Prod.mk.inj oldPair).1.symm.trans (Prod.mk.inj newPair).1
          intro index lower upper
          by_cases goesLeft : index < start + left.size
          · exact leaves_eq_of_root_eq left start (free.mono (by simp [rootPairs]; grind))
              leftRoots index lower goesLeft
          · exact ihRight (start + left.size) (count - left.size) false path (sibling :: tail)
              (by omega) (by omega) (free.mono (by simp [rootPairs]; grind)) below index
              (by omega) (by omega)
        · simp at found

end

end Shape

end HashTree
