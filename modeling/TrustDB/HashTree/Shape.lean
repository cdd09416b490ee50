import TrustDB.HashTree.Split

/-!
Binary hash trees over an arbitrary node function. A `Shape` says how a run of
leaves is bracketed; roots, audit paths and the verifier that rebuilds a root
are structural recursions on it, so nothing here depends on how the shape was
chosen.
-/

namespace HashTree

open List

inductive Shape
  | leaf
  | fork (left right : Shape)
  deriving Repr, DecidableEq

namespace Shape

def size : Shape → Nat
  | leaf => 1
  | fork left right => left.size + right.size

theorem size_pos : ∀ shape : Shape, 0 < shape.size
  | leaf => Nat.one_pos
  | fork left _ => Nat.add_pos_left left.size_pos _

/-- Root of the leaves `start, …, start + size - 1`. -/
def root {α : Type} (node : α → α → α) (leaves : Nat → α) : Shape → Nat → α
  | leaf, start => leaves start
  | fork left right, start =>
    node (left.root node leaves start) (right.root node leaves (start + left.size))

/-- Sibling roots met between the leaf `start + index` and the root, leaf side first. -/
def auditPath {α : Type} (node : α → α → α) (leaves : Nat → α) : Shape → Nat → Nat → List α
  | leaf, _, _ => []
  | fork left right, start, index =>
    if index < left.size then
      left.auditPath node leaves start index ++ [right.root node leaves (start + left.size)]
    else
      right.auditPath node leaves (start + left.size) (index - left.size) ++
        [left.root node leaves start]

/-- Recomputes a root from one leaf and the siblings a prover sent. Siblings arrive
encoded; the first one that does not decode, or is missing, stops the run. -/
def rebuild {α β : Type} (node : α → α → α) (decode : β → Option α) (value : α) :
    Shape → Nat → List β → Option (α × List β)
  | leaf, _, path => some (value, path)
  | fork left right, index, path =>
    if index < left.size then
      match left.rebuild node decode value index path with
      | some (child, sibling :: rest) =>
        (decode sibling).map fun other => (node child other, rest)
      | _ => none
    else
      match right.rebuild node decode value (index - left.size) path with
      | some (child, sibling :: rest) =>
        (decode sibling).map fun other => (node other child, rest)
      | _ => none

/-- The pairs that `root` hands to the node function. -/
def rootPairs {α : Type} (node : α → α → α) (leaves : Nat → α) : Shape → Nat → List (α × α)
  | leaf, _ => []
  | fork left right, start =>
    left.rootPairs node leaves start ++ right.rootPairs node leaves (start + left.size) ++
      [(left.root node leaves start, right.root node leaves (start + left.size))]

/-- The pairs that `rebuild` hands to the node function. -/
def rebuildPairs {α β : Type} (node : α → α → α) (decode : β → Option α) (value : α) :
    Shape → Nat → List β → List (α × α)
  | leaf, _, _ => []
  | fork left right, index, path =>
    if index < left.size then
      left.rebuildPairs node decode value index path ++
        match left.rebuild node decode value index path with
        | some (child, sibling :: _) => ((decode sibling).map fun other => (child, other)).toList
        | _ => []
    else
      right.rebuildPairs node decode value (index - left.size) path ++
        match right.rebuild node decode value (index - left.size) path with
        | some (child, sibling :: _) => ((decode sibling).map fun other => (other, child)).toList
        | _ => []

theorem root_congr {α : Type} (node : α → α → α) {first second} (shape : Shape) :
    ∀ start, (∀ index, start ≤ index → index < start + shape.size → first index = second index) →
      shape.root node first start = shape.root node second start := by
  induction shape with
  | leaf =>
    intro start same
    exact same start (Nat.le_refl _) (by simp [size])
  | fork left right ihLeft ihRight =>
    intro start same
    simp only [size] at same
    simp only [root]
    rw [ihLeft start (fun index lower upper => same index lower (by omega)),
      ihRight (start + left.size) (fun index lower upper => same index (by omega) (by omega))]

theorem root_shift {α : Type} (node : α → α → α) (leaves : Nat → α) (offset : Nat) (shape : Shape) :
    ∀ start, shape.root node leaves (offset + start) =
      shape.root node (fun index => leaves (offset + index)) start := by
  induction shape with
  | leaf => intro start; rfl
  | fork left right ihLeft ihRight =>
    intro start
    simp only [root, Nat.add_assoc, ihLeft, ihRight]

theorem auditPath_congr {α : Type} (node : α → α → α) {first second} (shape : Shape) : ∀ start index,
      (∀ position, start ≤ position → position < start + shape.size → first position = second position) →
      shape.auditPath node first start index = shape.auditPath node second start index := by
  induction shape with
  | leaf => intros; rfl
  | fork left right ihLeft ihRight =>
    intro start index same
    simp only [size] at same
    have sameLeft (position : Nat) (lower : start ≤ position)
        (upper : position < start + left.size) : first position = second position :=
      same position lower (by omega)
    have sameRight (position : Nat) (lower : start + left.size ≤ position)
        (upper : position < start + left.size + right.size) :
        first position = second position := same position (by omega) (by omega)
    simp only [auditPath]
    rw [ihLeft start index sameLeft, ihRight (start + left.size) (index - left.size) sameRight,
      root_congr node left start sameLeft, root_congr node right (start + left.size) sameRight]

theorem rebuild_auditPath {α β : Type} (node : α → α → α) (decode : β → Option α) (encode : α → β)
    (decodes : ∀ value, decode (encode value) = some value) (leaves : Nat → α) (shape : Shape) :
    ∀ start index rest, index < shape.size → shape.rebuild node decode (leaves (start + index)) index
          ((shape.auditPath node leaves start index).map encode ++ rest) =
        some (shape.root node leaves start, rest) := by
  induction shape with
  | leaf =>
    intro start index rest bound
    have zero : index = 0 := by simpa [size] using bound
    simp [rebuild, auditPath, root, zero]
  | fork left right ihLeft ihRight =>
    intro start index rest bound
    simp only [size] at bound
    by_cases goesLeft : index < left.size
    · have child := ihLeft start index
        (encode (right.root node leaves (start + left.size)) :: rest) goesLeft
      simp only [rebuild, auditPath, goesLeft, ↓reduceIte, map_append, map_cons,
        map_nil, append_assoc, singleton_append, child, decodes, root, Option.map_some]
    · have position : start + left.size + (index - left.size) = start + index := by omega
      have child := ihRight (start + left.size) (index - left.size)
        (encode (left.root node leaves start) :: rest) (by omega)
      rw [position] at child
      simp only [rebuild, auditPath, goesLeft, ↓reduceIte, map_append, map_cons,
        map_nil, append_assoc, singleton_append, child, decodes, root, Option.map_some]

end Shape

def CollisionFree {ι α : Type} (hash : ι → α) (inputs : List ι) : Prop :=
  ∀ first ∈ inputs, ∀ second ∈ inputs, hash first = hash second → first = second

instance {ι α : Type} [DecidableEq ι] [DecidableEq α] (hash : ι → α) (inputs : List ι) :
    Decidable (CollisionFree hash inputs) :=
  inferInstanceAs (Decidable (∀ first ∈ inputs, ∀ second ∈ inputs,
    hash first = hash second → first = second))

theorem CollisionFree.mono {ι α : Type} {hash : ι → α} {smaller larger : List ι}
    (free : CollisionFree hash larger) (subset : smaller ⊆ larger) : CollisionFree hash smaller :=
  fun first firstMem second secondMem => free first (subset firstMem) second (subset secondMem)

end HashTree
