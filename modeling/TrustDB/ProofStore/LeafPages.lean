import TrustDB.Paging
import TrustDB.RecordIndex
import TrustDB.ProofStore.Pebble

/-!
The leaves of the global log in pages, in both stores, and the pages followed the way the HTTP
handler builds its next cursor. A cursor is a leaf index, and zero also stands for no cursor.
-/

namespace TrustDB

open Result List

namespace Model

structure GlobalLeafListOptions where
  limit : Int
  direction : RecordListDirection
  afterLeafIndex : Nat
  deriving Repr, DecidableEq

def uint64AfterCursor (value after : Nat) (direction : RecordListDirection) : Bool :=
  if after = 0 then true
  else
    match direction with
    | .asc => after < value
    | .desc => value < after

end Model

namespace ProofStore

open Model

def rootSortKeyWidth : Nat := 20

def normaliseRecordLimit (limit : Int) : Nat :=
  if limit ≤ 0 then 100 else if 1000 < limit then 1000 else limit.toNat

/-- `leaves` are the stored leaves as the iterator over their keys meets them. -/
def Pebble.listGlobalLeavesPage (leaves : List GlobalLogLeaf) (opts : GlobalLeafListOptions) : List GlobalLogLeaf :=
  let after := opts.afterLeafIndex
  let visited :=
    match opts.direction with
    | .desc => (if 0 < after then leaves.takeWhile fun leaf => leaf.leafIndex < after else leaves).reverse
    | .asc => if 0 < after then leaves.dropWhile fun leaf => leaf.leafIndex < after else leaves
  Paging.scan (normaliseRecordLimit opts.limit) (fun _ => false)
    (fun leaf => uint64AfterCursor leaf.leafIndex after opts.direction) [] visited

namespace Local

def readCommittedGlobalLeaf (stored : Nat → Option GlobalLogLeaf) (index : Nat) : Outcome GlobalLogLeaf :=
  match stored index with
  | none => .error (.new .dataLoss "committed global log leaf is missing")
  | some leaf =>
    if leaf.leafIndex ≠ index then .error (.new .dataLoss "global log leaf index does not match path") else .ok leaf

def leavesUpwards (stored : Nat → Option GlobalLogLeaf) (treeSize : Nat) :
    Nat → Nat → Outcome (List GlobalLogLeaf)
  | 0, _ => .ok []
  | room + 1, index =>
    if index < treeSize then do
      let leaf ← readCommittedGlobalLeaf stored index
      let others ← leavesUpwards stored treeSize room (index + 1)
      return leaf :: others
    else .ok []

def leavesDownwards (stored : Nat → Option GlobalLogLeaf) : Nat → Nat → Outcome (List GlobalLogLeaf)
  | 0, _ | _, 0 => .ok []
  | room + 1, index + 1 => do
    let leaf ← readCommittedGlobalLeaf stored index
    let others ← leavesDownwards stored room index
    return leaf :: others

def listCommittedGlobalLeavesPage (stored : Nat → Option GlobalLogLeaf) (treeSize : Nat)
    (opts : GlobalLeafListOptions) : Outcome (List GlobalLogLeaf) :=
  let after := opts.afterLeafIndex
  let limit := normaliseRecordLimit opts.limit
  match opts.direction with
  | .asc =>
    if after = 2 ^ 64 - 1 then .ok []
    else leavesUpwards stored treeSize limit (if 0 < after then after + 1 else 0)
  | .desc => leavesDownwards stored limit (if 0 < after ∧ after < treeSize then after else treeSize)

end Local

/-- A log: leaf `i` has the leaf index `i`. -/
structure GlobalLeaves where
  leaves : List GlobalLogLeaf
  numbered : leaves.map GlobalLogLeaf.leafIndex = List.range' 0 leaves.length
  fits : leaves.length ≤ 2 ^ 64

namespace GlobalLeaves

/-- `listGlobalLeaves` of the HTTP handler, from the first page to a short one. -/
def pages (log : GlobalLeaves) (direction : RecordListDirection) (limit fuel : Nat) : Option (List GlobalLogLeaf) :=
  Paging.follow (fun after => Pebble.listGlobalLeavesPage log.leaves { limit, direction, afterLeafIndex := after })
    GlobalLogLeaf.leafIndex limit fuel 0

def inOrder (log : GlobalLeaves) : RecordListDirection → List GlobalLogLeaf
  | .asc => log.leaves
  | .desc => log.leaves.reverse

/-- The leaves that a page is taken from. -/
def beyond (log : GlobalLeaves) (after : Nat) : RecordListDirection → List GlobalLogLeaf
  | .asc => if 0 < after then log.leaves.drop (after + 1) else log.leaves
  | .desc => (if 0 < after then log.leaves.take after else log.leaves).reverse

section Numbered

variable {leaves : List GlobalLogLeaf} {base after : Nat}

theorem numbered_cons {leaf}
    (numbered : (leaf :: leaves).map GlobalLogLeaf.leafIndex = range' base (leaf :: leaves).length) :
    leaf.leafIndex = base ∧ leaves.map GlobalLogLeaf.leafIndex = range' (base + 1) leaves.length := by
  simpa [range'_succ] using numbered

section

variable (numbered : leaves.map GlobalLogLeaf.leafIndex = range' base leaves.length)
include numbered

theorem filter_above :
    leaves.filter (fun leaf => after < leaf.leafIndex) = leaves.drop (after + 1 - base) := by
  induction leaves generalizing base with
  | nil => simp
  | cons leaf rest ih =>
    obtain ⟨own, others⟩ := numbered_cons numbered
    rw [filter_cons, own, ih others]
    by_cases below : after < base
    · have first : after + 1 - base = 0 := by omega
      have next : after + 1 - (base + 1) = 0 := by omega
      simp [below, first, next]
    · have next : after + 1 - base = after + 1 - (base + 1) + 1 := by omega
      simp [below, next]

theorem takeWhile_below :
    leaves.takeWhile (fun leaf => leaf.leafIndex < after) = leaves.take (after - base) := by
  induction leaves generalizing base with
  | nil => simp
  | cons leaf rest ih =>
    obtain ⟨own, others⟩ := numbered_cons numbered
    rw [takeWhile_cons, own, ih others]
    by_cases below : base < after
    · have next : after - base = after - (base + 1) + 1 := by omega
      simp [below, next]
    · have none : after - base = 0 := by omega
      simp [below, none]

end

theorem filter_dropWhile (leaves : List GlobalLogLeaf) :
    (leaves.dropWhile fun leaf => leaf.leafIndex < after).filter (fun leaf => after < leaf.leafIndex) =
      leaves.filter fun leaf => after < leaf.leafIndex := by
  induction leaves with
  | nil => rfl
  | cons leaf rest ih =>
    by_cases below : leaf.leafIndex < after
    · have notAbove : ¬after < leaf.leafIndex := by omega
      simp [below, notAbove, ih]
    · simp [below]

end Numbered

variable (log : GlobalLeaves) {limit : Nat}

theorem pebble_page (opts : GlobalLeafListOptions) : Pebble.listGlobalLeavesPage log.leaves opts =
    (log.beyond opts.afterLeafIndex opts.direction).take (normaliseRecordLimit opts.limit) := by
  unfold Pebble.listGlobalLeavesPage
  rw [Paging.scan_eq _ _ _ _ _ (Nat.zero_le _)]
  have all (visited : List GlobalLogLeaf) : visited.takeWhile (fun _ => !false) = visited := by simp
  rw [all, nil_append, length_nil, Nat.sub_zero]
  congr 1
  by_cases zero : opts.afterLeafIndex = 0
  · cases direction : opts.direction <;> simp [beyond, zero, uint64AfterCursor]
  · have positive : 0 < opts.afterLeafIndex := by omega
    cases direction : opts.direction with
    | asc =>
      simp only [beyond, positive, zero, if_true, if_false, uint64AfterCursor]
      rw [filter_dropWhile, filter_above log.numbered, Nat.sub_zero]
    | desc =>
      simp only [beyond, positive, zero, if_true, if_false, uint64AfterCursor]
      rw [filter_reverse]
      congr 1
      have kept : ∀ leaf ∈ log.leaves.takeWhile (fun leaf => leaf.leafIndex < opts.afterLeafIndex),
          decide (leaf.leafIndex < opts.afterLeafIndex) = true := fun _ member =>
        mem_takeWhile_imp (p := fun leaf : GlobalLogLeaf => decide (leaf.leafIndex < opts.afterLeafIndex)) member
      rw [filter_eq_self.mpr kept, takeWhile_below log.numbered, Nat.sub_zero]

theorem normalise_eq (positive : 0 < limit) (bounded : limit ≤ 1000) : normaliseRecordLimit limit = limit := by
  unfold normaliseRecordLimit
  rw [if_neg (by omega), if_neg (by omega), Int.toNat_natCast]

theorem index_eq {index : Nat} {leaf : GlobalLogLeaf} (found : log.leaves[index]? = some leaf) :
    leaf.leafIndex = index := by
  obtain ⟨inside, -⟩ := List.getElem?_eq_some_iff.mp found
  have named : (log.leaves.map GlobalLogLeaf.leafIndex)[index]? = some index := by
    rw [log.numbered, List.getElem?_range' inside, Nat.zero_add, Nat.one_mul]
  simpa [found] using named

theorem read_eq {index : Nat} (inside : index < log.leaves.length) :
    Local.readCommittedGlobalLeaf (log.leaves[·]?) index = .ok log.leaves[index] := by
  have own := log.index_eq (getElem?_eq_getElem inside)
  simp [Local.readCommittedGlobalLeaf, getElem?_eq_getElem inside, own]

theorem upwards_eq (room index : Nat) :
    Local.leavesUpwards (log.leaves[·]?) log.leaves.length room index = .ok ((log.leaves.drop index).take room) := by
  induction room generalizing index with
  | zero => simp [Local.leavesUpwards]
  | succ room ih =>
    unfold Local.leavesUpwards
    by_cases inside : index < log.leaves.length
    · rw [if_pos inside, log.read_eq inside, ih, drop_eq_getElem_cons inside]
      rfl
    · rw [if_neg inside, drop_of_length_le (by omega), take_nil]

theorem downwards_eq (room : Nat) {index : Nat} (inside : index ≤ log.leaves.length) :
    Local.leavesDownwards (log.leaves[·]?) room index = .ok ((log.leaves.take index).reverse.take room) := by
  induction room generalizing index with
  | zero => simp [Local.leavesDownwards]
  | succ room ih =>
    cases index with
    | zero => simp [Local.leavesDownwards]
    | succ index =>
      rw [Local.leavesDownwards, log.read_eq inside, ih (by omega), take_succ_eq_append_getElem inside,
        reverse_append]
      rfl

theorem local_page (opts : GlobalLeafListOptions) :
    Local.listCommittedGlobalLeavesPage (log.leaves[·]?) log.leaves.length opts =
      .ok (Pebble.listGlobalLeavesPage log.leaves opts) := by
  rw [log.pebble_page]
  unfold Local.listCommittedGlobalLeavesPage
  have fits := log.fits
  cases opts.direction with
  | asc =>
    by_cases last : opts.afterLeafIndex = 2 ^ 64 - 1
    · have none : log.leaves.drop (opts.afterLeafIndex + 1) = [] := drop_of_length_le (by omega)
      have positive : 0 < opts.afterLeafIndex := by omega
      simp only [beyond, if_pos last, if_pos positive, none, take_nil]
    · simp only [beyond, if_neg last, log.upwards_eq]
      split <;> rfl
  | desc =>
    by_cases positive : 0 < opts.afterLeafIndex
    · by_cases inside : opts.afterLeafIndex < log.leaves.length
      · simp [beyond, positive, inside, log.downwards_eq _ (Nat.le_of_lt inside)]
      · have whole : log.leaves.take opts.afterLeafIndex = log.leaves := take_of_length_le (by omega)
        simp [beyond, positive, inside, whole, log.downwards_eq _ (le_rfl)]
    · simp [beyond, positive, log.downwards_eq _ (le_rfl)]

theorem pages_complete (positive : 0 < limit) (bounded : limit ≤ 1000) (direction : RecordListDirection)
    (good : log.leaves = [] ∨ (direction = .asc ∧ 2 ≤ limit) ∨ (direction = .desc ∧ ¬limit ∣ log.leaves.length)) :
    ∃ fuel, log.pages direction limit fuel = some (log.inOrder direction) := by
  apply Paging.follow_eq_some positive
  intro front rest cursor split whole at_
  rw [log.pebble_page, normalise_eq positive bounded]
  congr 1
  rcases at_ with ⟨rfl, rfl⟩ | ⟨last, found, rfl⟩
  · cases direction <;> simpa [beyond, inOrder] using split
  · have long : limit ≤ front.length := Nat.le_of_dvd (by cases front <;> simp_all) whole
    cases direction with
    | asc =>
      have leaves : log.leaves = front ++ rest := split
      have own : last.leafIndex = front.length - 1 := log.index_eq (by
        rw [leaves, getElem?_append_left (by omega), ← getLast?_eq_getElem?]
        exact found)
      have several : 0 < last.leafIndex := by
        rcases good with empty | ⟨-, two⟩ | ⟨other, -⟩
        · simp_all
        · omega
        · cases other
      have next : last.leafIndex + 1 = front.length := by omega
      simp [beyond, several, next, leaves]
    | desc =>
      have leaves : log.leaves = rest.reverse ++ front.reverse := by
        rw [← reverse_append, ← split]
        exact (reverse_reverse _).symm
      have own : last.leafIndex = rest.length := log.index_eq (by
        rw [leaves, getElem?_append_right (by simp), length_reverse, Nat.sub_self,
          ← head?_eq_getElem?, head?_reverse]
        exact found)
      have several : 0 < last.leafIndex := by
        rcases good with empty | ⟨other, -⟩ | ⟨-, odd⟩
        · simp_all
        · cases other
        · rw [own]
          by_contra none
          rw [leaves, length_append, length_reverse, length_reverse] at odd
          exact odd (by rwa [show rest.length = 0 by omega, Nat.zero_add])
      have next : rest.reverse.length = last.leafIndex := by rw [own, length_reverse]
      rw [beyond, if_pos several, leaves, ← next, take_left, reverse_reverse]

theorem pages_endless (positive : 0 < limit) (bounded : limit ≤ 1000) (direction : RecordListDirection)
    (nonempty : log.leaves ≠ []) (bad : (direction = .asc ∧ limit = 1) ∨
      (direction = .desc ∧ limit ∣ log.leaves.length)) (fuel : Nat) : log.pages direction limit fuel = none := by
  have some_ : 0 < log.leaves.length := length_pos_iff.mpr nonempty
  rcases bad with ⟨rfl, rfl⟩ | ⟨rfl, whole⟩
  · apply Paging.follow_eq_none (· = 0) rfl
    rintro _ rfl
    rw [log.pebble_page, normalise_eq positive bounded]
    refine ⟨by simp [beyond]; omega, log.leaves[0], by
      simp [beyond, take_one, head?_eq_getElem?, getElem?_eq_getElem some_], ?_⟩
    exact log.index_eq (getElem?_eq_getElem some_)
  · -- The cursor counts the leaves that are left, and none left is read as no cursor.
    apply Paging.follow_eq_none (fun cursor => limit ∣ cursor ∧ cursor ≤ log.leaves.length) ⟨Nat.dvd_zero _, by omega⟩
    rintro cursor ⟨part, inside⟩
    rw [log.pebble_page, normalise_eq positive bounded]
    obtain ⟨left, divides, above, below, same⟩ : ∃ left, limit ∣ left ∧ 0 < left ∧ left ≤ log.leaves.length ∧
        log.beyond cursor .desc = (log.leaves.take left).reverse := by
      by_cases zero : 0 < cursor
      · exact ⟨cursor, part, zero, inside, by simp [beyond, zero]⟩
      · exact ⟨_, whole, some_, le_rfl, by simp [beyond, zero]⟩
    have long := Nat.le_of_dvd above divides
    have length : (log.leaves.take left).length = left := by
      rw [length_take]
      omega
    simp only [same, take_reverse, length]
    refine ⟨by simp; omega, log.leaves[left - limit], ?_, ?_⟩
    · rw [getLast?_reverse, head?_drop, getElem?_take, if_pos (by omega)]
      exact getElem?_eq_getElem (by omega)
    · have own := log.index_eq (getElem?_eq_getElem (show left - limit < log.leaves.length by omega))
      rw [own]
      exact ⟨Nat.dvd_sub divides (Nat.dvd_refl limit), by omega⟩

end GlobalLeaves

/-- Following the pages lists every leaf once and in order, unless a full page ends at the leaf with
index zero: its cursor means no cursor, and the listing begins again. The file store serves the same
pages. -/
theorem leaf_pages_complete_iff (log : GlobalLeaves) (direction : RecordListDirection) {limit : Nat}
    (handled : 0 < limit ∧ limit ≤ 1000) :
    ((∃ fuel, log.pages direction limit fuel = some (log.inOrder direction)) ↔
      log.leaves = [] ∨ (direction = .asc ∧ 2 ≤ limit) ∨ (direction = .desc ∧ ¬limit ∣ log.leaves.length)) ∧
    ∀ opts, Local.listCommittedGlobalLeavesPage (log.leaves[·]?) log.leaves.length opts =
      .ok (Pebble.listGlobalLeavesPage log.leaves opts) := by
  obtain ⟨positive, bounded⟩ := handled
  refine ⟨⟨?_, log.pages_complete positive bounded direction⟩, log.local_page⟩
  rintro ⟨fuel, listed⟩
  by_contra bad
  have endless := log.pages_endless positive bounded direction (fun empty => bad (.inl empty)) (by
    cases direction with
    | asc =>
      left
      refine ⟨rfl, ?_⟩
      by_contra several
      exact bad (.inr (.inl ⟨rfl, by omega⟩))
    | desc =>
      right
      refine ⟨rfl, ?_⟩
      by_contra odd
      exact bad (.inr (.inr ⟨rfl, odd⟩))) fuel
  rw [endless] at listed
  cases listed

namespace Sample

def twoLeaves : GlobalLeaves where
  leaves := [{ (default : GlobalLogLeaf) with leafIndex := 0 }, { (default : GlobalLogLeaf) with leafIndex := 1 }]
  numbered := rfl
  fits := by decide

end Sample

open Sample

theorem leaf_pages_complete_iff_sample :
    ∃ fuel, Sample.twoLeaves.pages .asc 2 fuel = some Sample.twoLeaves.leaves :=
  (leaf_pages_complete_iff Sample.twoLeaves .asc (by decide)).1.mpr (.inr (.inl ⟨rfl, by decide⟩))

theorem first_leaf_alone_never_ends :
    (∀ fuel, Sample.twoLeaves.pages .asc 1 fuel = none) ∧ ∀ fuel, Sample.twoLeaves.pages .desc 2 fuel = none :=
  ⟨Sample.twoLeaves.pages_endless (by decide) (by decide) .asc nofun (.inl ⟨rfl, rfl⟩),
    Sample.twoLeaves.pages_endless (by decide) (by decide) .desc nofun (.inr ⟨rfl, by decide⟩)⟩

end ProofStore

end TrustDB
