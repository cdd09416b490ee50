import Mathlib

/-!
Trees built level by level from groups of neighbours, a last node alone. A path lists, for each
level, the whole group that the node stands in; the position inside the groups is the index.
-/

namespace HashTree.Paired

open List

section

variable {α : Type}

def pairUp : List α → List (List α)
  | [] => []
  | [last] => [[last]]
  | left :: right :: rest => [left, right] :: pairUp rest

theorem pairUp_length (level : List α) : (pairUp level).length = (level.length + 1) / 2 := by
  induction level using pairUp.induct with
  | case1 => simp [pairUp]
  | case2 last => simp [pairUp]
  | case3 left right rest ih =>
    simp only [pairUp, length_cons, ih]
    omega

theorem pairUp_flatten (level : List α) : (pairUp level).flatten = level := by
  induction level using pairUp.induct with
  | case1 => rfl
  | case2 last => rfl
  | case3 left right rest ih => simp [pairUp, ih]

theorem mem_of_mem_pairUp {level group : List α} {node : α} (member : group ∈ pairUp level)
    (inside : node ∈ group) : node ∈ level := by
  rw [← pairUp_flatten level]
  exact mem_flatten_of_mem member inside

theorem pairUp_width {level group : List α} (member : group ∈ pairUp level) :
    0 < group.length ∧ group.length ≤ 2 := by
  induction level using pairUp.induct with
  | case1 => simp [pairUp] at member
  | case2 last =>
    obtain rfl : group = [last] := by simpa [pairUp] using member
    simp
  | case3 left right rest ih =>
    rcases mem_cons.mp member with rfl | later
    · simp
    · exact ih later

theorem pairUp_getElem? {level group : List α} {index place : Nat} (small : place < 2)
    (found : (pairUp level)[index]? = some group) : group[place]? = level[2 * index + place]? := by
  induction level using pairUp.induct generalizing index with
  | case1 => simp [pairUp] at found
  | case2 last =>
    cases index with
    | zero =>
      obtain rfl : [last] = group := by simpa [pairUp] using found
      simp
    | succ index => simp [pairUp] at found
  | case3 left right rest ih =>
    cases index with
    | zero =>
      obtain rfl : [left, right] = group := by simpa [pairUp] using found
      obtain rfl | rfl : place = 0 ∨ place = 1 := by omega
      · rfl
      · rfl
    | succ index =>
      have shifted : 2 * (index + 1) + place = 2 * index + place + 1 + 1 := by omega
      rw [shifted, getElem?_cons_succ, getElem?_cons_succ]
      exact ih (by simpa [pairUp] using found)

theorem pairUp_nodup {level : List α} (distinct : level.Nodup) : (pairUp level).Nodup := by
  induction level using pairUp.induct with
  | case1 => simp [pairUp]
  | case2 last => simp [pairUp]
  | case3 left right rest ih =>
    rw [nodup_cons, nodup_cons] at distinct
    obtain ⟨apart, -, later⟩ := distinct
    rw [pairUp, nodup_cons]
    refine ⟨fun again => apart ?_, ih later⟩
    exact mem_cons_of_mem right (mem_of_mem_pairUp again mem_cons_self)

end

section

variable {α : Type} (hash : List α → α)

def next (level : List α) : List α := (pairUp level).map hash

def above : Nat → List α → List α
  | 0, level => level
  | rounds + 1, level => next hash (above rounds level)

theorem above_next (rounds : Nat) (level : List α) :
    above hash rounds (next hash level) = next hash (above hash rounds level) := by
  induction rounds with
  | zero => rfl
  | succ rounds ih => rw [above, above, ih]

def height (size : Nat) : Nat := Nat.clog 2 size

theorem height_of_two_le {size : Nat} (many : 2 ≤ size) : height size = height ((size + 1) / 2) + 1 :=
  Nat.clog_of_two_le (by omega) many

theorem height_eq_zero {size : Nat} (few : size ≤ 1) : height size = 0 :=
  Nat.clog_of_right_le_one few 2

@[simp] theorem next_length (level : List α) : (next hash level).length = (level.length + 1) / 2 := by
  rw [next, length_map, pairUp_length]

theorem exists_top (level : List α) (nonempty : level ≠ []) :
    ∃ root, above hash (height level.length) level = [root] := by
  generalize size : level.length = count
  induction count using Nat.strong_induction_on generalizing level with
  | h count ih =>
    have positive : 0 < level.length := length_pos_iff.mpr nonempty
    by_cases many : 2 ≤ count
    · have shorter : (next hash level).length = (count + 1) / 2 := by rw [next_length, size]
      have rest : next hash level ≠ [] := length_pos_iff.mp (by omega)
      obtain ⟨root, top⟩ := ih ((count + 1) / 2) (by omega) (next hash level) rest shorter
      exact ⟨root, by rw [height_of_two_le many, above, ← above_next, top]⟩
    · rw [height_eq_zero (by omega)]
      exact length_eq_one_iff.mp (show level.length = 1 by omega)

def groupPath : Nat → List α → Nat → List (List α)
  | 0, _, _ => []
  | rounds + 1, level, index =>
    (pairUp level).getD (index / 2) [] :: groupPath rounds (next hash level) (index / 2)

def Proper (valid : α → Prop) (group : List α) : Prop :=
  0 < group.length ∧ group.length ≤ 2 ∧ ∀ node ∈ group, valid node

/-- The groups lead from the node up to `top`. Each group has the node reached so far at exactly
one place, and the places are the binary digits of the index, the lowest first. -/
inductive Climbs (valid : α → Prop) : α → List (List α) → Nat → α → Prop
  | done (node : α) : Climbs valid node [] 0 node
  | step {node top : α} {group : List α} {groups : List (List α)} {place index : Nat} :
      Proper valid group → group[place]? = some node →
        (∀ other, group[other]? = some node → other = place) →
        Climbs valid (hash group) groups index top →
          Climbs valid node (group :: groups) (2 * index + place) top

end

section

variable {α : Type}

/-- The leaves are distinct, no leaf is the hash of a group, and no group has the hash of a
different group of the tree. -/
structure Binds (hash : List α → α) (valid : α → Prop) (leaves : List α) : Prop where
  leavesValid : ∀ leaf ∈ leaves, valid leaf
  hashValid : ∀ rounds < height leaves.length, ∀ group ∈ pairUp (above hash rounds leaves), valid (hash group)
  distinct : leaves.Nodup
  fresh : ∀ group, Proper valid group → hash group ∉ leaves
  unique : ∀ rounds < height leaves.length, ∀ group ∈ pairUp (above hash rounds leaves),
    ∀ other, Proper valid other → hash other = hash group → other = group

variable {hash : List α → α} {valid : α → Prop} {leaves : List α}

namespace Binds

theorem above_valid (binds : Binds hash valid leaves) {rounds : Nat} (below : rounds ≤ height leaves.length) :
    ∀ node ∈ above hash rounds leaves, valid node := by
  cases rounds with
  | zero => exact binds.leavesValid
  | succ rounds =>
    intro node member
    obtain ⟨group, own, rfl⟩ := mem_map.mp member
    exact binds.hashValid rounds below group own

theorem proper (binds : Binds hash valid leaves) {rounds : Nat} (below : rounds ≤ height leaves.length)
    {group : List α} (member : group ∈ pairUp (above hash rounds leaves)) : Proper valid group := by
  obtain ⟨positive, narrow⟩ := pairUp_width member
  exact ⟨positive, narrow, fun node inside =>
    binds.above_valid below node (mem_of_mem_pairUp member inside)⟩

theorem above_distinct (binds : Binds hash valid leaves) {rounds : Nat}
    (below : rounds ≤ height leaves.length) : (above hash rounds leaves).Nodup := by
  induction rounds with
  | zero => exact binds.distinct
  | succ rounds ih =>
    rw [above, next, nodup_map_iff_inj_on (pairUp_nodup (ih (by omega)))]
    intro first firstMem second secondMem same
    exact binds.unique rounds below second secondMem first (binds.proper (by omega) firstMem) same

end Binds

theorem Climbs.sound (binds : Binds hash valid leaves) {node root : α} {groups : List (List α)}
    {index : Nat} (climbs : Climbs hash valid node groups index root)
    (top : above hash (height leaves.length) leaves = [root]) :
    ∃ rounds ≤ height leaves.length, (above hash rounds leaves)[index]? = some node ∧
      groups = groupPath hash (height leaves.length - rounds) (above hash rounds leaves) index := by
  induction climbs with
  | done node => exact ⟨height leaves.length, le_rfl, by rw [top]; rfl, by rw [Nat.sub_self]; rfl⟩
  | @step node root group groups place index isProper found _ _ ih =>
    obtain ⟨rounds, below, reached, rest⟩ := ih top
    have small : place < 2 := by
      have bound := (List.getElem?_eq_some_iff.mp found).1
      have narrow := isProper.2.1
      omega
    cases rounds with
    | zero => exact absurd (mem_of_getElem? reached) (binds.fresh group isProper)
    | succ rounds =>
      -- The hash at this place of the upper level has the tree's own group as its only preimage.
      rw [above, next, getElem?_map, Option.map_eq_some_iff] at reached
      obtain ⟨own, place_own, same⟩ := reached
      have equal : group = own :=
        binds.unique rounds below own (mem_of_getElem? place_own) group isProper same.symm
      subst equal
      have half : (2 * index + place) / 2 = index := by omega
      have left : height leaves.length - rounds = height leaves.length - (rounds + 1) + 1 := by omega
      refine ⟨rounds, by omega, by rw [← pairUp_getElem? small place_own, found], ?_⟩
      rw [left, groupPath, half, getD_eq_getElem?_getD, place_own, rest]
      rfl

theorem Climbs.complete (binds : Binds hash valid leaves) {node root : α} {rounds index : Nat}
    (top : above hash (height leaves.length) leaves = [root]) (below : rounds ≤ height leaves.length)
    (found : (above hash rounds leaves)[index]? = some node) :
    Climbs hash valid node
      (groupPath hash (height leaves.length - rounds) (above hash rounds leaves) index) index root := by
  generalize left : height leaves.length - rounds = remaining
  induction remaining generalizing rounds index node with
  | zero =>
    obtain rfl : rounds = height leaves.length := by omega
    rw [top] at found
    obtain ⟨rfl, rfl⟩ : index = 0 ∧ root = node := by
      cases index with
      | zero => exact ⟨rfl, by simpa using found⟩
      | succ index => simp at found
    exact .done root
  | succ remaining ih =>
    have bound : index < (above hash rounds leaves).length := (List.getElem?_eq_some_iff.mp found).1
    have inRange : index / 2 < (pairUp (above hash rounds leaves)).length := by
      rw [pairUp_length]
      omega
    obtain ⟨group, own⟩ : ∃ group, (pairUp (above hash rounds leaves))[index / 2]? = some group :=
      ⟨_, getElem?_eq_getElem inRange⟩
    have split : 2 * (index / 2) + index % 2 = index := by omega
    have placed : group[index % 2]? = some node := by
      rw [pairUp_getElem? (by omega) own, split, found]
    have isProper := binds.proper below (mem_of_getElem? own)
    have parent : (above hash (rounds + 1) leaves)[index / 2]? = some (hash group) := by
      rw [above, next, getElem?_map, own]
      rfl
    have upper := ih (by omega) parent (by omega)
    have once : ∀ other, group[other]? = some node → other = index % 2 := by
      intro other again
      have small : other < 2 := by
        have inside := (List.getElem?_eq_some_iff.mp again).1
        have narrow := isProper.2.1
        omega
      rw [pairUp_getElem? small own] at again
      have same := (getElem?_inj bound (binds.above_distinct below)).mp (found.trans again.symm)
      omega
    have climb := Climbs.step isProper placed once upper
    rw [split] at climb
    rw [groupPath, getD_eq_getElem?_getD, own]
    exact climb

end

section

variable {α : Type} {hash : List α → α}

theorem eq_of_map_eq {β : Type} {view : α → β} {first second : List α}
    (apart : ∀ left ∈ first, ∀ right ∈ second, view left = view right → left = right)
    (same : first.map view = second.map view) : first = second := by
  induction first generalizing second with
  | nil => exact (map_eq_nil_iff.mp same.symm).symm
  | cons left rest ih =>
    cases second with
    | nil => simp at same
    | cons right others =>
      rw [map_cons, map_cons, cons.injEq] at same
      rw [apart left mem_cons_self right mem_cons_self same.1,
        ih (fun one member other otherMember => apart one (mem_cons_of_mem _ member) other
          (mem_cons_of_mem _ otherMember)) same.2]

theorem next_injective {first second : List α}
    (apart : ∀ group ∈ pairUp first, ∀ other ∈ pairUp second, hash group = hash other → group = other)
    (same : next hash first = next hash second) : first = second := by
  rw [← pairUp_flatten first, ← pairUp_flatten second, eq_of_map_eq apart same]

/-- No group of one tree has the hash of a different group of the other, and no leaf of one is an
inner node of the other. -/
structure Apart (hash : List α → α) (first second : List α) : Prop where
  groups : ∀ rounds < height first.length, ∀ others < height second.length,
    ∀ group ∈ pairUp (above hash rounds first), ∀ other ∈ pairUp (above hash others second),
      hash group = hash other → group = other
  firstLeaves : ∀ rounds < height second.length, ∀ group ∈ pairUp (above hash rounds second), hash group ∉ first
  secondLeaves : ∀ rounds < height first.length, ∀ group ∈ pairUp (above hash rounds first), hash group ∉ second

theorem Apart.symm {first second} (apart : Apart hash first second) : Apart hash second first where
  groups := fun rounds below others otherBelow group member other otherMember same =>
    (apart.groups others otherBelow rounds below other otherMember group member same.symm).symm
  firstLeaves := apart.secondLeaves
  secondLeaves := apart.firstLeaves

theorem Apart.descend {first second : List α} (apart : Apart hash first second) {low high count : Nat}
    (firstBound : low + count ≤ height first.length) (secondBound : high + count ≤ height second.length)
    (same : above hash (low + count) first = above hash (high + count) second) :
    above hash low first = above hash high second := by
  induction count with
  | zero => exact same
  | succ count ih =>
    refine ih (by omega) (by omega) (next_injective ?_ same)
    exact apart.groups (low + count) (by omega) (high + count) (by omega)

theorem Apart.leaves_eq_of_le {first second} (apart : Apart hash first second) (nonempty : first ≠ [])
    (lower : height first.length ≤ height second.length)
    (same : above hash (height first.length) first = above hash (height second.length) second) :
    first = second := by
  have raised : height second.length - height first.length + height first.length = height second.length := by
    omega
  have lowered := @Apart.descend _ _ _ _ apart 0 (height second.length - height first.length)
    (height first.length) (by omega) (by omega) (by rw [raised, Nat.zero_add]; exact same)
  cases gap : height second.length - height first.length with
  | zero =>
    rw [gap] at lowered
    exact lowered
  | succ rounds =>
    -- The leaves of the lower tree would be inner nodes of the higher one.
    obtain ⟨leaf, rest, shape⟩ := exists_cons_of_ne_nil nonempty
    rw [gap] at lowered
    have member : leaf ∈ above hash (rounds + 1) second := by
      rw [← lowered]
      change leaf ∈ first
      rw [shape]
      exact mem_cons_self
    obtain ⟨group, own, hashed⟩ := mem_map.mp member
    exact absurd (by rw [hashed, shape]; exact mem_cons_self) (apart.firstLeaves rounds (by omega) group own)

theorem Apart.leaves_eq {first second} (apart : Apart hash first second) (nonempty : first ≠ [])
    (otherNonempty : second ≠ [])
    (same : above hash (height first.length) first = above hash (height second.length) second) :
    first = second := by
  rcases Nat.le_total (height first.length) (height second.length) with lower | higher
  · exact apart.leaves_eq_of_le nonempty lower same
  · exact (apart.symm.leaves_eq_of_le otherNonempty higher same.symm).symm

end

end HashTree.Paired
