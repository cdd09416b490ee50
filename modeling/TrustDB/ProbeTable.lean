import Mathlib

/-!
A list without repetitions behind an open-addressed table. A slot holds the place of an item,
counted from one, in so many bits; an item is looked for from its own slot on.
-/

namespace ProbeTable

structure Table (α : Type) where
  items : List α
  slots : Nat → Nat

namespace Table

variable {α : Type}

def empty : Table α := ⟨[], fun _ => 0⟩

def fill (bits : Nat) (table : Table α) (slot : Nat) (item : α) : Table α where
  items := table.items ++ [item]
  slots := Function.update table.slots slot ((table.items.length + 1) % 2 ^ bits)

section

variable [DecidableEq α] (size bits : Nat)

/-- The search from a slot on, over `fuel` slots at most. -/
def probe (table : Table α) (item : α) : Nat → Nat → Option (Table α)
  | 0, _ => none
  | fuel + 1, slot =>
    if table.slots slot = 0 then some (table.fill bits slot item)
    else if table.items[table.slots slot - 1]? = some item then some table
    else probe table item fuel ((slot + 1) % size)

def add (hash : α → Nat) (table : Table α) (item : α) : Option (Table α) :=
  table.probe size bits item size (hash item % size)

end

/-- Different slots hold different places, and from the slot of an item on there is no free one
before the slot that holds it. -/
structure Ok (size : Nat) (hash : α → Nat) (table : Table α) : Prop where
  held : ∀ slot, table.slots slot ≤ table.items.length
  apart : ∀ first second, table.slots first = table.slots second → table.slots first ≠ 0 → first = second
  reached : ∀ index item, table.items[index]? = some item → ∃ steps,
    table.slots ((hash item + steps) % size) = index + 1 ∧
      ∀ before < steps, table.slots ((hash item + before) % size) ≠ 0

variable {size bits : Nat} {hash : α → Nat} {table : Table α} {item : α}

theorem ok_empty : Ok size hash (empty : Table α) :=
  ⟨fun _ => Nat.le_refl 0, fun _ _ _ held => absurd rfl held, nofun⟩

theorem Ok.free (ok : Ok size hash table) (room : table.items.length < size) (start : Nat) :
    ∃ steps < size, table.slots ((start + steps) % size) = 0 := by
  by_contra full
  push Not at full
  let place : Fin size → Fin table.items.length := fun steps =>
    ⟨table.slots ((start + steps) % size) - 1, by
      have held := ok.held ((start + steps) % size)
      have taken := full steps steps.isLt
      omega⟩
  obtain ⟨first, second, different, same⟩ := Fintype.exists_ne_map_eq_of_card_lt place (by simpa using room)
  have firstTaken := full first first.isLt
  have secondTaken := full second second.isLt
  have places : table.slots ((start + first) % size) - 1 = table.slots ((start + second) % size) - 1 :=
    congrArg Fin.val same
  have equal := ok.apart ((start + first) % size) ((start + second) % size) (by omega) firstTaken
  exact different (Fin.ext (Nat.ModEq.eq_of_lt_of_lt (Nat.ModEq.add_left_cancel' start equal) first.isLt second.isLt))

theorem probe_eq [DecidableEq α] {start last : Nat} (free : table.slots ((start + last) % size) = 0) (fuel : Nat) :
    ∀ steps, steps ≤ last → last < steps + fuel →
      (∀ before, steps ≤ before → before < last → table.slots ((start + before) % size) ≠ 0) →
      (item ∈ table.items ∧ table.probe size bits item fuel ((start + steps) % size) = some table) ∨
        ((∀ before, steps ≤ before → before < last →
          table.items[table.slots ((start + before) % size) - 1]? ≠ some item) ∧
          table.probe size bits item fuel ((start + steps) % size) =
            some (table.fill bits ((start + last) % size) item)) := by
  induction fuel with
  | zero => intro steps within beyond; omega
  | succ fuel ih =>
    intro steps within beyond taken
    rw [probe]
    rcases Nat.eq_or_lt_of_le within with rfl | more
    · right
      exact ⟨fun before lower upper => absurd lower (by omega), if_pos free⟩
    · rw [if_neg (taken steps (le_rfl) more)]
      by_cases here : table.items[table.slots ((start + steps) % size) - 1]? = some item
      · left
        exact ⟨List.mem_of_getElem? here, if_pos here⟩
      · rw [if_neg here, Nat.mod_add_mod, Nat.add_assoc]
        refine (ih (steps + 1) more (by omega) fun before lower upper => taken before (by omega) upper).imp_right ?_
        rintro ⟨missed, found⟩
        refine ⟨fun before lower upper => ?_, found⟩
        rcases Nat.eq_or_lt_of_le lower with rfl | later
        · exact here
        · exact missed before later upper

theorem Ok.fill (ok : Ok size hash table) (small : table.items.length + 1 < 2 ^ bits) {last : Nat}
    (free : table.slots ((hash item + last) % size) = 0)
    (taken : ∀ before < last, table.slots ((hash item + before) % size) ≠ 0) :
    Ok size hash (table.fill bits ((hash item + last) % size) item) := by
  have entry : (table.items.length + 1) % 2 ^ bits = table.items.length + 1 := Nat.mod_eq_of_lt small
  refine ⟨fun slot => ?_, fun first second => ?_, fun index other found => ?_⟩ <;>
    simp only [Table.fill, entry, Function.update_apply] at *
  · have held := ok.held slot
    rw [List.length_append, List.length_singleton]
    split <;> omega
  · have firstHeld := ok.held first
    have secondHeld := ok.held second
    intro same filled
    split at same <;> split at same
    · simp_all
    · omega
    · omega
    · rw [if_neg (by assumption)] at filled
      exact ok.apart first second same filled
  · have old : ∀ steps, (∀ before < steps, table.slots ((hash other + before) % size) ≠ 0) →
        ∀ before < steps, (if (hash other + before) % size = (hash item + last) % size
          then table.items.length + 1 else table.slots ((hash other + before) % size)) ≠ 0 := by
      intro steps path before below
      split
      · omega
      · exact path before below
    rcases Nat.lt_or_ge index table.items.length with inside | behind
    · rw [List.getElem?_append_left inside] at found
      obtain ⟨steps, held, path⟩ := ok.reached index other found
      refine ⟨steps, ?_, old steps path⟩
      rw [if_neg fun same => by rw [same, free] at held; omega, held]
    · rw [List.getElem?_append_right behind, List.getElem?_singleton] at found
      split at found
      · cases found
        exact ⟨last, by rw [if_pos rfl]; omega, old last taken⟩
      · cases found

theorem Ok.add [DecidableEq α] (ok : Ok size hash table) (room : table.items.length < size)
    (small : table.items.length + 1 < 2 ^ bits) (item : α) :
    ∃ next, table.add size bits hash item = some next ∧ Ok size hash next ∧
      next.items = if item ∈ table.items then table.items else table.items ++ [item] := by
  classical
  have some_ := ok.free room (hash item)
  obtain ⟨bound, free⟩ := Nat.find_spec some_
  have taken : ∀ before < Nat.find some_, table.slots ((hash item + before) % size) ≠ 0 := fun before below zero =>
    Nat.find_min some_ below ⟨by omega, zero⟩
  rcases probe_eq free size 0 (Nat.zero_le _) (by omega) fun before _ => taken before with
    ⟨known, found⟩ | ⟨missed, found⟩
  · exact ⟨table, found, ok, (if_pos known).symm⟩
  · refine ⟨_, found, ok.fill small free taken, (if_neg fun known => ?_).symm⟩
    obtain ⟨index, here⟩ := List.mem_iff_getElem?.mp known
    obtain ⟨steps, held, path⟩ := ok.reached index item here
    -- The item would have been met before the free slot.
    rcases Nat.lt_trichotomy steps (Nat.find some_) with before | same | after
    · exact missed steps (Nat.zero_le _) before (by rw [held]; exact here)
    · rw [same, free] at held
      omega
    · exact path _ after free

end Table

end ProbeTable
