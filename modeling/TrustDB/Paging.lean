import Mathlib

/-!
Listing in pages. `scan` is the loop of one page over the items from a position on; `follow` asks
for page after page, from the last item of the page before, until a page is short, and `gather`
until a page is empty.
-/

namespace Paging

open List

variable {α κ : Type}

def scan (limit : Nat) (stop accept : α → Bool) : List α → List α → List α
  | found, [] => found
  | found, item :: rest =>
    if limit ≤ found.length then found
    else if stop item then found
    else scan limit stop accept (if accept item then found ++ [item] else found) rest

theorem scan_eq (limit : Nat) (stop accept : α → Bool) (items : List α) :
    ∀ found : List α, found.length ≤ limit → scan limit stop accept found items =
      found ++ ((items.takeWhile fun item => !stop item).filter accept).take (limit - found.length) := by
  induction items with
  | nil =>
    intro found _
    simp [scan]
  | cons item rest ih =>
    intro found room
    unfold scan
    by_cases full : limit ≤ found.length
    · rw [if_pos full, Nat.sub_eq_zero_of_le full, take_zero, append_nil]
    · rw [if_neg full]
      by_cases stops : stop item = true
      · simp [stops]
      · by_cases accepts : accept item = true
        · have more : limit - found.length = limit - (found ++ [item]).length + 1 := by
            simp only [length_append, length_singleton]
            omega
          simp only [stops, accepts, if_true, Bool.false_eq_true, if_false]
          rw [ih _ (by simp only [length_append, length_singleton]; omega), more]
          simp [stops, accepts]
        · simp only [stops, accepts, Bool.false_eq_true, if_false]
          rw [ih _ room]
          simp [stops, accepts]

theorem filter_takeWhile {stop accept : α → Bool} {items : List α}
    (later : items.Pairwise fun item other => stop item → accept other = false)
    (own : ∀ item ∈ items, stop item → accept item = false) :
    (items.takeWhile fun item => !stop item).filter accept = items.filter accept := by
  induction items with
  | nil => rfl
  | cons item rest ih =>
    obtain ⟨first, others⟩ := pairwise_cons.mp later
    obtain ⟨here, there⟩ := forall_mem_cons.mp own
    by_cases stops : stop item = true
    · have none_ : rest.filter accept = [] :=
        filter_eq_nil_iff.mpr fun other member => by simp [first other member stops]
      simp [stops, here stops, none_]
    · simp [stops, filter_cons, ih others there]

theorem filter_dropWhile {below accept : α → Bool} {items : List α}
    (skips : ∀ item ∈ items, below item → accept item = false) :
    (items.dropWhile below).filter accept = items.filter accept := by
  induction items with
  | nil => rfl
  | cons item rest ih =>
    obtain ⟨here, there⟩ := forall_mem_cons.mp skips
    by_cases skipped : below item = true
    · simp [skipped, here skipped, ih there]
    · simp [skipped]

theorem filter_after {before : α → α → Prop} {after : α → Bool} {front rest : List α} {last : α}
    (ordered : (front ++ rest).Pairwise before) (found : front.getLast? = some last)
    (behind : ∀ item, before last item → after item = true)
    (ahead : ∀ item, item = last ∨ before item last → after item = false) : (front ++ rest).filter after = rest := by
  obtain ⟨earlier, rfl⟩ := getLast?_eq_some_iff.mp found
  have split := pairwise_append.mp ordered
  have kept : rest.filter after = rest := filter_eq_self.mpr fun item member =>
    behind item (split.2.2 last (by simp) item member)
  have none_ : (earlier ++ [last]).filter after = [] := by
    refine filter_eq_nil_iff.mpr fun item member => ?_
    rw [ahead item ?_]
    · exact Bool.false_ne_true
    · rcases mem_append.mp member with inside | same
      · exact .inr ((pairwise_append.mp split.1).2.2 item inside last (by simp))
      · exact .inl (mem_singleton.mp same)
  rw [filter_append, none_, kept, nil_append]

/-- The pages from a cursor on, up to the first short one. -/
def follow (page : κ → List α) (cursorOf : α → κ) (limit : Nat) : Nat → κ → Option (List α)
  | 0, _ => none
  | fuel + 1, cursor =>
    match (page cursor).getLast? with
    | none => some []
    | some last =>
      if (page cursor).length = limit then
        (follow page cursorOf limit fuel (cursorOf last)).map (page cursor ++ ·)
      else some (page cursor)

variable {page : κ → List α} {cursorOf : α → κ} {limit : Nat} {start : κ} {items : List α}

/-- Where paging stands after the items in front: at the start, or at the last of them. -/
def CursorAt (cursorOf : α → κ) (start : κ) (front : List α) (cursor : κ) : Prop :=
  front = [] ∧ cursor = start ∨ ∃ last, front.getLast? = some last ∧ cursor = cursorOf last

theorem follow_eq_some (positive : 0 < limit)
    (serves : ∀ front rest cursor, items = front ++ rest → limit ∣ front.length →
      CursorAt cursorOf start front cursor → page cursor = rest.take limit) :
    ∃ fuel, follow page cursorOf limit fuel start = some items := by
  have from_ : ∀ size front rest cursor, rest.length ≤ size → items = front ++ rest → limit ∣ front.length →
      CursorAt cursorOf start front cursor → follow page cursorOf limit (size + 1) cursor = some rest := by
    intro size
    induction size with
    | zero =>
      intro front rest cursor bound split whole at_
      have empty : rest = [] := length_eq_zero_iff.mp (by omega)
      subst empty
      simp [follow, serves front [] cursor split whole at_]
    | succ size ih =>
      intro front rest cursor bound split whole at_
      have here := serves front rest cursor split whole at_
      unfold follow
      rw [here]
      cases found : (rest.take limit).getLast? with
      | none =>
        have none : rest.take limit = [] := getLast?_eq_none_iff.mp found
        have empty : rest = [] := by
          rcases take_eq_nil_iff.mp none with zero | empty
          · omega
          · exact empty
        simp [empty]
      | some last =>
        by_cases full : (rest.take limit).length = limit
        · have left : (rest.drop limit).length ≤ size := by
            rw [length_take] at full
            rw [length_drop]
            omega
          have next := ih (front ++ rest.take limit) (rest.drop limit) (cursorOf last) left
            (by rw [append_assoc, take_append_drop, split])
            (by rw [length_append, full]; exact Nat.dvd_add whole (Nat.dvd_refl limit))
            (.inr ⟨last, by rw [getLast?_append, found]; rfl, rfl⟩)
          simp only [full, if_true, next, Option.map_some, take_append_drop]
        · have short : rest.take limit = rest := by
            apply take_of_length_le
            rw [length_take] at full
            omega
          simp only [if_neg full]
          rw [short]
  exact ⟨_, from_ items.length [] items start (Nat.le_refl _) rfl (Nat.dvd_zero _) (.inl ⟨rfl, rfl⟩)⟩

theorem follow_eq_none (met : κ → Prop) (begins : met start)
    (full : ∀ cursor, met cursor → (page cursor).length = limit ∧
      ∃ last, (page cursor).getLast? = some last ∧ met (cursorOf last)) (fuel : Nat) :
    follow page cursorOf limit fuel start = none := by
  induction fuel generalizing start with
  | zero => rfl
  | succ fuel ih =>
    obtain ⟨whole, last, found, again⟩ := full start begins
    simp [follow, found, whole, ih again]

end Paging
