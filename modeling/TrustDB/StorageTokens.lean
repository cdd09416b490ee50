import Mathlib
import TrustDB.RecordIndex

/-!
Package `model`: which queries the storage tokens of a record answer. A query is looked up under
the first symbols of its first word; the record is found there if its file name or storage URI has
that fragment before the cap on tokens is reached.
-/

namespace TrustDB.Model

open List

namespace Unicode

variable {unicode : Unicode} {word text part token : List Char} {out : List (List Char)}

/-- The cap is not met while these fragments are added. -/
def WithinCap : List (List Char) → List (List Char × Bool) → Prop
  | _, [] => True
  | out, (token, checked) :: rest =>
    ¬(checked = true ∧ maxRecordStorageIndexTokens ≤ (addToken out token).length) ∧
      WithinCap (addToken out token) rest

theorem mem_addToken (nonempty : token ≠ []) : token ∈ addToken out word ↔ token ∈ out ∨ token = word := by
  unfold addToken
  split
  · rename_i known
    constructor
    · exact .inl
    · rintro (held | rfl)
      · exact held
      · exact known.resolve_left nonempty
  · simp

theorem mem_collectTokens (nonempty : token ≠ []) (steps : List (List Char × Bool)) :
    token ∈ collectTokens steps out ↔ token ∈ out ∨
      ∃ front checked rest, steps = front ++ (token, checked) :: rest ∧ WithinCap out front := by
  induction steps generalizing out with
  | nil => simp [collectTokens]
  | cons step steps ih =>
    obtain ⟨word, checked⟩ := step
    -- The token is the first fragment, or it comes later and the first one does not end the search.
    have first : (∃ front other rest, (word, checked) :: steps = front ++ (token, other) :: rest ∧
        WithinCap out front) ↔ token = word ∨
        ¬(checked = true ∧ maxRecordStorageIndexTokens ≤ (addToken out word).length) ∧
          ∃ front other rest, steps = front ++ (token, other) :: rest ∧ WithinCap (addToken out word) front := by
      constructor
      · rintro ⟨front, other, rest, split, within⟩
        cases front with
        | nil => exact .inl (by simp_all)
        | cons head front =>
          obtain ⟨rfl, rfl⟩ := cons.inj split
          exact .inr ⟨within.1, front, other, rest, rfl, within.2⟩
      · rintro (rfl | ⟨open_, front, other, rest, rfl, within⟩)
        · exact ⟨[], checked, steps, rfl, trivial⟩
        · exact ⟨(word, checked) :: front, other, rest, rfl, open_, within⟩
    rw [first, ← or_assoc, ← mem_addToken nonempty, collectTokens]
    split
    · rename_i capped
      simp [capped]
    · rename_i open_
      rw [ih, and_iff_right open_]

theorem addToken_nodup (distinct : out.Nodup) : (addToken out token).Nodup := by
  unfold addToken
  split
  · exact distinct
  · rename_i new
    exact concat_eq_append ▸ distinct.concat fun member => new (.inr member)

theorem withinCap_of_few (steps : List (List Char × Bool)) (known : List (List Char)) (distinct : out.Nodup)
    (inside : out ⊆ known) (fragments : ∀ step ∈ steps, step.1 ∈ known)
    (few : known.dedup.length < maxRecordStorageIndexTokens) : WithinCap out steps := by
  induction steps generalizing out with
  | nil => trivial
  | cons step steps ih =>
    have added : addToken out step.1 ⊆ known := by
      unfold addToken
      split
      · exact inside
      · exact append_subset.mpr ⟨inside, by simpa using fragments _ mem_cons_self⟩
    have bound : (addToken out step.1).length ≤ known.dedup.length :=
      (subperm_of_subset (addToken_nodup distinct) fun _ member => mem_dedup.mpr (added member)).length_le
    exact ⟨fun capped => by omega, ih (addToken_nodup distinct) added fun step member =>
      fragments step (mem_cons_of_mem _ member)⟩

theorem withinCap_append {front rest : List (List Char × Bool)} :
    WithinCap out (front ++ rest) ↔ WithinCap out front ∧ WithinCap (collectTokens front out) rest := by
  induction front generalizing out with
  | nil => simp [WithinCap, collectTokens]
  | cons step front ih =>
    simp only [cons_append, WithinCap, collectTokens, ih, and_assoc]
    refine and_congr_right fun open_ => ?_
    rw [if_neg open_]

theorem collectTokens_append {front rest : List (List Char × Bool)} (within : WithinCap out front) :
    collectTokens (front ++ rest) out = collectTokens rest (collectTokens front out) := by
  induction front generalizing out with
  | nil => rfl
  | cons step front ih =>
    obtain ⟨open_, within⟩ := within
    rw [cons_append, collectTokens, if_neg open_, ih within, collectTokens, if_neg open_]

theorem withinCap_of_length {steps : List (List Char × Bool)}
    (few : (collectTokens steps out).length < maxRecordStorageIndexTokens) : WithinCap out steps := by
  induction steps generalizing out with
  | nil => trivial
  | cons step steps ih =>
    rw [collectTokens] at few
    split at few
    · rename_i capped
      exact absurd few (Nat.not_lt.mpr capped.2)
    · rename_i open_
      exact ⟨open_, ih few⟩

theorem addToken_distinct (distinct : out.Nodup) (filled : [] ∉ out) :
    (addToken out token).Nodup ∧ [] ∉ addToken out token := by
  refine ⟨addToken_nodup distinct, ?_⟩
  unfold addToken
  split
  · exact filled
  · rename_i new
    simp [filled, Ne.symm (not_or.mp new).1]

theorem collectTokens_distinct (steps : List (List Char × Bool)) (distinct : out.Nodup) (filled : [] ∉ out) :
    (collectTokens steps out).Nodup ∧ [] ∉ collectTokens steps out := by
  induction steps generalizing out with
  | nil => exact ⟨distinct, filled⟩
  | cons step rest ih =>
    obtain ⟨token, checked⟩ := step
    obtain ⟨added, more⟩ := @addToken_distinct token out distinct filled
    unfold collectTokens
    split
    · exact ⟨added, more⟩
    · exact ih added more

section

variable {steps : List (List Char × Bool)} (filled : ∀ step ∈ steps, step.1 ≠ [])
include filled

/-- Below the cap, the tokens are the different fragments. -/
theorem collectTokens_perm (within : WithinCap [] steps) : collectTokens steps [] ~ (steps.map Prod.fst).dedup := by
  obtain ⟨distinct, nonempty⟩ := @collectTokens_distinct [] steps nodup_nil not_mem_nil
  refine (perm_ext_iff_of_nodup distinct (nodup_dedup _)).mpr fun token => ?_
  rw [mem_dedup, mem_map]
  constructor
  · intro member
    obtain ⟨front, checked, rest, rfl, _⟩ :=
      ((mem_collectTokens (fun none => nonempty (none ▸ member)) steps).mp member).resolve_left not_mem_nil
    exact ⟨(token, checked), by simp, rfl⟩
  · rintro ⟨⟨token, checked⟩, member, rfl⟩
    obtain ⟨front, rest, rfl⟩ := append_of_mem member
    exact (mem_collectTokens (filled _ member) _).mpr (.inr ⟨front, checked, rest, rfl, (withinCap_append.mp within).1⟩)

/-- The cap is not met exactly if there are fewer different fragments than it allows, where short words
at the end do not count. -/
theorem withinCap_iff : WithinCap [] steps ↔
    ((steps.rdropWhile (!·.2)).map Prod.fst).dedup.length < maxRecordStorageIndexTokens := by
  induction steps using reverseRecOn with
  | nil => simp [WithinCap, maxRecordStorageIndexTokens]
  | append_singleton steps step ih =>
    obtain ⟨token, checked⟩ := step
    cases checked with
    | false =>
      rw [rdropWhile_concat_pos _ _ _ (by simp), ← ih fun step member => filled step (mem_append_left _ member),
        withinCap_append]
      simp [WithinCap]
    | true =>
      rw [rdropWhile_concat_neg _ _ _ (by simp)]
      constructor
      · intro within
        obtain ⟨before, last, _⟩ := withinCap_append.mp within
        rw [← (collectTokens_perm filled within).length_eq, collectTokens_append before, collectTokens, if_neg last,
          collectTokens]
        simpa using last
      · intro few
        exact withinCap_of_few _ _ nodup_nil (nil_subset _) (fun step member => mem_map_of_mem member) few

end

theorem word_of_mem (found : token ∈ unicode.wordsFrom word text)
    (symbols : ∀ symbol ∈ word, unicode.wordSymbol symbol = true) :
    token <:+: word ++ text ∧ ∀ symbol ∈ token, unicode.wordSymbol symbol = true := by
  induction text generalizing word with
  | nil =>
    cases word with
    | nil => cases found
    | cons first word =>
      obtain rfl := mem_singleton.mp found
      exact ⟨by simp, symbols⟩
  | cons symbol rest ih =>
    rw [wordsFrom.eq_def] at found
    simp only at found
    split at found
    · rename_i inWord
      have grown := ih found (by
        intro other member
        rcases mem_append.mp member with held | new
        · exact symbols other held
        · rwa [mem_singleton.mp new])
      simpa using grown
    · have skipped (member : token ∈ unicode.wordsFrom [] rest) :
          token <:+: word ++ symbol :: rest ∧ ∀ symbol ∈ token, unicode.wordSymbol symbol = true := by
        obtain ⟨part, only⟩ := ih member (by simp)
        exact ⟨part.trans ⟨word ++ [symbol], [], by simp⟩, only⟩
      split at found
      · exact skipped found
      · rcases mem_cons.mp found with rfl | later
        · exact ⟨⟨[], symbol :: rest, by simp⟩, symbols⟩
        · exact skipped later

theorem infix_avoids {symbol front back} (avoids : symbol ∉ part) (inside : part <:+: front ++ symbol :: back) :
    part <:+: front ∨ part <:+: back := by
  obtain ⟨before, after, whole⟩ := inside
  rw [append_assoc, append_eq_append_iff] at whole
  rcases whole with ⟨more, rfl, split⟩ | ⟨more, rfl, split⟩
  · rw [append_eq_append_iff] at split
    rcases split with ⟨rest, rfl, -⟩ | ⟨rest, rfl, tail⟩
    · exact .inl ⟨before, rest, by simp⟩
    · cases rest with
      | nil => exact .inl ⟨before, [], by simp⟩
      | cons first rest =>
        obtain ⟨rfl, -⟩ := cons.inj tail
        simp at avoids
  · cases more with
    | nil =>
      cases part with
      | nil => exact .inl nil_infix
      | cons first part =>
        obtain ⟨rfl, -⟩ := cons.inj split
        simp at avoids
    | cons first more =>
      obtain ⟨-, rfl⟩ := cons.inj split
      exact .inr ⟨more, after, by simp⟩

theorem mem_word_of_infix (nonempty : part ≠ []) (symbols : ∀ symbol ∈ part, unicode.wordSymbol symbol = true)
    (inside : part <:+: word ++ text) : ∃ token ∈ unicode.wordsFrom word text, part <:+: token := by
  induction text generalizing word with
  | nil =>
    rw [append_nil] at inside
    cases word with
    | nil => exact absurd (infix_nil.mp inside) nonempty
    | cons first word => exact ⟨_, mem_singleton_self _, inside⟩
  | cons symbol rest ih =>
    rw [wordsFrom.eq_def]
    simp only
    split
    · exact ih (by simpa using inside)
    · rename_i outside
      have either := infix_avoids (fun member => outside (symbols symbol member)) inside
      split
      · rename_i empty
        rcases either with here | later
        · rw [empty] at here
          exact absurd (infix_nil.mp here) nonempty
        · exact ih later
      · rcases either with here | later
        · exact ⟨word, mem_cons_self, here⟩
        · obtain ⟨token, member, within⟩ := @ih [] later
          exact ⟨token, mem_cons_of_mem _ member, within⟩

theorem mem_windows {width : Nat} (length : part.length = width) (inside : part <:+: word) :
    part ∈ windows width word := by
  obtain ⟨before, after, rfl⟩ := inside
  refine mem_map.mpr ⟨before.length, mem_range.mpr ?_, ?_⟩
  · simp only [length_append]
    omega
  · rw [append_assoc, drop_left, take_append_of_le_length (by omega), take_of_length_le (by omega)]

theorem mem_fragments (long : 2 ≤ part.length) (inside : part <:+: word) :
    (recordSearchProbe part, true) ∈ fragments word := by
  have wide : 2 ≤ word.length := Nat.le_trans long inside.length_le
  unfold fragments
  rw [if_neg (by omega)]
  refine mem_append_right _ (mem_map.mpr ⟨_, mem_append.mpr ?_, rfl⟩)
  by_cases two : part.length = 2
  · left
    rw [recordSearchProbe, take_of_length_le (by omega)]
    exact mem_windows two inside
  · right
    refine mem_windows ?_ (( take_prefix 3 part).isInfix.trans inside)
    rw [recordSearchProbe, length_take]
    omega

theorem recordSearchTokens_eq
    (spaces : ∀ symbol, isSpace symbol = true → unicode.wordSymbol (unicode.toLower symbol) = false)
    (value : String) : unicode.recordSearchTokens value = unicode.wordsFrom [] (unicode.lower value.toList) := by
  have lead (front text : List Char) (blank : ∀ symbol ∈ front, unicode.wordSymbol symbol = false) :
      unicode.wordsFrom [] (front ++ text) = unicode.wordsFrom [] text := by
    induction front with
    | nil => rfl
    | cons symbol front ih =>
      rw [cons_append, wordsFrom, if_neg (by simp [blank symbol]), if_pos rfl]
      exact ih fun other member => blank other (mem_cons_of_mem _ member)
  have trail (back : List Char) (blank : ∀ symbol ∈ back, unicode.wordSymbol symbol = false) (text : List Char) :
      ∀ word, unicode.wordsFrom word (text ++ back) = unicode.wordsFrom word text := by
    induction text with
    | nil =>
      intro word
      cases back with
      | nil => rfl
      | cons symbol back =>
        have rest := lead back [] fun other member => blank other (mem_cons_of_mem _ member)
        rw [append_nil] at rest
        cases word <;> simp [wordsFrom, blank symbol, rest]
    | cons symbol text ih =>
      intro word
      rw [cons_append, wordsFrom.eq_def unicode word (symbol :: text), wordsFrom.eq_def]
      simp only [ih]
  obtain ⟨front, back, whole, blankFront, blankBack⟩ : ∃ front back,
      value.toList = front ++ (trimSpace value).toList ++ back ∧ (∀ symbol ∈ front, isSpace symbol = true) ∧
        ∀ symbol ∈ back, isSpace symbol = true := by
    refine ⟨value.toList.takeWhile isSpace, ((value.toList.dropWhile isSpace).reverse.takeWhile isSpace).reverse, ?_,
      fun _ member => mem_takeWhile_imp member, fun _ member => mem_takeWhile_imp (mem_reverse.mp member)⟩
    rw [trimSpace, String.toList_ofList, append_assoc, ← reverse_append, takeWhile_append_dropWhile,
      reverse_reverse, takeWhile_append_dropWhile]
  have blank (part : List Char) (all : ∀ symbol ∈ part, isSpace symbol = true) :
      ∀ symbol ∈ unicode.lower part, unicode.wordSymbol symbol = false := by
    intro symbol member
    obtain ⟨space, present, rfl⟩ := mem_map.mp member
    exact spaces space (all space present)
  unfold recordSearchTokens
  have mapped : unicode.lower value.toList =
      unicode.lower front ++ unicode.lower (trimSpace value).toList ++ unicode.lower back := by
    rw [whole]
    simp only [lower, map_append]
  rw [mapped, trail _ (blank back blankBack), lead _ _ (blank front blankFront)]

theorem recordStorageQueryToken_word {query} (asked : unicode.recordStorageQueryToken query ≠ []) :
    ∃ word ∈ unicode.recordSearchTokens query, 2 ≤ word.length ∧
      unicode.recordStorageQueryToken query = recordSearchProbe word := by
  unfold recordStorageQueryToken at asked ⊢
  split at asked
  · exact absurd rfl asked
  · rename_i word found
    have long := find?_some found
    exact ⟨word, mem_of_find?_eq_some found, by simpa using long, rfl⟩

/-- The query is found in the file name or in the storage URI. -/
def FoundInName (unicode : Unicode) (idx : RecordIndex) (query : String) : Prop :=
  ∃ value ∈ [idx.fileName, idx.storageURI], unicode.lower (trimSpace query).toList <:+: unicode.lower value.toList

instance (idx : RecordIndex) (query : String) : Decidable (unicode.FoundInName idx query) :=
  inferInstanceAs (Decidable (∃ value ∈ [idx.fileName, idx.storageURI],
    unicode.lower (trimSpace query).toList <:+: unicode.lower value.toList))

/-- The fragments of the file name and the storage URI before a token, without a short word right
before it. -/
def fragmentsBefore (unicode : Unicode) (idx : RecordIndex) (token : List Char) : List (List Char) :=
  (((unicode.recordFragments idx).takeWhile (·.1 ≠ token)).rdropWhile (!·.2)).map Prod.fst

theorem fragments_filled {step : List Char × Bool} (member : step ∈ fragments word) : step.1 ≠ [] := by
  unfold fragments at member
  split at member
  · cases member
  · rename_i long
    rcases mem_append.mp member with whole_ | part_
    · split at whole_
      · obtain rfl := mem_singleton.mp whole_
        rintro rfl
        simp at long
      · cases whole_
    · obtain ⟨part, inside, rfl⟩ := mem_map.mp part_
      intro none_
      have sizes : ∀ width, 2 ≤ width → width ≤ 3 → part ∉ windows width word := by
        intro width low high found
        obtain ⟨start, place, rfl⟩ := mem_map.mp found
        have place := mem_range.mp place
        have length := congrArg List.length none_
        simp only [length_take, length_drop, length_nil] at length
        omega
      rcases mem_append.mp inside with two | three
      · exact sizes 2 (by omega) (by omega) two
      · exact sizes 3 (by omega) (by omega) three

theorem flatMap_fragments_filled (words : List (List Char)) : ∀ step ∈ words.flatMap fragments, step.1 ≠ [] := by
  intro step member
  obtain ⟨word, _, part⟩ := mem_flatMap.mp member
  exact fragments_filled part

theorem matches_of_found {idx query} (found : unicode.FoundInName idx query) :
    unicode.recordIndexMatchesQuery idx query = true := by
  obtain ⟨value, field, matched⟩ := found
  simp only [recordIndexMatchesQuery, decide_eq_true_eq]
  refine .inr ⟨value, ?_, matched⟩
  rcases mem_pair.mp field with rfl | rfl
  · simp
  · simp

theorem mem_recordFragments {idx : RecordIndex} {query : String}
    (spaces : ∀ symbol, isSpace symbol = true → unicode.wordSymbol (unicode.toLower symbol) = false)
    (asked : unicode.recordStorageQueryToken query ≠ []) (found : unicode.FoundInName idx query) :
    unicode.recordStorageQueryToken query ∈ (unicode.recordFragments idx).map Prod.fst := by
  obtain ⟨value, field, matched⟩ := found
  obtain ⟨word, member, long, same⟩ := recordStorageQueryToken_word asked
  have sought : word <:+: unicode.lower (trimSpace query).toList ∧
      ∀ symbol ∈ word, unicode.wordSymbol symbol = true := by
    simpa using word_of_mem member (by simp)
  have nonempty : word ≠ [] := by
    rintro rfl
    simp at long
  have inside : word <:+: [] ++ unicode.lower value.toList := sought.1.trans matched
  obtain ⟨token, stored, within⟩ := mem_word_of_infix nonempty sought.2 inside
  refine mem_map.mpr ⟨(recordSearchProbe word, true), mem_flatMap.mpr ⟨token, ?_, mem_fragments long within⟩, same.symm⟩
  rw [← recordSearchTokens_eq spaces] at stored
  rcases mem_pair.mp field with rfl | rfl
  · exact mem_append_left _ stored
  · exact mem_append_right _ stored

/-- A token is stored exactly if it is a fragment and fewer than 64 different ones come before it. -/
theorem mem_storageTokens_iff {idx : RecordIndex} (nonempty : token ≠ []) :
    token ∈ unicode.recordIndexStorageTokens idx ↔ token ∈ (unicode.recordFragments idx).map Prod.fst ∧
      (unicode.fragmentsBefore idx token).dedup.length < maxRecordStorageIndexTokens := by
  have filled : ∀ step ∈ unicode.recordFragments idx, step.1 ≠ [] := flatMap_fragments_filled _
  rw [fragmentsBefore, ← withinCap_iff fun step member => filled step ((takeWhile_sublist _).subset member),
    recordIndexStorageTokens, mem_collectTokens nonempty]
  generalize unicode.recordFragments idx = steps
  have cut (list : List (List Char × Bool)) := takeWhile_append_dropWhile (p := (·.1 ≠ token)) (l := list)
  constructor
  · rintro (none_ | ⟨front, checked, rest, rfl, within⟩)
    · cases none_
    · refine ⟨by simp, ?_⟩
      rw [takeWhile_append]
      split
      · simpa [takeWhile_cons] using within
      · rw [← cut front] at within
        exact (withinCap_append.mp within).1
  · rintro ⟨place, within⟩
    cases tail : steps.dropWhile (·.1 ≠ token) with
    | nil =>
      obtain ⟨step, member, rfl⟩ := mem_map.mp place
      have kept := dropWhile_eq_nil_iff.mp tail _ member
      simp at kept
    | cons step rest =>
      have first := head?_dropWhile_not (·.1 ≠ token) steps
      rw [tail] at first
      obtain ⟨fragment, checked⟩ := step
      obtain rfl : fragment = token := by simpa using first
      exact .inr ⟨_, checked, rest, by rw [← tail, cut], within⟩

end Unicode

namespace Sample

def ascii : Unicode where
  isLetter := Char.isAlpha
  isDigit := Char.isDigit
  toLower := Char.toLower

theorem ascii_spaces (symbol : Char) (space : isSpace symbol = true) :
    ascii.wordSymbol (ascii.toLower symbol) = false := by
  simp only [isSpace, Char.toNat, Bool.or_eq_true, Bool.and_eq_true, decide_eq_true_eq] at space
  have same : symbol.toLower = symbol := by
    rw [Char.toLower, dif_neg]
    simp only [ge_iff_le, UInt32.le_iff_toNat_le, Char.reduceVal, UInt32.reduceToNat]
    omega
  simp only [ascii, same, Unicode.wordSymbol, Char.isAlpha, Char.isUpper, Char.isLower, Char.isDigit, ge_iff_le,
    UInt32.le_iff_toNat_le, Char.reduceVal, UInt32.reduceToNat, Bool.or_eq_false_iff, Bool.and_eq_false_iff,
    decide_eq_false_iff_not]
  omega

end Sample

end TrustDB.Model
