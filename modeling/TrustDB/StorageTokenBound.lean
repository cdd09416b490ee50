import TrustDB.ProbeTable
import TrustDB.StorageTokens

/-!
Package `model`: how many storage tokens a record has. The tokens are collected behind a small
open-addressed table, which never fills up. The cap is looked at after a fragment was added, but
not after a short word was added as a whole, so that one token more than the cap can be returned.
-/

namespace TrustDB.Model

open ProbeTable List

def recordStorageTokenHash (token : List Char) : UInt64 :=
  (utf8 (String.ofList token)).foldl (fun hash byte => (hash ^^^ byte.toUInt64) * 1099511628211)
    14695981039346656037

namespace Unicode

def tokenSlot (token : List Char) : Nat := (recordStorageTokenHash token).toNat

def addToTable (table : Table (List Char)) (token : List Char) : Option (Table (List Char)) :=
  if token = [] then some table else table.add (maxRecordStorageIndexTokens * 2) 8 tokenSlot token

def collectInTable : List (List Char × Bool) → Table (List Char) → Option (List (List Char))
  | [], table => some table.items
  | (token, checked) :: rest, table => do
    let table ← addToTable table token
    if checked ∧ maxRecordStorageIndexTokens ≤ table.items.length then return table.items
    else collectInTable rest table

/-- `RecordIndexStorageTokens` with its table. No result means that the search for a slot does not end. -/
def recordIndexStorageTokensInTable (unicode : Unicode) (idx : RecordIndex) : Option (List (List Char)) :=
  collectInTable (unicode.recordFragments idx) .empty

variable {token word : List Char} {out parts : List (List Char)}
  {table : Table (List Char)}

theorem addToken_length : out.length ≤ (addToken out token).length ∧ (addToken out token).length ≤ out.length + 1 := by
  unfold addToken
  split <;> simp

theorem addToken_longer (filled : token ≠ []) : out.length < (addToken out token).length ↔ token ∉ out := by
  unfold addToken
  by_cases known : token ∈ out <;> simp [filled, known]

section

variable (steps : List (List Char × Bool))
include steps

theorem collectTokens_length : out.length ≤ (collectTokens steps out).length := by
  induction steps generalizing out with
  | nil => exact le_rfl
  | cons step rest ih =>
    have grown := (@addToken_length step.1 out).1
    rw [collectTokens]
    split
    · exact grown
    · exact grown.trans ih

theorem collectInTable_eq (ok : table.Ok (maxRecordStorageIndexTokens * 2) tokenSlot)
    (few : (collectTokens steps table.items).length < maxRecordStorageIndexTokens * 2) :
    collectInTable steps table = some (collectTokens steps table.items) := by
  induction steps generalizing table with
  | nil => rfl
  | cons step rest ih =>
    obtain ⟨token, checked⟩ := step
    have room : table.items.length < 128 := (collectTokens_length ((token, checked) :: rest)).trans_lt few
    obtain ⟨next, added, kept, items⟩ : ∃ next, addToTable table token = some next ∧
        next.Ok (maxRecordStorageIndexTokens * 2) tokenSlot ∧ next.items = addToken table.items token := by
      unfold addToTable addToken
      by_cases empty : token = []
      · exact ⟨table, if_pos empty, ok, by simp [empty]⟩
      · obtain ⟨next, added, kept, items⟩ := @Table.Ok.add _ _ 8 _ _ _ ok room (by omega) token
        exact ⟨next, by rw [if_neg empty, added], kept, by simp [items, empty]⟩
    simp only [collectTokens, ← items] at few
    simp only [collectInTable, collectTokens, added, ← items, Option.bind_eq_bind, Option.bind_some]
    split at few
    · rename_i capped
      rw [if_pos capped, if_pos capped]
      rfl
    · rename_i more
      rw [if_neg more, if_neg more]
      exact ih kept few

end

theorem windows_two (long : 2 ≤ word.length) : ∃ more, windows 2 word = word.take 2 :: more := by
  obtain ⟨count, same⟩ : ∃ count, word.length + 1 - 2 = count + 1 := ⟨word.length - 2, by omega⟩
  exact ⟨_, by rw [windows, same, range_succ_eq_map, map_cons, drop_zero]⟩

theorem fragments_eq (long : 2 ≤ word.length) : ∃ more, fragments word =
    (if word.length ≤ 4 then [(word, false)] else []) ++ (word.take 2 :: more).map (·, true) := by
  obtain ⟨more, first⟩ := windows_two long
  exact ⟨more ++ windows 3 word, by rw [fragments, if_neg (by omega), first, cons_append]⟩

theorem collectTokens_checked (few : out.length < maxRecordStorageIndexTokens) :
    (collectTokens (parts.map (·, true)) out).length ≤ maxRecordStorageIndexTokens ∧
      ∀ rest, collectTokens (parts.map (·, true) ++ rest) out =
        if (collectTokens (parts.map (·, true)) out).length < maxRecordStorageIndexTokens
        then collectTokens rest (collectTokens (parts.map (·, true)) out)
        else collectTokens (parts.map (·, true)) out := by
  induction parts generalizing out with
  | nil => exact ⟨few.le, fun rest => (if_pos few).symm⟩
  | cons part parts ih =>
    have grown := @addToken_length part out
    simp only [map_cons, cons_append, collectTokens, true_and]
    by_cases full : maxRecordStorageIndexTokens ≤ (addToken out part).length
    · simp only [if_pos full]
      exact ⟨by omega, fun rest => (if_neg (by omega)).symm⟩
    · simp only [if_neg full]
      exact ih (by omega)

/-- A word that is added as a whole on the last free place, before a new fragment. The tokens before
it are `out`. -/
def Overruns (out : List (List Char)) (word : List Char) : Prop :=
  out.length + 1 = maxRecordStorageIndexTokens ∧ (word.length = 3 ∨ word.length = 4) ∧ word ∉ out ∧ word.take 2 ∉ out

theorem Overruns.perm {others : List (List Char)} (overruns : Overruns out word) (same : out ~ others) :
    Overruns others word := by
  rwa [Overruns, ← same.length_eq, ← same.mem_iff, ← same.mem_iff]

theorem overruns_iff (words : List (List Char)) :
    Overruns (collectTokens (words.flatMap fragments) []) word ↔
      Overruns ((words.flatMap fragments).map Prod.fst).dedup word := by
  have same := @collectTokens_perm _ (flatMap_fragments_filled words)
  constructor
  · intro overruns
    have last := overruns.1
    exact overruns.perm (same (withinCap_of_length (by omega)))
  · intro overruns
    have last := overruns.1
    refine overruns.perm (same ?_).symm
    exact withinCap_of_few _ _ nodup_nil (nil_subset _) (fun step member => mem_map_of_mem member) (by omega)

theorem collectTokens_word (few : out.length < maxRecordStorageIndexTokens) :
    (collectTokens (fragments word) out).length ≤ maxRecordStorageIndexTokens + 1 ∧
      (maxRecordStorageIndexTokens < (collectTokens (fragments word) out).length ↔ Overruns out word) ∧
      ∀ rest, collectTokens (fragments word ++ rest) out =
        if (collectTokens (fragments word) out).length < maxRecordStorageIndexTokens
        then collectTokens rest (collectTokens (fragments word) out) else collectTokens (fragments word) out := by
  by_cases long : 2 ≤ word.length
  · obtain ⟨more, same⟩ := fragments_eq long
    rw [same]
    by_cases short : word.length ≤ 4
    · have filled : word ≠ [] := by
        rintro rfl
        simp at long
      have grown := @addToken_length word out
      have newWord := @addToken_longer word out filled
      simp only [short, if_true, cons_append, nil_append, collectTokens, Bool.false_eq_true,
        false_and, if_false]
      by_cases below : (addToken out word).length < maxRecordStorageIndexTokens
      · obtain ⟨bound, continues⟩ := @collectTokens_checked (addToken out word) (word.take 2 :: more) below
        refine ⟨by omega, ⟨fun exceeds => by omega, fun overruns => ?_⟩, continues⟩
        have last := overruns.1
        have longer := newWord.mpr overruns.2.2.1
        omega
      · have end_ := @addToken_length (word.take 2) (addToken out word)
        have full : maxRecordStorageIndexTokens ≤ (addToken (addToken out word) (word.take 2)).length := by omega
        have newPart := @addToken_longer (word.take 2) (addToken out word) fun none => by simp_all
        have unknown : word ∉ out := newWord.mp (by omega)
        have held : addToken out word = out ++ [word] := if_neg (by simp [filled, unknown])
        simp only [map_cons, cons_append, collectTokens, true_and, if_pos full]
        refine ⟨by omega, ?_, fun rest => (if_neg (by omega)).symm⟩
        have cut : word.take 2 = word ↔ word.length = 2 := by
          rw [take_eq_self_iff]
          omega
        rw [show maxRecordStorageIndexTokens < (addToken (addToken out word) (word.take 2)).length ↔
          (addToken out word).length < (addToken (addToken out word) (word.take 2)).length by omega, newPart, held,
          mem_append, mem_singleton, not_or, cut]
        constructor
        · rintro ⟨new, notTwo⟩
          exact ⟨by omega, by omega, unknown, new⟩
        · rintro ⟨_, size, _, new⟩
          exact ⟨new, by omega⟩
    · rw [if_neg short, nil_append]
      obtain ⟨bound, continues⟩ := @collectTokens_checked out (word.take 2 :: more) few
      exact ⟨by omega, ⟨fun exceeds => by omega, fun overruns => by have size := overruns.2.1; omega⟩, continues⟩
  · rw [fragments, if_pos (by omega)]
    refine ⟨by simp only [collectTokens]; omega, ⟨fun exceeds => ?_, fun overruns => ?_⟩, fun rest => (if_pos few).symm⟩
    · simp only [collectTokens] at exceeds
      omega
    · have size := overruns.2.1
      omega

theorem collectTokens_words (words : List (List Char)) (few : out.length < maxRecordStorageIndexTokens) :
    (collectTokens (words.flatMap fragments) out).length ≤ maxRecordStorageIndexTokens + 1 ∧
      (maxRecordStorageIndexTokens < (collectTokens (words.flatMap fragments) out).length ↔
        ∃ before word after, words = before ++ word :: after ∧
          Overruns (collectTokens (before.flatMap fragments) out) word) := by
  induction words generalizing out with
  | nil => exact ⟨by simp only [flatMap_nil, collectTokens]; omega, by simp [collectTokens, few.le]⟩
  | cons word words ih =>
    obtain ⟨bound, overruns, continues⟩ := @collectTokens_word word out few
    rw [flatMap_cons, continues]
    by_cases below : (collectTokens (fragments word) out).length < maxRecordStorageIndexTokens
    · rw [if_pos below]
      obtain ⟨boundLater, later⟩ := ih below
      refine ⟨boundLater, later.trans ⟨?_, ?_⟩⟩
      · rintro ⟨before, other, after, rfl, there⟩
        exact ⟨word :: before, other, after, rfl, by rwa [flatMap_cons, continues, if_pos below]⟩
      · rintro ⟨before, other, after, split, there⟩
        cases before with
        | nil =>
          obtain ⟨rfl, rfl⟩ := cons.inj split
          have exceeds := overruns.mpr there
          omega
        | cons first before =>
          obtain ⟨rfl, rfl⟩ := cons.inj split
          rw [flatMap_cons, continues, if_pos below] at there
          exact ⟨before, other, after, rfl, there⟩
    · rw [if_neg below]
      refine ⟨bound, overruns.trans ⟨fun here => ⟨[], word, words, rfl, here⟩, ?_⟩⟩
      rintro ⟨before, other, after, split, there⟩
      cases before with
      | nil =>
        obtain ⟨rfl, rfl⟩ := cons.inj split
        exact there
      | cons first before =>
        obtain ⟨rfl, rfl⟩ := cons.inj split
        rw [flatMap_cons, continues, if_neg below] at there
        have last := there.1
        omega

/-- The search for tokens ends with different ones, none of them empty. There is at most one more
than the cap, and it is there exactly if the words before some word of three or four symbols have 63
different fragments, and neither the word nor its first two symbols are among these. -/
theorem storage_tokens_bounded_iff (unicode : Unicode) (idx : RecordIndex) :
    ∃ tokens, unicode.recordIndexStorageTokensInTable idx = some tokens ∧
      tokens = unicode.recordIndexStorageTokens idx ∧ tokens.Nodup ∧ [] ∉ tokens ∧
      tokens.length ≤ maxRecordStorageIndexTokens + 1 ∧
      (tokens.length ≤ maxRecordStorageIndexTokens ↔ ¬∃ before word after,
        unicode.recordSearchTokens idx.fileName ++ unicode.recordSearchTokens idx.storageURI =
          before ++ word :: after ∧ Overruns ((before.flatMap fragments).map Prod.fst).dedup word) := by
  obtain ⟨distinct, filled⟩ := @collectTokens_distinct [] (unicode.recordFragments idx) (by simp) (by simp)
  obtain ⟨bound, overruns⟩ := @collectTokens_words []
    (unicode.recordSearchTokens idx.fileName ++ unicode.recordSearchTokens idx.storageURI) (by decide)
  refine ⟨_, collectInTable_eq _ Table.ok_empty (Nat.lt_of_le_of_lt bound (by decide)), rfl, distinct, filled, bound,
    ?_⟩
  simp only [← overruns_iff]
  rw [← overruns, Nat.not_lt]
  rfl

end Unicode

/-- A word that gives 63 tokens, and a short one behind it. -/
theorem storage_tokens_exceed_cap :
    (Sample.ascii.recordIndexStorageTokensInTable { (default : RecordIndex) with
      fileName := "abcdefghijklmnopqrstuvwxyz0123456 aaa" }).map List.length = some 65 := by
  decide +kernel

end TrustDB.Model
