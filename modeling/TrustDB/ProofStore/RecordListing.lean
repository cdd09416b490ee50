import Mathlib
import TrustDB.Decimal
import TrustDB.ProofStore.LeafPages
import TrustDB.ProofStore.RecordKeys
import TrustDB.StorageTokens

/-!
`ListRecordIndexes` over Pebble: one of the lists of keys is chosen by the filters, and the iterator
walks through it in the order of the rendered keys, the receive time with leading zeros and the
record id.
-/

namespace TrustDB.ProofStore

open Result List CryptoSuite Model Decimal

abbrev Position := Int × String

def position (idx : RecordIndex) : Position := (idx.receivedAtUnixN, idx.recordID)

def zeroPaddedInt (value : Int) : List Char := (toString value).toList.leftpad rootSortKeyWidth '0'

/-- `appendRecordIndexSuffix`. -/
def recordIndexSuffix (position : Position) : List Char := zeroPaddedInt position.1 ++ '/' :: position.2.toList

/-- The end of `recordIndexUpperTimeKey`. -/
def upperTimeSuffix (receivedAtUnixN : Int) : List Char := zeroPaddedInt receivedAtUnixN ++ ['0']

/-- The keys of one list as Pebble orders them. -/
def Records.entries (records : Records) (list : RecordList) : List Position :=
  (records.keys.filterMap fun
    | .entry other time recordID => if other = list then some (time, recordID) else none
    | .byID _ => none).mergeSort fun left right => recordIndexSuffix left ≤ recordIndexSuffix right

/-- `recordListPrefix`. -/
def recordList (unicode : Unicode) (mode : RecordIndexMode) (opts : RecordListOptions) : RecordList :=
  let useSecondary := mode ≠ .timeOnly
  if useSecondary ∧ opts.contentHash ≠ [] then .content opts.contentHash
  else if mode = .full ∧ unicode.recordStorageQueryToken opts.query ≠ [] then
    .token (unicode.recordStorageQueryToken opts.query)
  else if useSecondary ∧ opts.batchID ≠ "" then .batch opts.batchID
  else if useSecondary ∧ opts.proofLevel ≠ "" then .level opts.proofLevel
  else if useSecondary ∧ opts.tenantID ≠ "" then .tenant opts.tenantID
  else if useSecondary ∧ opts.clientID ≠ "" then .client opts.clientID
  else .time

def recordRangeExhausted (idx : RecordIndex) (opts : RecordListOptions) : Bool :=
  match opts.direction with
  | .desc => 0 < opts.receivedFromUnixN ∧ idx.receivedAtUnixN < opts.receivedFromUnixN
  | .asc => 0 < opts.receivedToUnixN ∧ opts.receivedToUnixN < idx.receivedAtUnixN

/-- The entries that the iterator meets from its first position on. -/
def seek (opts : RecordListOptions) (entries : List Position) : List Position :=
  let hasCursor := opts.afterReceivedAtUnixN ≠ 0 ∨ opts.afterRecordID ≠ ""
  let cursor := recordIndexSuffix (opts.afterReceivedAtUnixN, opts.afterRecordID)
  match opts.direction with
  | .desc =>
    (if hasCursor then entries.takeWhile fun entry => recordIndexSuffix entry < cursor
    else if 0 < opts.receivedToUnixN then
      entries.takeWhile fun entry => recordIndexSuffix entry < upperTimeSuffix opts.receivedToUnixN
    else entries).reverse
  | .asc =>
    if hasCursor then entries.dropWhile fun entry => recordIndexSuffix entry < cursor
    else if 0 < opts.receivedFromUnixN then
      entries.dropWhile fun entry => recordIndexSuffix entry < recordIndexSuffix (opts.receivedFromUnixN, "")
    else entries

section

variable (unicode : Unicode) (records : Records) (list : RecordList) (opts : RecordListOptions)

/-- `readRecordIndexScanValue` of the value that the iterator stands at. -/
def readScanValue (entry : Position) : Outcome RecordIndex :=
  match records.lookup (.entry list entry.1 entry.2) with
  | some (.index idx) => .ok idx
  | some (.ref recordID) =>
    match records.indexAt recordID with
    | some idx => .ok idx
    | none => .error (.new .dataLoss "record index reference target not found")
  | none => .error (.text "no value")

def scanIndexes (limit : Nat) : List Position → List RecordIndex → Outcome (List RecordIndex)
  | [], found => .ok found
  | entry :: rest, found =>
    if limit ≤ found.length then .ok found
    else do
      let idx ← (readScanValue records list entry).mapError (.wrap .dataLoss "decode record index")
      if recordRangeExhausted idx opts then return found
      scanIndexes limit rest
        (if unicode.recordIndexMatchesListOptions idx opts && recordIndexAfterCursor idx opts then found ++ [idx]
        else found)

def listRecordIndexes (mode : RecordIndexMode) : Outcome (List RecordIndex) :=
  let list := recordList unicode mode opts
  scanIndexes unicode records list opts (normaliseRecordLimit opts.limit) (seek opts (records.entries list)) []

end

/-- A store whose keys are those of its indexes, with the levels that the writers give them and
receive times that a clock gives. -/
structure Listable (unicode : Unicode) (mode : RecordIndexMode) (records : Records) : Prop where
  keys : Exact unicode mode records
  level : ∀ recordID idx, records.indexAt recordID = some idx → recordIndexProofLevel idx = idx.proofLevel
  time : ∀ recordID idx, records.indexAt recordID = some idx → 0 < idx.receivedAtUnixN ∧ idx.receivedAtUnixN < 2 ^ 63

section

theorem zeroPaddedInt_natCast (n : Nat) : zeroPaddedInt n = padded rootSortKeyWidth n := by
  have digits : toString (n : Int) = Nat.repr n := rfl
  rw [zeroPaddedInt, digits, Nat.repr, String.toList_ofList, padded]

def Timed (time : Int) : Prop := 0 ≤ time ∧ time < 2 ^ 63

theorem Timed.exists_nat {time : Int} (timed : Timed time) : ∃ n : Nat, time = n ∧ n < 10 ^ rootSortKeyWidth := by
  obtain ⟨n, rfl⟩ := Int.eq_ofNat_of_zero_le timed.1
  have small := timed.2
  refine ⟨n, rfl, ?_⟩
  simp only [rootSortKeyWidth]
  omega

variable {left right : Position} {time : Int}

theorem suffix_lt (timed : Timed left.1) (otherTimed : Timed right.1) :
    recordIndexSuffix left < recordIndexSuffix right ↔ positionBefore left.1 left.2 right.1 right.2 = true := by
  obtain ⟨n, same, fits⟩ := timed.exists_nat
  obtain ⟨m, otherSame, otherFits⟩ := otherTimed.exists_nat
  rw [recordIndexSuffix, recordIndexSuffix, same, otherSame, zeroPaddedInt_natCast, zeroPaddedInt_natCast,
    padded_append_lt (by decide) fits otherFits]
  simp only [positionBefore, decide_eq_true_eq, String.lt_iff_toList_lt, cons_lt_cons_iff,
    lt_irrefl, false_or, true_and, Nat.cast_lt, Nat.cast_inj]

theorem suffix_inj (timed : Timed left.1) (otherTimed : Timed right.1)
    (same : recordIndexSuffix left = recordIndexSuffix right) : left = right := by
  have below := (suffix_lt timed otherTimed).not.mp (same ▸ lt_irrefl _)
  have above := (suffix_lt otherTimed timed).not.mp (same ▸ lt_irrefl _)
  simp only [positionBefore, decide_eq_true_eq, not_or, not_and, not_lt] at below above
  have time : left.1 = right.1 := le_antisymm above.1 below.1
  exact Prod.ext time (le_antisymm (above.2 time.symm) (below.2 time))

theorem upperTime_lt (timed : Timed left.1) (otherTimed : Timed time) :
    recordIndexSuffix left < upperTimeSuffix time ↔ left.1 ≤ time := by
  obtain ⟨n, same, fits⟩ := timed.exists_nat
  obtain ⟨m, rfl, otherFits⟩ := otherTimed.exists_nat
  have slash : '/' :: left.2.toList < ['0'] := cons_lt_cons_iff.mpr (.inl (by decide))
  rw [recordIndexSuffix, upperTimeSuffix, same, zeroPaddedInt_natCast, zeroPaddedInt_natCast,
    padded_append_lt (by decide) fits otherFits]
  simp only [slash, and_true]
  omega

end

section

variable {unicode : Unicode} {mode : RecordIndexMode} {records : Records} {list : RecordList}
  {opts : RecordListOptions} {direction : RecordListDirection}

theorem mem_entries {entry} :
    entry ∈ records.entries list ↔ (records.lookup (.entry list entry.1 entry.2)).isSome := by
  rw [Records.entries, mem_mergeSort, mem_filterMap, AList.lookup_isSome]
  constructor
  · rintro ⟨key, member, shown⟩
    cases key with
    | byID recordID => cases shown
    | entry other time recordID =>
      simp only [Option.ite_none_right_eq_some, Option.some.injEq] at shown
      obtain ⟨rfl, rfl⟩ := shown
      exact member
  · intro member
    exact ⟨_, member, by simp⟩

theorem Listable.mem_entries_iff (listable : Listable unicode mode records) {entry} :
    entry ∈ records.entries list ↔ ∃ idx, records.indexAt entry.2 = some idx ∧ position idx = entry ∧
      list ∈ recordLists unicode mode idx ∧ records.lookup (.entry list entry.1 entry.2) = some (.ref entry.2) := by
  rw [mem_entries]
  constructor
  · intro present
    obtain ⟨value, found⟩ := Option.isSome_iff_exists.mp present
    rw [listable.keys] at found
    obtain ⟨idx, current, shown⟩ := Option.bind_eq_some_iff.mp found
    simp only [Option.ite_none_right_eq_some, Option.some.injEq] at shown
    obtain ⟨visited, rfl⟩ := shown
    rcases (mem_visit.mp visited).2 with other | ⟨own, member, same⟩
    · cases other
    · simp only [RecordKey.entry.injEq] at same
      obtain ⟨rfl, time, id_⟩ := same
      refine ⟨idx, current, Prod.ext time.symm id_.symm, member, ?_⟩
      rw [listable.keys, found, recordValue, id_]
  · rintro ⟨idx, _, _, _, found⟩
    rw [found]
    rfl

/-- The order of a listing. -/
def inOrder (direction : RecordListDirection) (idx other : RecordIndex) : Prop :=
  match direction with
  | .asc => positionBefore idx.receivedAtUnixN idx.recordID other.receivedAtUnixN other.recordID = true
  | .desc => positionBefore other.receivedAtUnixN other.recordID idx.receivedAtUnixN idx.recordID = true

instance : ∀ direction, DecidableRel (inOrder direction)
  | .asc => fun _ _ => inferInstanceAs (Decidable (_ = true))
  | .desc => fun _ _ => inferInstanceAs (Decidable (_ = true))

theorem inOrder_irrefl {idx} : ¬inOrder direction idx idx := by
  cases direction <;> simp [inOrder, positionBefore]

def storedAt (records : Records) (entry : Position) : RecordIndex := (records.indexAt entry.2).getD default

def turned {α : Type} (direction : RecordListDirection) (items : List α) : List α :=
  match direction with
  | .asc => items
  | .desc => items.reverse

theorem mem_turned {α : Type} {items : List α} {item : α} :
    item ∈ turned direction items ↔ item ∈ items := by
  cases direction with
  | asc => exact Iff.rfl
  | desc => exact mem_reverse

/-- The indexes of a list in the direction of the listing. -/
def directed (records : Records) (list : RecordList) (direction : RecordListDirection) : List RecordIndex :=
  (turned direction (records.entries list)).map (storedAt records)

variable (listable : Listable unicode mode records)
include listable

theorem Listable.stored {entry : Position} (member : entry ∈ records.entries list) :
    position (storedAt records entry) = entry ∧ records.indexAt entry.2 = some (storedAt records entry) ∧
      list ∈ recordLists unicode mode (storedAt records entry) ∧
      readScanValue records list entry = .ok (storedAt records entry) ∧ Timed entry.1 ∧ entry.1 ≠ 0 := by
  obtain ⟨idx, current, same, listed, found⟩ := listable.mem_entries_iff.mp member
  have stored : storedAt records entry = idx := by rw [storedAt, current, Option.getD_some]
  obtain ⟨positive, small⟩ := listable.time _ _ current
  have time : idx.receivedAtUnixN = entry.1 := congrArg Prod.fst same
  rw [stored]
  refine ⟨same, current, listed, ?_, ⟨by omega, by omega⟩, by omega⟩
  simp [readScanValue, found, current]

theorem Listable.entries_ordered :
    (records.entries list).Pairwise fun left right => positionBefore left.1 left.2 right.1 right.2 = true := by
  have sorted : (records.entries list).Pairwise fun left right =>
      decide (recordIndexSuffix left ≤ recordIndexSuffix right) = true := by
    apply pairwise_mergeSort
    · intro first second third below above
      rw [decide_eq_true_eq] at *
      exact le_trans below above
    · intro first second
      rw [Bool.or_eq_true, decide_eq_true_eq, decide_eq_true_eq]
      exact le_total _ _
  have nodup : (records.entries list).Nodup := by
    rw [Records.entries, (mergeSort_perm _ _).nodup_iff]
    refine records.keys_nodup.filterMap fun key other shown first second => ?_
    cases key with
    | byID recordID => cases first
    | entry own time recordID =>
      cases other with
      | byID recordID => cases second
      | entry own time recordID =>
        simp only [Option.mem_def, Option.ite_none_right_eq_some, Option.some.injEq] at first second
        obtain ⟨rfl, same⟩ := first
        obtain ⟨rfl, rfl⟩ := second
        cases same
        rfl
  refine (pairwise_and_iff.mpr ⟨sorted, nodup⟩).imp_of_mem ?_
  rintro left right member otherMember ⟨below, different⟩
  have timed := (listable.stored member).2.2.2.2.1
  have otherTimed := (listable.stored otherMember).2.2.2.2.1
  rw [decide_eq_true_eq] at below
  rcases lt_or_eq_of_le below with less | same
  · exact (suffix_lt timed otherTimed).mp less
  · exact absurd (suffix_inj timed otherTimed same) different

theorem Listable.directed_ordered (direction : RecordListDirection) :
    (directed records list direction).Pairwise (inOrder direction) := by
  refine pairwise_map.mpr ?_
  have upwards : (records.entries list).Pairwise fun left right =>
      inOrder .asc (storedAt records left) (storedAt records right) := by
    refine listable.entries_ordered.imp_of_mem fun {left right} member otherMember before => ?_
    have own := (listable.stored member).1
    have other := (listable.stored otherMember).1
    rw [← own, ← other] at before
    exact before
  cases direction with
  | asc => exact upwards
  | desc => exact pairwise_reverse.mpr upwards

theorem Listable.mem_directed {idx : RecordIndex} :
    idx ∈ directed records list direction ↔
      records.indexAt idx.recordID = some idx ∧ list ∈ recordLists unicode mode idx := by
  simp only [directed, mem_map, mem_turned]
  constructor
  · rintro ⟨entry, listed, rfl⟩
    obtain ⟨same, current, belongs, _⟩ := listable.stored listed
    have id_ : (storedAt records entry).recordID = entry.2 := congrArg Prod.snd same
    exact ⟨id_ ▸ current, belongs⟩
  · rintro ⟨current, belongs⟩
    refine ⟨position idx, ?_, by simp [storedAt, position, current]⟩
    refine listable.mem_entries_iff.mpr ⟨idx, current, rfl, belongs, ?_⟩
    have visited : .entry list idx.receivedAtUnixN idx.recordID ∈ visitRecordIndexKeys unicode mode idx :=
      mem_visit.mpr ⟨(listable.keys.own current).2, .inr ⟨list, belongs, rfl⟩⟩
    rw [listable.keys]
    simp [image, position, RecordKey.recordID, current, visited, recordValue]

end

section

variable {unicode : Unicode} {mode : RecordIndexMode} {records : Records} {list : RecordList}
  {opts : RecordListOptions} {idx : RecordIndex}

def accepts (unicode : Unicode) (opts : RecordListOptions) (idx : RecordIndex) : Bool :=
  unicode.recordIndexMatchesListOptions idx opts && recordIndexAfterCursor idx opts

theorem scanIndexes_eq {limit : Nat} (entries : List Position) : ∀ found : List RecordIndex,
    (∀ entry ∈ entries, readScanValue records list entry = .ok (storedAt records entry)) →
      scanIndexes unicode records list opts limit entries found =
        .ok (Paging.scan limit (recordRangeExhausted · opts) (accepts unicode opts) found
          (entries.map (storedAt records))) := by
  induction entries with
  | nil => intro found _; rfl
  | cons entry rest ih =>
    intro found reads
    obtain ⟨here, later⟩ := forall_mem_cons.mp reads
    rw [scanIndexes, map_cons, Paging.scan]
    by_cases full : limit ≤ found.length
    · rw [if_pos full, if_pos full]
    · rw [if_neg full, if_neg full, here]
      by_cases ends : recordRangeExhausted (storedAt records entry) opts = true
      · simp [Except.mapError, ends]
      · simp only [Except.mapError, ok_bind, ends, Bool.false_eq_true, ↓reduceIte]
        exact ih _ later

theorem seek_sublist (entries : List Position) : (seek opts entries).Sublist (turned opts.direction entries) := by
  unfold seek turned
  cases opts.direction with
  | asc =>
    dsimp only
    split
    · exact dropWhile_sublist _
    · split
      · exact dropWhile_sublist _
      · exact Sublist.refl _
  | desc =>
    refine reverse_sublist.mpr ?_
    split
    · exact takeWhile_sublist _
    · split
      · exact takeWhile_sublist _
      · exact Sublist.refl _

/-- A cursor is the position of a listed index, or none; time bounds are `int64` values. -/
structure Asked (opts : RecordListOptions) : Prop where
  cursor : opts.afterReceivedAtUnixN = 0 ∧ opts.afterRecordID = "" ∨ 0 < opts.afterReceivedAtUnixN
  small : opts.afterReceivedAtUnixN < 2 ^ 63
  fromSmall : opts.receivedFromUnixN < 2 ^ 63
  toSmall : opts.receivedToUnixN < 2 ^ 63

theorem positionBefore_asymm {time other id_ otherID} (before : positionBefore time id_ other otherID = true) :
    positionBefore other otherID time id_ = false := by
  simp only [positionBefore, decide_eq_true_eq, decide_eq_false_iff_not] at before ⊢
  rintro (later | ⟨same, later⟩)
  · rcases before with earlier | ⟨same, _⟩ <;> omega
  · rcases before with earlier | ⟨_, earlier⟩
    · omega
    · exact lt_asymm earlier later

theorem not_accepts_of_time
    (outside : 0 < opts.receivedFromUnixN ∧ idx.receivedAtUnixN < opts.receivedFromUnixN ∨
      0 < opts.receivedToUnixN ∧ opts.receivedToUnixN < idx.receivedAtUnixN) : accepts unicode opts idx = false := by
  have fails : unicode.recordIndexMatchesListOptions idx opts = false := by
    simp only [Unicode.recordIndexMatchesListOptions, decide_eq_false_iff_not]
    rintro ⟨_, _, _, _, _, above, below, _⟩
    rcases outside with ⟨positive, early⟩ | ⟨positive, late⟩
    · have := above positive
      omega
    · have := below positive
      omega
  rw [accepts, fails, Bool.false_and]

theorem Listable.filter_seek (listable : Listable unicode mode records) (asked : Asked opts) :
    ((seek opts (records.entries list)).map (storedAt records)).filter (accepts unicode opts) =
      (directed records list opts.direction).filter (accepts unicode opts) := by
  have cursorTimed : Timed opts.afterReceivedAtUnixN := ⟨by rcases asked.cursor with ⟨_, _⟩ | _ <;> omega, asked.small⟩
  have known : ∀ entry ∈ records.entries list, Timed entry.1 ∧
      (storedAt records entry).receivedAtUnixN = entry.1 ∧ (storedAt records entry).recordID = entry.2 := by
    intro entry member
    obtain ⟨same, _, _, _, timed, _⟩ := listable.stored member
    exact ⟨timed, congrArg Prod.fst same, congrArg Prod.snd same⟩
  have behind : ∀ entry, (opts.afterReceivedAtUnixN ≠ 0 ∨ opts.afterRecordID ≠ "") →
      recordIndexAfterCursor (storedAt records entry) opts = false →
      accepts unicode opts (storedAt records entry) = false :=
    fun entry _ not_ => by rw [accepts, not_, Bool.and_false]
  unfold seek directed turned
  cases direction : opts.direction with
  | asc =>
    simp only [filter_map]
    congr 1
    split
    · rename_i has
      refine Paging.filter_dropWhile fun entry member below => behind entry has ?_
      obtain ⟨timed, time, id_⟩ := known entry member
      have before := (@suffix_lt entry (opts.afterReceivedAtUnixN, opts.afterRecordID) timed cursorTimed).mp
        (by simpa using below)
      rw [recordIndexAfterCursor, if_neg (by tauto), direction]
      simp only [time, id_]
      exact positionBefore_asymm before
    · split
      · rename_i positive
        refine Paging.filter_dropWhile fun entry member below => not_accepts_of_time (.inl ⟨positive, ?_⟩)
        obtain ⟨timed, time, _⟩ := known entry member
        have before := (@suffix_lt entry (opts.receivedFromUnixN, "") timed ⟨by omega, asked.fromSmall⟩).mp
          (by simpa using below)
        simp only [positionBefore, decide_eq_true_eq] at before
        rcases before with earlier | ⟨_, none_⟩
        · omega
        · exact absurd (String.lt_iff_toList_lt.mp none_) (not_lt_nil _)
      · rfl
  | desc =>
    have cut (bound : List Char) (refused : ∀ entry ∈ records.entries list, ¬recordIndexSuffix entry < bound →
        accepts unicode opts (storedAt records entry) = false) :
        ((records.entries list).takeWhile fun entry => recordIndexSuffix entry < bound).filter
            (accepts unicode opts ∘ storedAt records) =
          (records.entries list).filter (accepts unicode opts ∘ storedAt records) := by
      have whole_ := @Paging.filter_takeWhile Position (fun entry => !decide (recordIndexSuffix entry < bound))
        (accepts unicode opts ∘ storedAt records) (records.entries list)
        (listable.entries_ordered.imp_of_mem fun {left right} member otherMember before stops => by
          have less := (suffix_lt (known left member).1 (known right otherMember).1).mpr before
          refine refused right otherMember fun below => ?_
          simp [lt_trans less below] at stops)
        (fun entry member stops => refused entry member (by simpa using stops))
      simpa using whole_
    simp only [map_reverse, filter_reverse, filter_map]
    congr 2
    split
    · rename_i has
      refine cut _ fun entry member above => behind entry has ?_
      obtain ⟨timed, time, id_⟩ := known entry member
      rw [recordIndexAfterCursor, if_neg (by tauto), direction]
      simp only [time, id_]
      exact Bool.eq_false_iff.mpr fun before => above
        ((@suffix_lt entry (opts.afterReceivedAtUnixN, opts.afterRecordID) timed cursorTimed).mpr before)
    · split
      · rename_i positive
        refine cut _ fun entry member above => not_accepts_of_time (.inr ⟨positive, ?_⟩)
        obtain ⟨timed, time, _⟩ := known entry member
        rw [upperTime_lt timed ⟨by omega, asked.toSmall⟩] at above
        omega
      · rfl

theorem Listable.page (listable : Listable unicode mode records) (asked : Asked opts) :
    listRecordIndexes unicode records opts mode = .ok
      (((directed records (recordList unicode mode opts) opts.direction).filter (accepts unicode opts)).take
        (normaliseRecordLimit opts.limit)) := by
  have visited := @seek_sublist opts (records.entries (recordList unicode mode opts))
  have reads : ∀ entry ∈ seek opts (records.entries (recordList unicode mode opts)),
      readScanValue records (recordList unicode mode opts) entry = .ok (storedAt records entry) := fun entry member =>
    (listable.stored (mem_turned.mp (visited.subset member))).2.2.2.1
  rw [listRecordIndexes, scanIndexes_eq _ _ reads, Paging.scan_eq _ _ _ _ _ (Nat.zero_le _), nil_append,
    length_nil, Nat.sub_zero, Paging.filter_takeWhile, listable.filter_seek asked]
  · refine ((listable.directed_ordered opts.direction).sublist (visited.map _)).imp fun {idx other} before stops => ?_
    apply not_accepts_of_time
    cases direction : opts.direction with
    | asc =>
      simp only [direction, inOrder, positionBefore, recordRangeExhausted, decide_eq_true_eq] at before stops
      exact .inr ⟨stops.1, by omega⟩
    | desc =>
      simp only [direction, inOrder, positionBefore, recordRangeExhausted, decide_eq_true_eq] at before stops
      exact .inl ⟨stops.1, by omega⟩
  · intro idx _ stops
    apply not_accepts_of_time
    cases direction : opts.direction with
    | asc => exact .inr (by simpa [direction, recordRangeExhausted] using stops)
    | desc => exact .inl (by simpa [direction, recordRangeExhausted] using stops)

theorem recordList_mem (plain : opts.query = "") (level : recordIndexProofLevel idx = idx.proofLevel)
    (matched : unicode.recordIndexMatchesListOptions idx opts = true) :
    recordList unicode mode opts ∈ recordLists unicode mode idx := by
  simp only [Unicode.recordIndexMatchesListOptions, decide_eq_true_eq, level] at matched
  obtain ⟨batch, tenant, client, level, content, _⟩ := matched
  have noToken : unicode.recordStorageQueryToken opts.query = [] := by
    rw [plain]
    rfl
  have listed {value own : String} {place : String → RecordList} (some_ : value ≠ "")
      (same : value = "" ∨ own = value) : place value ∈ given own place := by
    rw [given, same.resolve_left some_, if_neg some_]
    exact mem_singleton_self _
  have secondary {list : RecordList} (not_ : mode ≠ .timeOnly)
      (member : list ∈ given idx.batchID .batch ++ given idx.proofLevel .level ++ given idx.tenantID .tenant ++
        given idx.clientID .client) : list ∈ recordLists unicode mode idx := by
    rw [recordLists, if_neg not_]
    exact mem_cons_of_mem _ (mem_append_left _ (mem_append_left _ member))
  simp only [mem_append] at secondary
  unfold recordList
  dsimp only
  split
  · rename_i chosen
    simp [recordLists, chosen.1, content.resolve_left chosen.2, chosen.2]
  · split
    · rename_i chosen
      exact absurd noToken chosen.2
    · split
      · rename_i chosen
        exact secondary chosen.1 (.inl (.inl (.inl (listed chosen.2 batch))))
      · split
        · rename_i chosen
          exact secondary chosen.1 (.inl (.inl (.inr (listed chosen.2 level))))
        · split
          · rename_i chosen
            exact secondary chosen.1 (.inl (.inr (listed chosen.2 tenant)))
          · split
            · rename_i chosen
              exact secondary chosen.1 (.inr (listed chosen.2 client))
            · exact mem_cons_self

def cursorOptions (opts : RecordListOptions) (cursor : Position) : RecordListOptions :=
  { opts with afterReceivedAtUnixN := cursor.1, afterRecordID := cursor.2 }

/-- The indexes that a listing is to give. -/
def wanted (unicode : Unicode) (mode : RecordIndexMode) (records : Records) (opts : RecordListOptions) :
    List RecordIndex :=
  (directed records (recordList unicode mode opts) opts.direction).filter
    (unicode.recordIndexMatchesListOptions · opts)

theorem recordIndexAfterCursor_iff {last} (given_ : last.receivedAtUnixN ≠ 0) :
    recordIndexAfterCursor idx (cursorOptions opts (position last)) = true ↔ inOrder opts.direction last idx := by
  have has : ¬((cursorOptions opts (position last)).afterReceivedAtUnixN = 0 ∧
      (cursorOptions opts (position last)).afterRecordID = "") := fun none_ => given_ none_.1
  rw [recordIndexAfterCursor, if_neg has]
  cases direction : opts.direction <;> simp [cursorOptions, position, direction, inOrder]

theorem inOrder_asymm {direction other} (before : inOrder direction idx other) :
    ¬inOrder direction other idx := by
  cases direction with
  | asc => exact Bool.eq_false_iff.mp (positionBefore_asymm before)
  | desc => exact Bool.eq_false_iff.mp (positionBefore_asymm before)

theorem Listable.accepted (listable : Listable unicode mode records) {front rest cursor}
    (split : wanted unicode mode records opts = front ++ rest)
    (at_ : Paging.CursorAt position (0, "") front cursor) :
    (directed records (recordList unicode mode opts) opts.direction).filter
      (accepts unicode (cursorOptions opts cursor)) = rest := by
  have both : (directed records (recordList unicode mode opts) opts.direction).filter
      (accepts unicode (cursorOptions opts cursor)) =
        (front ++ rest).filter (recordIndexAfterCursor · (cursorOptions opts cursor)) := by
    rw [← split, wanted, filter_filter]
    exact filter_congr fun idx _ => Bool.and_comm _ _
  rw [both]
  rcases at_ with ⟨rfl, rfl⟩ | ⟨last, found, rfl⟩
  · exact filter_eq_self.mpr fun idx _ => by simp [recordIndexAfterCursor, cursorOptions]
  · have ordered : (front ++ rest).Pairwise (inOrder opts.direction) :=
      split ▸ (listable.directed_ordered opts.direction).filter _
    have member : last ∈ front ++ rest := mem_append_left _ (mem_of_getLast? found)
    rw [← split, wanted, mem_filter, listable.mem_directed] at member
    have given_ : last.receivedAtUnixN ≠ 0 := (listable.time _ _ member.1.1).1.ne'
    refine Paging.filter_after ordered found (fun idx => (recordIndexAfterCursor_iff given_).mpr) fun idx earlier => ?_
    refine Bool.eq_false_iff.mpr fun after => ?_
    have behind := (recordIndexAfterCursor_iff given_).mp after
    rcases earlier with rfl | before
    · exact inOrder_irrefl behind
    · exact inOrder_asymm before behind

theorem normaliseRecordLimit_pos (limit : Int) : 0 < normaliseRecordLimit limit := by
  unfold normaliseRecordLimit
  split
  · decide
  · split <;> omega

theorem Listable.pages (listable : Listable unicode mode records)
    (bounds : opts.receivedFromUnixN < 2 ^ 63 ∧ opts.receivedToUnixN < 2 ^ 63) :
    ∃ page : Position → List RecordIndex,
      (∀ cursor, (cursor = (0, "") ∨ ∃ recordID idx, records.indexAt recordID = some idx ∧ position idx = cursor) →
        listRecordIndexes unicode records (cursorOptions opts cursor) mode = .ok (page cursor)) ∧
      ∃ fuel listed, Paging.follow page position (normaliseRecordLimit opts.limit) fuel (0, "") = some listed ∧
        listed.Pairwise (inOrder opts.direction) ∧ listed.Nodup ∧
        ∀ idx, idx ∈ listed ↔ (records.indexAt idx.recordID = some idx ∧
          recordList unicode mode opts ∈ recordLists unicode mode idx) ∧
          unicode.recordIndexMatchesListOptions idx opts = true := by
  refine ⟨fun cursor => ((directed records (recordList unicode mode opts) opts.direction).filter
    (accepts unicode (cursorOptions opts cursor))).take (normaliseRecordLimit opts.limit), fun cursor from_ => ?_, ?_⟩
  · have asked : Asked (cursorOptions opts cursor) := by
      rcases from_ with rfl | ⟨recordID, idx, current, rfl⟩
      · exact ⟨.inl ⟨rfl, rfl⟩, show (0 : Int) < 2 ^ 63 by decide, bounds.1, bounds.2⟩
      · obtain ⟨positive, small⟩ := listable.time recordID idx current
        exact ⟨.inr positive, small, bounds.1, bounds.2⟩
    exact listable.page asked
  · have ordered : (wanted unicode mode records opts).Pairwise (inOrder opts.direction) :=
      (listable.directed_ordered opts.direction).filter _
    obtain ⟨fuel, listed⟩ := Paging.follow_eq_some (normaliseRecordLimit_pos opts.limit)
      fun front rest cursor split _ at_ =>
        congrArg (List.take (normaliseRecordLimit opts.limit)) (listable.accepted split at_)
    refine ⟨fuel, wanted unicode mode records opts, listed, ordered, ?_, fun idx => ?_⟩
    · refine ordered.imp fun {idx other} before same => ?_
      subst same
      exact inOrder_irrefl before
    · rw [wanted, List.mem_filter, listable.mem_directed]

theorem listable_empty : Listable unicode mode ∅ :=
  ⟨fun _ => rfl, fun _ _ found => (by cases found), fun _ _ found => (by cases found)⟩

theorem Listable.stage (listable : Listable unicode mode records) (fresh : records.indexAt idx.recordID = none)
    (named : idx.recordID ≠ "") (level : recordIndexProofLevel idx = idx.proofLevel)
    (time : 0 < idx.receivedAtUnixN ∧ idx.receivedAtUnixN < 2 ^ 63) :
    Listable unicode mode (stageRecordIndexSet unicode mode idx records) := by
  have current (recordID : String) : (stageRecordIndexSet unicode mode idx records).indexAt recordID =
      if recordID = idx.recordID then some idx else records.indexAt recordID := by
    rw [indexAt_set]
    by_cases own : recordID = idx.recordID <;> simp [own, named]
  have either {recordID : String} {found : RecordIndex}
      (at_ : (stageRecordIndexSet unicode mode idx records).indexAt recordID = some found) :
      found = idx ∨ records.indexAt recordID = some found := by
    rw [current] at at_
    split at at_
    · exact .inl (Option.some.inj at_).symm
    · exact .inr at_
  refine ⟨fun key => ?_, fun _ _ at_ => ?_, fun _ _ at_ => ?_⟩
  · rw [current, stageRecordIndexSet, lookup_setKeys, listable.keys]
    by_cases visited : key ∈ visitRecordIndexKeys unicode mode idx
    · simp [image, visited, recordID_of_visit visited]
    · by_cases own : key.recordID = idx.recordID <;> simp [image, visited, own, fresh]
  · rcases either at_ with rfl | before
    · exact level
    · exact listable.level _ _ before
  · rcases either at_ with rfl | before
    · exact time
    · exact listable.time _ _ before

end

/-- Following the pages lists the indexes that pass the filters, in the order of the receive times and
the record ids and each of them once, whichever list of keys they are read from. -/
theorem record_pages_complete {unicode : Unicode} {mode : RecordIndexMode} {records : Records}
    {opts : RecordListOptions} (listable : Listable unicode mode records) (plain : opts.query = "")
    (bounds : opts.receivedFromUnixN < 2 ^ 63 ∧ opts.receivedToUnixN < 2 ^ 63) :
    ∃ page : Position → List RecordIndex,
      (∀ cursor, (cursor = (0, "") ∨ ∃ recordID idx, records.indexAt recordID = some idx ∧ position idx = cursor) →
        listRecordIndexes unicode records (cursorOptions opts cursor) mode = .ok (page cursor)) ∧
      ∃ fuel listed, Paging.follow page position (normaliseRecordLimit opts.limit) fuel (0, "") = some listed ∧
        listed.Pairwise (inOrder opts.direction) ∧ listed.Nodup ∧
        ∀ idx, idx ∈ listed ↔ records.indexAt idx.recordID = some idx ∧
          unicode.recordIndexMatchesListOptions idx opts = true := by
  obtain ⟨page, pages, fuel, listed, followed, ordered, once, members⟩ := listable.pages bounds
  refine ⟨page, pages, fuel, listed, followed, ordered, once, fun idx => (members idx).trans ?_⟩
  constructor
  · rintro ⟨⟨current, _⟩, matched⟩
    exact ⟨current, matched⟩
  · rintro ⟨current, matched⟩
    exact ⟨⟨current, recordList_mem plain (listable.level _ _ current) matched⟩, matched⟩

namespace Sample

def listed (recordID : String) (receivedAtUnixN : Int) : RecordIndex :=
  { (default : RecordIndex) with recordID, proofLevel := "L2", receivedAtUnixN }

def staged : List RecordIndex → Records
  | [] => ∅
  | idx :: rest => stageRecordIndexSet Model.Sample.ascii .full idx (staged rest)

theorem mem_of_staged {indexes : List RecordIndex} {recordID idx}
    (found : (staged indexes).indexAt recordID = some idx) : idx ∈ indexes := by
  induction indexes with
  | nil => cases found
  | cons first rest ih =>
    rw [staged, indexAt_set] at found
    split at found
    · cases found
      exact mem_cons_self
    · exact mem_cons_of_mem _ (ih found)

def arriving : List RecordIndex := [listed "tr1c" 7, listed "tr1a" 7, listed "tr1d" 5, listed "tr1b" 7]

def sorted : List RecordIndex := [listed "tr1d" 5, listed "tr1a" 7, listed "tr1b" 7, listed "tr1c" 7]

theorem arriving_listable : Listable Model.Sample.ascii .full (staged arriving) := by
  refine .stage (.stage (.stage (.stage listable_empty ?_ ?_ ?_ ?_) ?_ ?_ ?_ ?_) ?_ ?_ ?_ ?_) ?_ ?_ ?_ ?_
  all_goals decide +kernel

end Sample

/-- Four indexes, three of them with the same time, one on each page. -/
theorem record_pages_sample :
    let opts := { (default : RecordListOptions) with proofLevel := "L2", limit := 1 }
    ∃ page : Position → List RecordIndex,
      (∀ cursor, (cursor = (0, "") ∨
          ∃ recordID idx, (Sample.staged Sample.arriving).indexAt recordID = some idx ∧ position idx = cursor) →
        listRecordIndexes Model.Sample.ascii (Sample.staged Sample.arriving) (cursorOptions opts cursor) .full =
          .ok (page cursor)) ∧
      ∃ fuel, Paging.follow page position 1 fuel (0, "") = some Sample.sorted := by
  intro opts
  obtain ⟨page, pages, fuel, found, followed, ordered, once, members⟩ :=
    record_pages_complete Sample.arriving_listable (show opts.query = "" from rfl) (by decide +kernel)
  refine ⟨page, pages, fuel, followed.trans (congrArg some ?_)⟩
  have sorted : Sample.sorted.Pairwise (inOrder .asc) := by decide +kernel
  refine Perm.eq_of_pairwise (fun _ _ _ _ before after => absurd after (inOrder_asymm before)) ordered sorted
    ((perm_ext_iff_of_nodup once (by decide +kernel)).mpr fun idx => (members idx).trans ?_)
  constructor
  · rintro ⟨current, _⟩
    have reordered : Sample.arriving ~ Sample.sorted := by decide +kernel
    exact reordered.mem_iff.mp (Sample.mem_of_staged current)
  · have stored : ∀ idx ∈ Sample.sorted, (Sample.staged Sample.arriving).indexAt idx.recordID = some idx ∧
        Model.Sample.ascii.recordIndexMatchesListOptions idx opts = true := by
      decide +kernel
    exact stored idx

end TrustDB.ProofStore
