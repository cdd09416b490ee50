import Mathlib
import TrustDB.AnchorSchedule.Spec
import TrustDB.ProofStore.AnchorStore

/-!
References to latest results. Each of them names a maximum among the stored results of its stream,
or is empty where the stream has none; no call changes that, whichever of its accesses fail.
-/

namespace TrustDB.ProofStore

open Result List Option CryptoSuite Model AnchorSchedule

def rank (key : STHAnchorResultKey) : Nat ×ₗ String := toLex (key.treeSize, resultKeyOrderIdentity key)

theorem compareResultKeys_le {left right} : compareResultKeys left right ≤ 0 ↔ rank left ≤ rank right := by
  rw [rank, rank, Prod.Lex.le_iff]
  unfold compareResultKeys
  simp only [ofLex_toLex]
  rcases lt_trichotomy left.treeSize right.treeSize with smaller | same | larger
  · simp [smaller]
  · rcases lt_trichotomy (resultKeyOrderIdentity left) (resultKeyOrderIdentity right) with before | equal | behind
    · simp [same, before, before.le]
    · simp [same, equal]
    · simp [same, behind, behind.not_gt, behind.not_ge]
  · simp [larger, larger.not_gt, larger.ne']

theorem compareResultKeys_trans {left middle right} (one : compareResultKeys left middle ≤ 0)
    (two : compareResultKeys middle right ≤ 0) : compareResultKeys left right ≤ 0 :=
  compareResultKeys_le.mpr ((compareResultKeys_le.mp one).trans (compareResultKeys_le.mp two))

theorem compareResultKeys_total (left right : STHAnchorResultKey) :
    compareResultKeys left right ≤ 0 ∨ compareResultKeys right left ≤ 0 := by
  rw [compareResultKeys_le, compareResultKeys_le]
  exact le_total _ _

theorem compareResultKeys_refl (key : STHAnchorResultKey) : compareResultKeys key key ≤ 0 :=
  compareResultKeys_le.mpr le_rfl

def InStream (stream : Option STHAnchorScheduleKey) (result : STHAnchorResult) : Prop :=
  ∀ key, stream = some key → streamOf result = key

def Holds (tables : AnchorTables) (stream : Option STHAnchorScheduleKey) (result : STHAnchorResult) : Prop :=
  tables.results.lookup (resultKey result) = some result ∧ InStream stream result

structure Maximum (tables : AnchorTables) (stream : Option STHAnchorScheduleKey) (result : STHAnchorResult) :
    Prop where
  held : Holds tables stream result
  largest : ∀ other, Holds tables stream other → compareResultKeys (resultKey other) (resultKey result) ≤ 0

def Names (tables : AnchorTables) (stream : Option STHAnchorScheduleKey) : Prop :=
  (∃ result, Maximum tables stream result ∧ tables.latest.lookup stream = some (latestReference result)) ∨
    ((∀ result, ¬Holds tables stream result) ∧
      ∀ ref, tables.latest.lookup stream = some ref → emptyLatestReferenceMatches ref stream = true)

def References (tables : AnchorTables) : Prop := ∀ stream, Names tables stream

def Latest (tables : AnchorTables) (stream : Option STHAnchorScheduleKey) : Option STHAnchorResult → Prop
  | some result => Maximum tables stream result
  | none => ∀ result, ¬Holds tables stream result

section

variable {library : Library} {suite : ID} {faults : AnchorFaults} {tables next : AnchorTables}
  {stream : Option STHAnchorScheduleKey}

theorem holds_of_same (results : next.results = tables.results) {result} :
    Holds next stream result ↔ Holds tables stream result := by
  rw [Holds, Holds, results]

theorem Names.of_same (named : Names tables stream) (results : next.results = tables.results)
    (latest : next.latest.lookup stream = tables.latest.lookup stream) : Names next stream := by
  rcases named with ⟨result, maximum, ref⟩ | ⟨empty, ref⟩
  · exact .inl ⟨result, ⟨(holds_of_same results).mpr maximum.held,
      fun other held => maximum.largest other ((holds_of_same results).mp held)⟩, latest.trans ref⟩
  · exact .inr ⟨fun result held => empty result ((holds_of_same results).mp held),
      fun other found => ref other (latest.symm.trans found)⟩

theorem References.of_same (references : References tables) (results : next.results = tables.results)
    (latest : next.latest = tables.latest) : References next :=
  fun stream => (references stream).of_same results (by rw [latest])

theorem references_empty : References .empty :=
  fun _ => .inr ⟨fun _ held => (nomatch held.1), fun _ found => (nomatch found)⟩

theorem emptyLatestReference_matches (stream : Option STHAnchorScheduleKey) :
    emptyLatestReferenceMatches (emptyLatestReference stream) stream = true := by
  simp [emptyLatestReferenceMatches, validEmptyLatestReference, emptyLatestReference, sameKey, scheduleKey]

theorem latestReference_not_empty (result : STHAnchorResult) :
    emptyLatestReferenceMatches (latestReference result) stream = false := by
  simp [emptyLatestReferenceMatches, validEmptyLatestReference, latestReference, schemaSTHAnchorLatest,
    schemaSTHAnchorLatestEmpty]

theorem References.rewrite (references : References tables) {latest} (correct : Latest tables stream latest) :
    References (tables.write (.latest stream (latest.elim (emptyLatestReference stream) latestReference))) := by
  intro other
  by_cases same : other = stream
  · subst same
    cases latest with
    | some result => exact .inl ⟨result, ⟨correct.held, correct.largest⟩, AList.lookup_insert _⟩
    | none =>
      refine .inr ⟨correct, fun ref found => ?_⟩
      rw [← some.inj ((AList.lookup_insert _).symm.trans found)]
      exact emptyLatestReference_matches other
  · exact (references other).of_same rfl (AList.lookup_insert_ne same)

structure Added (tables last : AnchorTables) (result : STHAnchorResult) : Prop where
  present : last.results.lookup (resultKey result) = some result
  others : ∀ key, key ≠ resultKey result → last.results.lookup key = tables.results.lookup key
  replaces : ∀ old, tables.results.lookup (resultKey result) = some old → latestReference old = latestReference result

section

variable {last : AnchorTables} {result : STHAnchorResult}

section

variable (added : Added tables last result)

include added

theorem Added.held {other} (held : Holds last stream other) :
    other = result ∨ (resultKey other ≠ resultKey result ∧ Holds tables stream other) := by
  by_cases same : resultKey other = resultKey result
  · have found := held.1
    rw [same] at found
    exact .inl (some.inj (found.symm.trans added.present))
  · exact .inr ⟨same, (added.others _ same).symm.trans held.1, held.2⟩

theorem Added.still {other} (held : Holds tables stream other) (apart : resultKey other ≠ resultKey result) :
    Holds last stream other :=
  ⟨(added.others _ apart).trans held.1, held.2⟩

theorem Added.names_elsewhere (apart : ¬InStream stream result)
    (named : Names tables stream) (latest : last.latest.lookup stream = tables.latest.lookup stream) :
    Names last stream := by
  have different : ∀ other, InStream stream other → resultKey other ≠ resultKey result := by
    intro other inStream same
    exact apart fun key known => (congrArg scheduleKey same.symm).trans (inStream key known)
  have before : ∀ other, Holds last stream other → Holds tables stream other := by
    intro other held
    rcases added.held held with rfl | ⟨_, held⟩
    · exact absurd held.2 apart
    · exact held
  rcases named with ⟨maximal, maximum, ref⟩ | ⟨empty, ref⟩
  · exact .inl ⟨maximal, ⟨added.still maximum.held (different _ maximum.held.2),
      fun other held => maximum.largest other (before other held)⟩, latest.trans ref⟩
  · exact .inr ⟨fun other held => empty other (before other held), fun other found => ref other (latest ▸ found)⟩

theorem Added.names_kept (inStream : InStream stream result) {covering}
    (maximum : Maximum tables stream covering)
    (within : compareResultKeys (resultKey result) (resultKey covering) ≤ 0) (named : Names tables stream)
    (latest : last.latest.lookup stream = tables.latest.lookup stream) : Names last stream := by
  rcases named with ⟨maximal, named, ref⟩ | ⟨empty, _⟩
  · by_cases same : resultKey maximal = resultKey result
    · refine .inl ⟨result, ⟨⟨added.present, inStream⟩, fun other held => ?_⟩, ?_⟩
      · rcases added.held held with rfl | ⟨_, held⟩
        · exact compareResultKeys_refl _
        · exact same ▸ named.largest other held
      · have found := named.held.1
        rw [same] at found
        rw [latest, ref, added.replaces maximal found]
    · refine .inl ⟨maximal, ⟨added.still named.held same, fun other held => ?_⟩, latest.trans ref⟩
      rcases added.held held with rfl | ⟨_, held⟩
      · exact compareResultKeys_trans within (named.largest covering maximum.held)
      · exact named.largest other held
  · exact absurd maximum.held (empty covering)

theorem Added.names_moved (inStream : InStream stream result)
    (beyond : ∀ other, Holds tables stream other → compareResultKeys (resultKey other) (resultKey result) ≤ 0)
    (latest : last.latest.lookup stream = some (latestReference result)) : Names last stream := by
  refine .inl ⟨result, ⟨⟨added.present, inStream⟩, fun other held => ?_⟩, latest⟩
  rcases added.held held with rfl | ⟨_, held⟩
  · exact compareResultKeys_refl _
  · exact beyond other held

end

end

namespace Pebble

variable {result : STHAnchorResult} {writes : List AnchorWrite}

theorem readSTHAnchorResult_eq_ok {key existing}
    (read : readSTHAnchorResult library faults tables key = .ok existing) :
    tables.results.lookup key = existing ∧ ∀ result, existing = some result →
      validateResult library (streamOf result) result = .ok () ∧ resultKey result = key := by
  simp only [readSTHAnchorResult, bind_eq_ok] at read
  obtain ⟨_, _, read⟩ := read
  cases found : tables.results.lookup key with
  | none =>
    rw [found] at read
    cases read
    exact ⟨rfl, by simp⟩
  | some result =>
    rw [found] at read
    simp only [bind_eq_ok, validateStoredSTHAnchorResult, mapError_eq_ok, reject_eq_ok,
      sameResultKey, decide_eq_false_iff_not, not_not, return_eq_ok] at read
    obtain ⟨_, valid, _, same, rfl⟩ := read
    refine ⟨rfl, fun other equal => ?_⟩
    cases equal
    exact ⟨valid, same⟩

theorem findResult_eq_ok {stream entries} {result : STHAnchorResult}
    (found : findResult library stream entries = .ok (some result)) :
    ⟨resultKey result, result⟩ ∈ entries ∧ validateResult library (streamOf result) result = .ok () ∧
      ∀ key, stream = some key → streamOf result = key := by
  induction entries with
  | nil => cases found
  | cons entry rest ih =>
    obtain ⟨key, first⟩ := entry
    simp only [findResult, bind_eq_ok, validateStoredSTHAnchorResult, mapError_eq_ok,
      reject_eq_ok, not_not] at found
    obtain ⟨_, valid, _, rfl, found⟩ := found
    split at found
    · rename_i matched
      cases Except.ok.inj found
      refine ⟨mem_cons_self, valid, fun key same => ?_⟩
      subst same
      simpa [sameKey] using matched
    · obtain ⟨member, others⟩ := ih found
      exact ⟨mem_cons_of_mem _ member, others⟩

theorem mem_resultsBackwards {entry} :
    entry ∈ resultsBackwards tables ↔ tables.results.lookup entry.1 = some entry.2 := by
  rw [resultsBackwards, mem_insertionSort]
  exact AList.mem_lookup_iff.symm

theorem findResult_none {entries} (searched : findResult library stream entries = .ok none) :
    ∀ entry ∈ entries, ¬InStream stream entry.2 := by
  induction entries with
  | nil => simp
  | cons entry rest ih =>
    obtain ⟨key, first⟩ := entry
    simp only [findResult, bind_eq_ok] at searched
    obtain ⟨_, _, _, _, searched⟩ := searched
    split at searched
    · cases searched
    · rename_i apart
      intro other member
      rcases mem_cons.mp member with rfl | later
      · intro inStream
        refine apart ?_
        cases stream with
        | none => rfl
        | some stream => simpa [sameKey] using inStream stream rfl
      · exact ih searched other later

theorem findResult_largest {entries}
    (falling : entries.Pairwise fun first second => compareResultKeys second.1 first.1 ≤ 0)
    (found : findResult library stream entries = .ok (some result)) :
    ∀ entry ∈ entries, InStream stream entry.2 → compareResultKeys entry.1 (resultKey result) ≤ 0 := by
  induction entries with
  | nil => simp
  | cons entry rest ih =>
    obtain ⟨key, first⟩ := entry
    obtain ⟨above, below⟩ := pairwise_cons.mp falling
    simp only [findResult, bind_eq_ok, reject_eq_ok, not_not] at found
    obtain ⟨_, _, _, rfl, found⟩ := found
    intro other member inStream
    split at found
    · cases Except.ok.inj found
      rcases mem_cons.mp member with rfl | later
      · exact compareResultKeys_refl _
      · exact above other later
    · rename_i apart
      rcases mem_cons.mp member with rfl | later
      · refine absurd ?_ apart
        cases stream with
        | none => rfl
        | some stream => simpa [sameKey] using inStream stream rfl
      · exact ih below found other later inStream

theorem resultsBackwards_falling :
    (resultsBackwards tables).Pairwise fun first second => compareResultKeys second.1 first.1 ≤ 0 := by
  have total : Std.Total fun first second : (_ : STHAnchorResultKey) × STHAnchorResult =>
      compareResultKeys second.1 first.1 ≤ 0 := ⟨fun first second => compareResultKeys_total second.1 first.1⟩
  have trans : IsTrans _ fun first second : (_ : STHAnchorResultKey) × STHAnchorResult =>
      compareResultKeys second.1 first.1 ≤ 0 := ⟨fun _ _ _ one two => compareResultKeys_trans two one⟩
  exact pairwise_insertionSort _ _

theorem followReference_latest (named : Names tables stream) {ref}
    (present : tables.latest.lookup stream = some ref) {latest}
    (followed : followReference library faults tables stream ref = some latest) :
    Latest tables stream latest := by
  unfold followReference at followed
  split at followed
  · rename_i empty
    cases followed
    rcases named with ⟨result, _, other⟩ | ⟨none_, _⟩
    · cases other.symm.trans present
      rw [latestReference_not_empty] at empty
      cases empty
    · exact none_
  · rename_i filled
    split at followed
    · rename_i done result valid read
      split at followed
      · rename_i sound
        cases followed
        rcases named with ⟨maximal, maximum, other⟩ | ⟨_, empty⟩
        · cases other.symm.trans present
          obtain ⟨found, _⟩ := readSTHAnchorResult_eq_ok read
          cases maximum.held.1.symm.trans found
          exact maximum
        · exact absurd (empty ref present) filled
      · cases followed
    · cases followed

theorem latest_of_search {latest} (searched : findResult library stream (resultsBackwards tables) = .ok latest) :
    Latest tables stream latest := by
  cases latest with
  | none =>
    exact fun result held => findResult_none searched ⟨resultKey result, result⟩
      (mem_resultsBackwards.mpr held.1) held.2
  | some result =>
    obtain ⟨member, _, inStream⟩ := findResult_eq_ok searched
    refine ⟨⟨mem_resultsBackwards.mp member, inStream⟩, fun other held => ?_⟩
    exact findResult_largest resultsBackwards_falling searched ⟨resultKey other, other⟩
      (mem_resultsBackwards.mpr held.1) held.2

def Staged (tables : AnchorTables) (stream : Option STHAnchorScheduleKey) (result : STHAnchorResult)
    (writes : List AnchorWrite) : Prop :=
  (writes = [] ∧ ∃ latest, Maximum tables stream latest ∧
    compareResultKeys (resultKey result) (resultKey latest) ≤ 0) ∨
  (writes = [.latest stream (latestReference result)] ∧
    ∀ other, Holds tables stream other → compareResultKeys (resultKey other) (resultKey result) ≤ 0)

theorem staged_of_latest {latest} (correct : Latest tables stream latest) :
    Staged tables stream result
      (if latest.any fun latest => compareResultKeys (resultKey result) (resultKey latest) ≤ 0 then []
        else [.latest stream (latestReference result)]) := by
  cases latest with
  | none => exact .inr ⟨rfl, fun other held => absurd held (correct other)⟩
  | some latest =>
    by_cases covered : compareResultKeys (resultKey result) (resultKey latest) ≤ 0
    · exact .inl ⟨by simp [covered], latest, correct, covered⟩
    · refine .inr ⟨by simp [covered], fun other held => ?_⟩
      have below := (compareResultKeys_total (resultKey result) (resultKey latest)).resolve_left covered
      exact compareResultKeys_trans (correct.largest other held) below

theorem Staged.of_same {middle} (staged : Staged tables stream result writes)
    (results : middle.results = tables.results) : Staged middle stream result writes := by
  rcases staged with ⟨rfl, latest, maximum, within⟩ | ⟨rfl, beyond⟩
  · exact .inl ⟨rfl, latest, ⟨(holds_of_same results).mpr maximum.held,
      fun other held => maximum.largest other ((holds_of_same results).mp held)⟩, within⟩
  · exact .inr ⟨rfl, fun other held => beyond other ((holds_of_same results).mp held)⟩

theorem Added.references {base overall keyed} (added : Added tables base result)
    (references : References tables) (latest : base.latest = tables.latest)
    (overallStaged : Staged tables none result overall)
    (keyedStaged : Staged tables (some (streamOf result)) result keyed) :
    References ((overall ++ keyed).foldl AnchorTables.write base) := by
  have inOverall : InStream none result := by simp [InStream]
  have inKeyed : InStream (some (streamOf result)) result := fun key same => some.inj same
  have results : ((overall ++ keyed).foldl AnchorTables.write base).results = base.results := by
    rcases overallStaged with ⟨rfl, _⟩ | ⟨rfl, _⟩ <;> rcases keyedStaged with ⟨rfl, _⟩ | ⟨rfl, _⟩ <;> rfl
  have addedLast : Added tables ((overall ++ keyed).foldl AnchorTables.write base) result :=
    ⟨results ▸ added.present, results ▸ added.others, added.replaces⟩
  intro stream
  by_cases isOverall : stream = none
  · subst isOverall
    rcases overallStaged with ⟨rfl, covering, maximum, within⟩ | ⟨rfl, beyond⟩
    · refine addedLast.names_kept inOverall maximum within (references none) ?_
      rcases keyedStaged with ⟨rfl, _⟩ | ⟨rfl, _⟩
      · exact congrArg _ latest
      · exact (AList.lookup_insert_ne (by simp)).trans (congrArg _ latest)
    · refine addedLast.names_moved inOverall beyond ?_
      rcases keyedStaged with ⟨rfl, _⟩ | ⟨rfl, _⟩
      · exact AList.lookup_insert _
      · exact (AList.lookup_insert_ne (by simp)).trans (AList.lookup_insert _)
  · by_cases isKeyed : stream = some (streamOf result)
    · subst isKeyed
      rcases keyedStaged with ⟨rfl, covering, maximum, within⟩ | ⟨rfl, beyond⟩
      · refine addedLast.names_kept inKeyed maximum within (references _) ?_
        rcases overallStaged with ⟨rfl, _⟩ | ⟨rfl, _⟩
        · exact congrArg _ latest
        · exact (AList.lookup_insert_ne (by simp)).trans (congrArg _ latest)
      · refine addedLast.names_moved inKeyed beyond ?_
        rw [foldl_append]
        exact AList.lookup_insert _
    · refine addedLast.names_elsewhere ?_ (references stream) ?_
      · intro inStream
        cases stream with
        | none => exact isOverall rfl
        | some key => exact isKeyed (congrArg some (inStream key rfl).symm)
      · rcases overallStaged with ⟨rfl, _⟩ | ⟨rfl, _⟩ <;> rcases keyedStaged with ⟨rfl, _⟩ | ⟨rfl, _⟩
        · exact congrArg _ latest
        · exact (AList.lookup_insert_ne isKeyed).trans (congrArg _ latest)
        · exact (AList.lookup_insert_ne isOverall).trans (congrArg _ latest)
        · exact (AList.lookup_insert_ne isKeyed).trans
            ((AList.lookup_insert_ne isOverall).trans (congrArg _ latest))

def Newest (tables : AnchorTables) (stream : Option STHAnchorScheduleKey) (latest : Option STHAnchorResult) : Prop :=
  ∀ result, Holds tables stream result → ∃ newest, latest = some newest ∧ result.treeSize ≤ newest.treeSize

theorem newest_of_latest {latest} (correct : Latest tables stream latest) : Newest tables stream latest := by
  intro result held
  cases latest with
  | none => exact absurd held (correct result)
  | some newest =>
    have below := compareResultKeys_le.mp (correct.largest result held)
    rw [rank, rank, Prod.Lex.le_iff] at below
    refine ⟨newest, rfl, ?_⟩
    rcases below with smaller | ⟨same, _⟩
    · exact smaller.le
    · exact same.le

end Pebble

end

end TrustDB.ProofStore
