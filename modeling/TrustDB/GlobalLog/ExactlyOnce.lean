import TrustDB.GlobalLog.Plan

/-!
Appending through the service. Whatever lists of batch roots are submitted, in however
many calls, over a store that commits a batch of appends as a whole, the log is a
ledger that only grows, and every batch root is answered with the tree head of its leaf.
-/

namespace TrustDB.GlobalLog

open Result List CryptoSuite TrustCrypto Merkle Model HashTree ProofStore

section Pebble

variable {hashes : Hashes} {codec : Codec} {service : Service} {tables : Tables}
  {ledger : Ledger hashes codec service.provider} {provider : Provider} {roots : List BatchRoot}

theorem Ledger.head_of_find (ledger : Ledger hashes codec provider) {batchID entry}
    (found : ledger.entries.find? (fun entry => entry.batchID = batchID) = some entry) :
    ledger.entries[entry.leaf.leafIndex]? = some entry := by
  obtain ⟨index, inside, here⟩ := mem_iff_getElem.mp (mem_of_find?_eq_some found)
  have at_ : ledger.entries[index]? = some entry := by rw [getElem?_eq_getElem inside, here]
  rw [ledger.leafIndex at_, at_]

theorem Indexes.shown (indexed : Indexes tables ledger) (suite : ID) (stamps : Nat → Stamps) (faults : Faults) :
    Shows (Pebble.store suite stamps faults) tables ledger.batchIDs (· ∈ ledger.entries) where
  answered := by
    intro batchID leaf sth leafRead headRead
    simp only [Pebble.store, Tables.getGlobalLeafByBatchID, Tables.getSignedTreeHead,
      bind_eq_ok, return_eq_ok] at leafRead headRead
    obtain ⟨_, _, _, _, leafFound⟩ := leafRead
    obtain ⟨_, _, _, _, headFound⟩ := headRead
    rw [indexed.byBatch] at leafFound
    obtain ⟨entry, found, rfl⟩ := Option.map_eq_some_iff.mp leafFound
    rw [indexed.heads, if_neg (Nat.succ_ne_zero _), Nat.add_sub_cancel, ledger.head_of_find found] at headFound
    obtain rfl : entry.head = sth := Option.some.inj headFound
    exact mem_of_find?_eq_some found
  absent := by
    intro batchID read member
    simp only [Pebble.store, Tables.getGlobalLeafByBatchID, bind_eq_ok, return_eq_ok] at read
    obtain ⟨_, _, _, _, missing⟩ := read
    rw [indexed.byBatch, Option.map_eq_none_iff] at missing
    obtain ⟨entry, inside, same⟩ := mem_map.mp member
    exact find?_eq_none.mp missing entry inside (decide_eq_true same)

theorem Indexes.leaves_empty (indexed : Indexes tables ledger) (empty : ledger.entries = []) :
    tables.leaves = ∅ := by
  have absent : ∀ key, key ∉ tables.leaves := by
    intro key
    rw [← AList.lookup_eq_none, indexed.leaves, empty]
    rfl
  apply AList.ext
  cases rows : tables.leaves.entries with
  | nil => rfl
  | cons row rest =>
    refine absurd ?_ (absent row.1)
    rw [AList.mem_keys, AList.keys, rows]
    simp [keys]

theorem getGlobalLogState_cases (suite : ID) (attempt : Pebble.Attempt) (tables : Tables) :
    (attempt.over suite).store.getGlobalLogState tables = .ok tables.state ∨
      ∃ err, (attempt.over suite).store.getGlobalLogState tables = .error err := by
  simp only [Pebble.Attempt.over, Pebble.store]
  cases attempt.faults .getGlobalLogState with
  | none => exact .inl rfl
  | some err => exact .inr ⟨err, rfl⟩

theorem loadState_pebble (suite : ID) (attempt : Pebble.Attempt) (represented : Represents tables ledger) :
    Ensures (Service.loadState hashes service (attempt.over suite) tables)
      (fun state after => after = tables ∧ Tracks hashes service.provider ledger.digests state)
      (fun _ after => after = tables) := by
  rw [Service.loadState]
  rcases getGlobalLogState_cases suite attempt tables with read | ⟨err, read⟩ <;> rw [read]
  · by_cases empty : ledger.entries = []
    · have tracked : Tracks hashes service.provider ledger.digests service.emptyState := by
        simpa [Ledger.digests, empty] using tracks_emptyState hashes service
      have rebuilt : Ensures (Service.rebuildPages hashes service (attempt.over suite) (2 ^ 64 - 1 + 1)
          service.emptyState 0 tables) (fun state after => state = service.emptyState ∧ after = tables)
          (fun _ after => after = tables) := by
        simp only [Service.rebuildPages, Pebble.Attempt.over, Pebble.store, Pebble.listGlobalLeavesRange,
          represented.indexes.leaves_empty empty]
        cases attempt.faults (.listGlobalLeavesRange 0 1024) with
        | some err => rfl
        | none => exact ⟨rfl, rfl⟩
      rw [represented.stateless empty]
      refine Ensures.chain rebuilt ?_
      rintro _ _ ⟨rfl, rfl⟩
      exact ⟨rfl, tracked⟩
    · obtain ⟨state, stored, tracked⟩ := represented.state empty
      rw [stored]
      dsimp only
      cases requireSame service.provider.suite [state.cryptoSuite] with
      | error err => rfl
      | ok => exact ⟨rfl, tracked⟩
  · rfl

/-- What a call over the ledger may do when it succeeds: the ledger grows, and every root is
answered from it. A tree head is returned as it is stored if its time is set, since the store
fills in a time of zero. -/
def Answered {provider : Provider} (ledger : Ledger hashes codec provider) (suite : ID) (service : Service)
    (roots : List BatchRoot) (timed : Prop) (tables : Tables) (sths : List SignedTreeHead) (after : Tables) :
    Prop :=
  ∃ grown : Ledger hashes codec provider, ledger.entries <+: grown.entries ∧
    (grown.entries = ledger.entries ∨ suite = provider.suite) ∧ Represents after grown ∧
    Unchanged tables after ∧
    Forall₂ (fun root sth => ∃ entry ∈ grown.entries,
      Records entry.leaf (service.bindIdentity root) ∧ (timed → entry.head = sth)) roots sths

theorem exists_prepared {entries prepared} (done : Forall₂ Prepared entries prepared) {entry}
    (member : entry ∈ entries) : ∃ written ∈ prepared, Prepared entry written := by
  induction done with
  | nil => simp at member
  | cons first _ ih =>
    rcases mem_cons.mp member with rfl | later
    · exact ⟨_, by simp, first⟩
    · obtain ⟨written, inside, found⟩ := ih later
      exact ⟨written, by simp [inside], found⟩

theorem Records.prepared {given written root} (records : Records given.leaf root)
    (prepared : Prepared given written) : Records written.leaf root := by
  obtain ⟨stamps, done⟩ := prepared
  rw [(prepare_eq done).1]
  exact ⟨records.batchID, records.suite, records.nodeID, records.logID, records.treeSize,
    records.closedAt, records.batchRoot⟩

theorem GrowsBy.headSchema (entries : List GlobalLogAppend) :
    ∀ {digests : List Digest} {batchIDs : List String},
      GrowsBy hashes codec provider digests batchIDs entries →
      ∀ entry ∈ entries, entry.sth.schemaVersion = schemaSignedTreeHead := by
  induction entries with
  | nil => simp
  | cons first rest ih =>
    intro digests batchIDs grows entry member
    rcases mem_cons.mp member with rfl | later
    · exact grows.1.follows.headSchema
    · exact ih grows.2 entry later

theorem Plans.committed {moments plan suite stamps faults after}
    (plans : Plans hashes codec service ledger.digests ledger.batchIDs
      (· ∈ ledger.entries) moments roots plan) (indexed : Indexes tables ledger)
    (done : Pebble.commitGlobalLogAppends suite stamps faults tables plan.appends = .ok after) :
    Answered ledger suite service roots (∀ position, (moments position).signedAt ≠ 0) tables plan.sths after := by
  obtain ⟨grown, prepared, written, same, represented, unchanged, bound⟩ :=
    indexed.commit plans.grows done
  refine ⟨grown, ⟨_, same.symm⟩, .inr bound, represented, unchanged, ?_⟩
  refine plans.answers.imp fun root sth answered => ?_
  obtain ⟨entry, member, records, head⟩ := answered
  rcases member with old | new
  · exact ⟨entry, same ▸ mem_append_left _ old, records, fun _ => head⟩
  · obtain ⟨given, inside, rfl⟩ := mem_map.mp new
    obtain ⟨stored, storedMem, preparation⟩ := exists_prepared written inside
    refine ⟨entryOf stored, same ▸ mem_append_right _ (mem_map_of_mem storedMem),
      records.prepared preparation, fun timed => ?_⟩
    obtain ⟨position, time⟩ := plans.stamped given inside
    rw [← head]
    exact preparation.sth (plans.grows.headSchema _ given inside) (time ▸ timed position)

theorem once_settles (suite : ID) (attempt : Pebble.Attempt) (represented : Represents tables ledger)
    (valid : ∀ root ∈ roots, root.cryptoSuite = service.provider.suite ∧ root.batchID ≠ "") :
    Ensures (Service.appendBatchRootsOnce hashes codec service (attempt.over suite) roots tables)
      (Answered ledger suite service roots (∀ position, (attempt.moments position).signedAt ≠ 0) tables)
      (fun _ after => after = tables) := by
  refine Service.once_ensures (loadState_pebble suite attempt represented) (fun _ _ _ reached => reached.1) ?_
  rintro state after plan ⟨same, tracked⟩ planned
  subst same
  have plans := Plans.of_start (represented.indexes.shown suite attempt.stamps attempt.faults) tracked valid planned
  refine ⟨fun unwritten => ?_, fun _ => ?_⟩
  · refine ⟨ledger, prefix_refl _, .inl rfl, represented, .refl _, ?_⟩
    refine plans.answers.imp fun root sth answered => ?_
    obtain ⟨entry, member, records, head⟩ := answered
    simp only [unwritten, map_nil, not_mem_nil, or_false] at member
    exact ⟨entry, member, records, fun _ => head⟩
  · have commit : Service.commitAppends (attempt.over suite).store plan.appends after =
        checkedWrite (Pebble.commitGlobalLogAppends suite attempt.stamps attempt.faults after plan.appends) after :=
      rfl
    rw [commit]
    cases done : Pebble.commitGlobalLogAppends suite attempt.stamps attempt.faults after plan.appends with
    | error err => rfl
    | ok _ => exact plans.committed represented.indexes done

theorem Answered.mono {ledger : Ledger hashes codec provider} {suite} {weak strong : Prop} {sths after}
    (settled : Answered ledger suite service roots weak tables sths after) (implies : strong → weak) :
    Answered ledger suite service roots strong tables sths after := by
  obtain ⟨grown, extends_, bound, represented, unchanged, answers⟩ := settled
  refine ⟨grown, extends_, bound, represented, unchanged, answers.imp fun root sth answered => ?_⟩
  obtain ⟨entry, member, records, head⟩ := answered
  exact ⟨entry, member, records, fun timed => head (implies timed)⟩

theorem retry_settles (suite : ID) {call : Pebble.Call} {ledger : Ledger hashes codec call.service.provider}
    (represented : Represents tables ledger) (valid : ∀ root ∈ call.roots,
      root.cryptoSuite = call.service.provider.suite ∧ root.batchID ≠ "") (remaining : Nat) :
    Ensures (Service.retryAppend hashes codec (call.over suite) remaining tables)
      (Answered ledger suite call.service call.roots
        (∀ attempt position, ((call.attempts attempt).moments position).signedAt ≠ 0) tables)
      (fun _ after => after = tables) := by
  refine Service.retryAppend_ensures (· = tables) (fun attempt _ same => ?_) remaining rfl
  subst same
  exact (once_settles suite (call.attempts attempt) represented valid).mono
    (fun _ _ settled => settled.mono fun timed => timed attempt) fun _ _ same => ⟨same, fun _ => same⟩

theorem Represents.empty_of {ledger : Ledger hashes codec provider}
    (represented : Represents tables ledger) (empty : ledger.entries = []) (other : Provider) :
    Represents tables (Ledger.empty hashes codec other) where
  indexes := {
    leaves := by
      intro index
      rw [represented.indexes.leaves, empty]
      rfl
    byBatch := by
      intro batchID
      rw [represented.indexes.byBatch, empty]
      rfl
    nodeSound := by
      intro level start node found
      obtain ⟨block, inside, _⟩ := represented.indexes.nodeSound level start node found
      have positive : 0 < (block + 1) * 2 ^ level := Nat.mul_pos block.succ_pos (Nat.two_pow_pos level)
      rw [empty, length_nil] at inside
      omega
    nodeComplete := by
      intro level block inside
      exact represented.indexes.nodeComplete level block (by rw [empty]; exact inside)
    heads := by
      intro size
      rw [represented.indexes.heads, empty]
      rfl }
  stateless := fun _ => represented.stateless empty
  state := fun nonempty => absurd rfl nonempty

theorem loadState_foreign {ledger : Ledger hashes codec provider}
    (represented : Represents tables ledger) (nonempty : ledger.entries ≠ [])
    (foreign : service.provider ≠ provider) (suite : ID) (attempt : Pebble.Attempt) :
    Ensures (Service.loadState hashes service (attempt.over suite) tables) (fun _ _ => False)
      (fun _ after => after = tables) := by
  obtain ⟨state, stored, tracked⟩ := represented.state nonempty
  rw [Service.loadState]
  rcases getGlobalLogState_cases suite attempt tables with read | ⟨err, read⟩ <;> rw [read]
  · rw [stored]
    dsimp only
    cases checked : requireSame service.provider.suite [state.cryptoSuite] with
    | error err => rfl
    | ok =>
      have same := (requireSame_eq_ok.mp checked).2 state.cryptoSuite (by simp)
      rw [tracked.suite] at same
      exact absurd (Provider.suite_injective same.symm) foreign
  · rfl

theorem call_settles {ledger : Ledger hashes codec provider}
    (represented : Represents tables ledger) (call : Pebble.Call) :
    Ensures (Service.appendBatchRoots hashes codec (call.over provider.suite) tables)
      (Answered ledger provider.suite call.service call.roots
        (∀ attempt position, ((call.attempts attempt).moments position).signedAt ≠ 0) tables)
      (fun _ after => after = tables) := by
  refine Service.appendBatchRoots_ensures rfl fun filled valid => ?_
  by_cases same : call.service.provider = provider
  · subst same
    exact retry_settles _ represented valid _
  by_cases empty : ledger.entries = []
  · refine (retry_settles provider.suite (represented.empty_of empty call.service.provider) valid _).mono
      ?_ fun _ _ => id
    rintro sths after ⟨grown, _, still | equal, _, _, answers⟩
    · obtain ⟨root, rest, given⟩ := exists_cons_of_ne_nil filled
      rw [show call.roots = root :: rest from given] at answers
      obtain ⟨sth, _, ⟨entry, member, _⟩, _⟩ := forall₂_cons_left_iff.mp answers
      rw [still] at member
      simp [Ledger.empty] at member
    · exact absurd (Provider.suite_injective equal).symm same
  · refine Service.retryAppend_ensures (· = tables) (fun attempt _ same => ?_) _ rfl
    subst same
    exact Service.once_ensures ((loadState_foreign represented empty same provider.suite _).mono (fun _ _ => id)
      fun _ _ same => ⟨same, fun _ => same⟩) (fun _ _ _ => False.elim) fun _ _ _ => False.elim

theorem Represents.call {provider : Provider} {ledger : Ledger hashes codec provider}
    (represented : Represents tables ledger) (call : Pebble.Call) :
    ∃ grown : Ledger hashes codec provider, ledger.entries <+: grown.entries ∧
      Represents (Service.appendBatchRoots hashes codec (call.over provider.suite) tables).2 grown ∧
      Unchanged tables (Service.appendBatchRoots hashes codec (call.over provider.suite) tables).2 := by
  have settled := call_settles represented call
  generalize Service.appendBatchRoots hashes codec (call.over provider.suite) tables = result
    at settled ⊢
  match result, settled with
  | (.error err, after), settled =>
    obtain rfl : after = tables := settled
    exact ⟨ledger, prefix_refl _, represented, .refl _⟩
  | (.ok sths, after), ⟨grown, extends_, _, represented', unchanged, _⟩ =>
    exact ⟨grown, extends_, represented', unchanged⟩

theorem Represents.run {provider : Provider} (calls : List Pebble.Call) :
    ∀ {tables : Tables} {ledger : Ledger hashes codec provider}, Represents tables ledger →
      ∃ grown : Ledger hashes codec provider, ledger.entries <+: grown.entries ∧
        Represents (Service.runCalls hashes codec (calls.map (Pebble.Call.over provider.suite)) tables).2
          grown ∧
        Unchanged tables
          (Service.runCalls hashes codec (calls.map (Pebble.Call.over provider.suite)) tables).2 := by
  induction calls with
  | nil =>
    intro tables ledger represented
    exact ⟨ledger, prefix_refl _, represented, .refl _⟩
  | cons call rest ih =>
    intro tables ledger represented
    obtain ⟨between, first, represented', unchanged⟩ := represented.call call
    obtain ⟨grown, second, represented'', unchanged'⟩ := ih represented'
    exact ⟨grown, first.trans second, represented'', unchanged.trans unchanged'⟩

end Pebble

def tablesAfter (hashes : Hashes) (codec : Codec) (provider : Provider) (history : List Pebble.Call) :
    Tables :=
  (Service.runCalls hashes codec (history.map (Pebble.Call.over provider.suite)) .empty).2

theorem tablesAfter_represents (hashes : Hashes) (codec : Codec) (provider : Provider)
    (history : List Pebble.Call) : ∃ ledger : Ledger hashes codec provider,
      Represents (tablesAfter hashes codec provider history) ledger := by
  obtain ⟨ledger, _, represented, _⟩ := (represents_empty hashes codec provider).run history
  exact ⟨ledger, represented⟩

section

variable {hashes : Hashes} {codec : Codec} {provider : Provider} {index : Nat}

theorem runCalls_append {σ : Type} (first second : List (Call σ)) : ∀ db : σ,
    (Service.runCalls hashes codec (first ++ second) db).2 =
      (Service.runCalls hashes codec second (Service.runCalls hashes codec first db).2).2 := by
  induction first with
  | nil => intro db; rfl
  | cons call rest ih => intro db; exact ih _

theorem tablesAfter_append (history more : List Pebble.Call) :
    tablesAfter hashes codec provider (history ++ more) =
      (Service.runCalls hashes codec (more.map (Pebble.Call.over provider.suite))
        (tablesAfter hashes codec provider history)).2 := by
  rw [tablesAfter, map_append, runCalls_append]
  rfl

theorem Represents.leaf_eq {tables : Tables} {ledger : Ledger hashes codec provider}
    (represented : Represents tables ledger) {leaf : GlobalLogLeaf}
    (found : tables.leaves.lookup index = some leaf) :
    ∃ entry, ledger.entries[index]? = some entry ∧ entry.leaf = leaf := by
  rw [represented.indexes.leaves] at found
  exact Option.map_eq_some_iff.mp found

section

variable (ledger : Ledger hashes codec provider)
include ledger

theorem Ledger.index_eq {first second : Nat} {one two : Entry} (oneAt : ledger.entries[first]? = some one)
    (twoAt : ledger.entries[second]? = some two) (same : one.batchID = two.batchID) :
    first = second := by
  have inside := (List.getElem?_eq_some_iff.mp oneAt).1
  refine (List.getElem?_inj (by simpa using inside) ledger.distinct).mp ?_
  rw [List.getElem?_map, List.getElem?_map, oneAt, twoAt, Option.map_some, Option.map_some, same]

theorem Ledger.leafHashes_eq :
    (ledger.entries.map fun entry => entry.leaf.leafHash) = ledger.digests.map Digest.bytes := by
  rw [Ledger.digests, map_map]
  apply map_congr_left
  intro entry member
  obtain ⟨index, inside, here⟩ := mem_iff_getElem.mp member
  exact (ledger.follows index entry (by rw [getElem?_eq_getElem inside, here])).digest_bytes

theorem Ledger.headRoot {entry} (at_ : ledger.entries[index]? = some entry) : entry.head.rootHash =
      (treeRoot hashes (.ofProvider provider) (ledger.digests.take (index + 1))).bytes := by
  have follows := ledger.follows index entry at_
  rw [follows.headRoot, Ledger.digests, ← map_take, take_add_one, at_]
  simp

end

def CommitsThrough (hashes : Hashes) (provider : Provider) (tables : Tables) (index : Nat) : Prop :=
  ∃ (sth : SignedTreeHead) (leaves : List GlobalLogLeaf),
    tables.heads.lookup (index + 1) = some sth ∧ sth.treeSize = index + 1 ∧
    leaves.length = index + 1 ∧
    (∀ position, position ≤ index → tables.leaves.lookup position = leaves[position]?) ∧
    rootFromLeavesForSuite hashes (Profile.ofProvider provider).suite
      (Profile.ofProvider provider).algorithm (leaves.map GlobalLogLeaf.leafHash) = .ok sth.rootHash

theorem Represents.commitsThrough {tables : Tables} {ledger : Ledger hashes codec provider}
    (represented : Represents tables ledger) {entry : Entry}
    (at_ : ledger.entries[index]? = some entry) : CommitsThrough hashes provider tables index := by
  have inside := (List.getElem?_eq_some_iff.mp at_).1
  have follows := ledger.follows index entry at_
  have nonempty : ledger.digests.take (index + 1) ≠ [] := by
    apply List.ne_nil_of_length_pos
    simp only [List.length_take, ledger.length_digests]
    omega
  refine ⟨entry.head, (ledger.entries.map Entry.leaf).take (index + 1), ?_, ?_, ?_, ?_, ?_⟩
  · simp [represented.indexes.heads, at_]
  · rw [follows.headSize]
    simp only [List.length_map, List.length_take]
    omega
  · simp only [List.length_take, List.length_map]
    omega
  · intro position below
    rw [represented.indexes.leaves, List.getElem?_take, if_pos (by omega), List.getElem?_map]
  · rw [List.map_take, List.map_map, show GlobalLogLeaf.leafHash ∘ Entry.leaf =
      fun entry => entry.leaf.leafHash from rfl, ledger.leafHashes_eq, ← List.map_take,
      rootFromLeavesForSuite_eq hashes provider nonempty, ledger.headRoot at_]

theorem Represents.stored {tables : Tables} {ledger : Ledger hashes codec provider}
    (represented : Represents tables ledger) {entry : Entry} (member : entry ∈ ledger.entries) :
    tables.leavesByBatch.lookup entry.batchID = some entry.leaf ∧
      tables.leaves.lookup entry.leaf.leafIndex = some entry.leaf ∧
      tables.heads.lookup (entry.leaf.leafIndex + 1) = some entry.head := by
  obtain ⟨other, found⟩ := Option.isSome_iff_exists.mp
    (find?_isSome.mpr ⟨entry, member, by simp⟩ :
      (ledger.entries.find? fun other => other.batchID = entry.batchID).isSome)
  obtain ⟨index, inside, here⟩ := mem_iff_getElem.mp member
  have at_ : ledger.entries[index]? = some entry := by rw [getElem?_eq_getElem inside, here]
  have otherAt := ledger.head_of_find found
  have same := find?_some found
  rw [decide_eq_true_eq] at same
  have equal : other = entry := by
    rw [ledger.index_eq otherAt at_ same, at_] at otherAt
    exact (Option.some.inj otherAt).symm
  subst equal
  refine ⟨?_, ?_, ?_⟩
  · rw [represented.indexes.byBatch, found]
    rfl
  · rw [represented.indexes.leaves, otherAt]
    rfl
  · rw [represented.indexes.heads, if_neg (Nat.succ_ne_zero _), Nat.add_sub_cancel, otherAt]
    rfl

end

theorem exists_answer {service : Service} {entries : List Entry} {roots : List BatchRoot}
    {sths : List SignedTreeHead} {timed : Prop} (answers : Forall₂ (fun root sth => ∃ entry ∈ entries,
      Records entry.leaf (service.bindIdentity root) ∧ (timed → entry.head = sth)) roots sths)
    {root : BatchRoot} (member : root ∈ roots) :
    ∃ entry ∈ entries, Records entry.leaf (service.bindIdentity root) := by
  induction answers with
  | nil => simp at member
  | cons first _ ih =>
    rcases mem_cons.mp member with rfl | later
    · obtain ⟨entry, inside, records, _⟩ := first
      exact ⟨entry, inside, records⟩
    · exact ih later

/-- Over a store that commits a batch of appends as a whole, the log only grows, holds
each batch once, and answers every submitted root with the tree head of its leaf. -/
theorem appendBatchRoots_exactly_once (hashes : Hashes) (codec : Codec) (provider : Provider)
    (history : List Pebble.Call) (call : Pebble.Call) :
    let tables := tablesAfter hashes codec provider history
    let result := Service.appendBatchRoots hashes codec (call.over provider.suite) tables
    (∀ first second leaf other, tables.leaves.lookup first = some leaf →
      tables.leaves.lookup second = some other → leaf.batchID = other.batchID → first = second) ∧
    (∀ more, Unchanged tables (tablesAfter hashes codec provider (history ++ more))) ∧
    (∀ index leaf, tables.leaves.lookup index = some leaf →
      leaf.leafIndex = index ∧ CommitsThrough hashes provider tables index) ∧
    (∀ state, tables.state = some state → 0 < state.treeSize ∧
      ∀ index, (tables.leaves.lookup index).isSome ↔ index < state.treeSize) ∧
    (∀ err, result.1 = .error err → result.2 = tables) ∧
    (∀ root ∈ call.roots, ∀ leaf, tables.leavesByBatch.lookup root.batchID = some leaf →
      ¬Records leaf (call.service.bindIdentity root) → ∃ err, result.1 = .error err) ∧
    ∀ sths, result.1 = .ok sths → sths.length = call.roots.length ∧
      ∀ (position : Nat) root sth, call.roots[position]? = some root → sths[position]? = some sth →
        ∃ leaf stored, result.2.leavesByBatch.lookup root.batchID = some leaf ∧
          result.2.leaves.lookup leaf.leafIndex = some leaf ∧
          Records leaf (call.service.bindIdentity root) ∧
          result.2.heads.lookup (leaf.leafIndex + 1) = some stored ∧
          ((∀ attempt position, ((call.attempts attempt).moments position).signedAt ≠ 0) →
            stored = sth) := by
  intro tables result
  obtain ⟨ledger, represented⟩ := tablesAfter_represents hashes codec provider history
  have settled := call_settles represented call
  refine ⟨?_, ?_, ?_, ?_, ?_, ?_, ?_⟩
  · intro first second leaf other found found' same
    obtain ⟨one, oneAt, rfl⟩ := represented.leaf_eq found
    obtain ⟨two, twoAt, rfl⟩ := represented.leaf_eq found'
    exact ledger.index_eq oneAt twoAt same
  · intro more
    obtain ⟨_, _, _, unchanged⟩ := represented.run more
    rwa [tablesAfter_append]
  · intro index leaf found
    obtain ⟨entry, at_, rfl⟩ := represented.leaf_eq found
    have follows := ledger.follows index entry at_
    have inside := (List.getElem?_eq_some_iff.mp at_).1
    refine ⟨?_, represented.commitsThrough at_⟩
    rw [follows.index, List.length_map, List.length_take, Nat.min_eq_left inside.le]
  · intro state found
    by_cases empty : ledger.entries = []
    · rw [represented.stateless empty] at found
      simp at found
    · obtain ⟨other, stored, tracked⟩ := represented.state empty
      obtain rfl : other = state := Option.some.inj (stored.symm.trans found)
      rw [tracked.size, ledger.length_digests]
      refine ⟨List.length_pos_iff.mpr empty, fun index => ?_⟩
      rw [represented.indexes.leaves, Option.isSome_map]
      simp
  · intro err failed
    exact Ensures.of_error settled failed
  · intro root member leaf found conflict
    simp only [result, tables] at found ⊢
    cases answered : (Service.appendBatchRoots hashes codec (call.over provider.suite)
        (tablesAfter hashes codec provider history)).1 with
    | error err => exact ⟨err, rfl⟩
    | ok sths =>
      obtain ⟨grown, _, _, represented', unchanged, answers⟩ := Ensures.of_ok settled answered
      obtain ⟨entry, entryMem, records⟩ := exists_answer answers member
      have stored := (represented'.stored entryMem).1
      rw [show entry.batchID = root.batchID from
        records.batchID.trans (call.service.bindIdentity_batchID root),
        unchanged.byBatch _ _ found] at stored
      exact absurd (Option.some.inj stored ▸ records) conflict
  · intro sths answered
    simp only [result, tables] at answered ⊢
    obtain ⟨grown, _, _, represented', _, answers⟩ := Ensures.of_ok settled answered
    refine ⟨answers.length_eq.symm, fun position root sth rootAt sthAt => ?_⟩
    obtain ⟨rootIn, rootEq⟩ := List.getElem?_eq_some_iff.mp rootAt
    obtain ⟨sthIn, sthEq⟩ := List.getElem?_eq_some_iff.mp sthAt
    obtain ⟨entry, member, records, head⟩ := (List.forall₂_iff_get.mp answers).2 position rootIn sthIn
    simp only [List.get_eq_getElem, rootEq, sthEq] at records head
    have batchID : entry.batchID = root.batchID := by
      rw [← call.service.bindIdentity_batchID root]
      exact records.batchID
    obtain ⟨byBatch, leaf, stored⟩ := represented'.stored member
    exact ⟨entry.leaf, entry.head, batchID ▸ byBatch, leaf, records, stored, head⟩

def sampleService (provider : Provider) : Service := ⟨"node", "log", provider, true⟩

def sampleRoot (provider : Provider) (batchID : String) : BatchRoot where
  schemaVersion := ""
  cryptoSuite := provider.suite
  batchID := batchID
  nodeID := ""
  logID := "log"
  batchRoot := replicate 32 7
  treeSize := 1
  closedAtUnixN := 3

def sampleCall (provider : Provider) (signedAt : Int) (batchIDs : List String) : Pebble.Call where
  service := sampleService provider
  roots := batchIDs.map (sampleRoot provider)
  attempts := fun _ => {
    stamps := fun _ => { leaf := 5, node := fun _ => 5, state := 5, sth := 5 }
    faults := fun _ => none
    rebuiltAt := fun _ => 2
    moments := fun _ => {
      appendedAt := 2
      updatedAt := 2
      signedAt := signedAt
      sign := fun _ => .ok default } }
  canceled := fun _ => none

def epochRun : Outcome (List SignedTreeHead) × Tables :=
  Service.appendBatchRoots Hashes.sample Codec.sample
    ((sampleCall .intlV1Provider 0 ["batch"]).over Provider.intlV1Provider.suite) .empty

/-- The store replaces a time of zero in the tree head that it is given, so the tree head that
the call returns is not the one that is stored for its batch. -/
theorem epochRun_returns_another_head :
    ∃ sth stored, epochRun.1 = .ok [sth] ∧ epochRun.2.heads.lookup 1 = some stored ∧
      sth.timestampUnixN = 0 ∧ stored.timestampUnixN = 5 := by
  have returned : epochRun.1.toOption.map (map SignedTreeHead.timestampUnixN) = some [0] := by
    decide +kernel
  have kept : (epochRun.2.heads.lookup 1).map SignedTreeHead.timestampUnixN = some 5 := by
    decide +kernel
  obtain ⟨sths, answered, times⟩ := toOption_map_eq_some.mp returned
  obtain ⟨stored, found, time⟩ := Option.map_eq_some_iff.mp kept
  obtain ⟨sth, rest, rfl, zero, none⟩ := map_eq_cons_iff.mp times
  rw [map_eq_nil_iff.mp none] at answered
  exact ⟨sth, stored, answered, found, zero, time⟩

end TrustDB.GlobalLog
