import TrustDB.ProofStore.AnchorLatest

/-!
What the calls on the anchor tables do to them: every call that fails leaves schedules, results
and roots alone, and one that succeeds applies at most one change of each. References to latest
results may be written along the way, and name them again afterwards.
-/

namespace TrustDB.ProofStore

open Result List Option CryptoSuite Model AnchorSchedule

def Kept (tables next : AnchorTables) : Prop := References tables → References next

structure Frame (tables next : AnchorTables) : Prop where
  schedules : next.schedules = tables.schedules
  results : next.results = tables.results
  roots : next.roots = tables.roots
  kept : Kept tables next

structure Applies (schedule : Option STHAnchorSchedule) (result : Option STHAnchorResult)
    (roots : List ((String × String × Nat) × Bytes)) (tables next : AnchorTables) : Prop where
  schedules : next.schedules = schedule.elim tables.schedules fun schedule =>
    tables.schedules.insert schedule.key schedule
  results : next.results = result.elim tables.results fun result => tables.results.insert (resultKey result) result
  roots : next.roots = roots.foldl (fun table root => table.insert root.1 root.2) tables.roots

structure Stored (library : Library) (tables : AnchorTables) (stream : Option STHAnchorScheduleKey)
    (result : STHAnchorResult) : Prop where
  found : tables.results.lookup (resultKey result) = some result
  valid : validateResult library (streamOf result) result = .ok ()
  stream : ∀ key, stream = some key → streamOf result = key

namespace Pebble

def Roots (tables : AnchorTables) (tree : String × String × Nat) (rootHash : Bytes)
    (roots : List ((String × String × Nat) × Bytes)) : Prop :=
  (tables.roots.lookup tree = none ∧ roots = [(tree, rootHash)]) ∨
    (tables.roots.lookup tree = some rootHash ∧ roots = [])

def treeOf (result : STHAnchorResult) : String × String × Nat := (result.nodeID, result.logID, result.treeSize)

inductive Reconciled (library : Library) (tables : AnchorTables) (current : STHAnchorSchedule) :
    STHAnchorSchedule → Prop
  | unchanged : Reconciled library tables current current
  | settled {middle next result} : Reconciled library tables current middle →
      Stored library tables (some current.key) result → Valid middle → Settles middle result next →
      Reconciled library tables current next

def TargetRoots (tables : AnchorTables) (key : STHAnchorScheduleKey) (targets : List SignedTreeHead)
    (roots : List ((String × String × Nat) × Bytes)) : Prop :=
  ∃ pieces, List.Forall₂ (fun target piece =>
    Roots tables (key.nodeID, key.logID, target.treeSize) target.rootHash piece) targets pieces ∧
    roots = pieces.flatten

def AnchorCall.credentials : AnchorCall → Option (STHAnchorScheduleKey × Nat × String)
  | .compareAndSwap key generation leaseToken _ _ _ => some (key, generation, leaseToken)
  | .reschedule key generation leaseToken _ _ _ => some (key, generation, leaseToken)
  | .fail key generation leaseToken _ _ => some (key, generation, leaseToken)
  | .complete key generation leaseToken _ => some (key, generation, leaseToken)
  | _ => none

/-- What a call that succeeds does; the attempt is the one that it hands out. -/
inductive Change (library : Library) (tables next : AnchorTables) : AnchorCall → Option STHAnchorAttempt → Prop
  | put {result existing roots} : tables.results.lookup (resultKey result) = existing →
      validateResult library (streamOf result) result = .ok () →
      Roots tables (treeOf (existing.getD result)) (existing.getD result).rootHash roots →
      Applies none (if existing.isNone then some result else none) roots tables next →
      Change library tables next (.put result) none
  | update {expected result roots} : tables.results.lookup (resultKey result) = some expected →
      validateResult library (streamOf result) result = .ok () → { expected with proof := result.proof } = result →
      Roots tables (treeOf result) result.rootHash roots → Applies none (some result) roots tables next →
      Change library tables next (.update expected result) none
  | upsert {candidate merged latest changed roots} :
      mergeCandidate library (tables.schedules.lookup candidate.key) candidate latest = .ok (merged, changed) →
      (∀ result, latest = some result → Stored library tables (some candidate.key) result) →
      (References tables → Newest tables (some candidate.key) latest) →
      Roots tables (candidate.key.nodeID, candidate.key.logID, candidate.sth.treeSize) candidate.sth.rootHash roots →
      Applies (if changed then some merged else none) none roots tables next →
      Change library tables next (.upsert candidate) none
  | idle {call} : (∀ candidate, call ≠ .upsert candidate) → Frame tables next → Change library tables next call none
  | claim {key nowUnixN leaseUntilUnixN leaseOwner leaseToken current settled made claimed} :
      tables.schedules.lookup key = some current → current.key = key → Reconciled library tables current settled →
      AnchorSchedule.claim settled nowUnixN leaseUntilUnixN leaseOwner leaseToken = .ok (made, claimed) →
      Applies (some made) none [] tables next →
      Change library tables next (.claim key nowUnixN leaseUntilUnixN leaseOwner leaseToken) claimed
  | revise {call key generation leaseToken current made} : call.credentials = some (key, generation, leaseToken) →
      (∀ result, call ≠ .complete key generation leaseToken result) → tables.schedules.lookup key = some current →
      current.key = key → Revises current generation leaseToken made → Applies (some made) none [] tables next →
      Change library tables next call none
  | known {key generation leaseToken result existing current made} :
      tables.schedules.lookup key = some current → current.key = key →
      tables.results.lookup (resultKey result) = some existing → sameStoredResult library existing result = true →
      Stored library tables (some key) existing → Valid current → Settles current existing made →
      Applies (some made) none [] tables next →
      Change library tables next (.complete key generation leaseToken result) none
  | complete {key generation leaseToken result current made roots} :
      tables.schedules.lookup key = some current → current.key = key →
      tables.results.lookup (resultKey result) = none →
      AnchorSchedule.complete library current generation leaseToken result = .ok made →
      Roots tables (treeOf result) result.rootHash roots → Applies (some made) (some result) roots tables next →
      Change library tables next (.complete key generation leaseToken result) none
  | restore {schedule settled replace roots} : Valid schedule → Reconciled library tables schedule settled →
      TargetRoots tables settled.key (scheduleTargets settled) roots → Applies (some settled) none roots tables next →
      Change library tables next (.restore schedule replace) none

end Pebble

variable {tables next middle : AnchorTables} {result : Option STHAnchorResult}
  {roots : List ((String × String × Nat) × Bytes)}

theorem Frame.refl (tables : AnchorTables) : Frame tables tables := ⟨rfl, rfl, rfl, id⟩

theorem Kept.of_same (results : next.results = tables.results) (latest : next.latest = tables.latest) :
    Kept tables next :=
  fun references => references.of_same results latest

theorem Frame.trans {first second third} (one : Frame first second) (two : Frame second third) :
    Frame first third :=
  ⟨two.schedules.trans one.schedules, two.results.trans one.results, two.roots.trans one.roots,
    two.kept ∘ one.kept⟩

theorem Frame.applies (frame : Frame tables next) : Applies none none [] tables next :=
  ⟨frame.schedules, frame.results, frame.roots⟩

theorem Applies.after {schedule} (frame : Frame tables middle)
    (applies : Applies schedule result roots middle next) : Applies schedule result roots tables next :=
  ⟨frame.schedules ▸ applies.schedules, frame.results ▸ applies.results, frame.roots ▸ applies.roots⟩

theorem Applies.followed {schedule} (applies : Applies schedule result roots tables middle)
    (rest : Applies none none [] middle next) : Applies schedule result roots tables next :=
  ⟨rest.schedules.trans applies.schedules, rest.results.trans applies.results, rest.roots.trans applies.roots⟩

theorem Applies.schedule (applies : Applies none result roots tables middle) (made : STHAnchorSchedule) :
    Applies (some made) result roots tables (middle.write (.schedule made)) := by
  refine ⟨?_, applies.results, applies.roots⟩
  simp only [AnchorTables.write, Option.elim, applies.schedules]

theorem Applies.roots_append {schedule first second} (one : Applies none none first tables middle)
    (two : Applies schedule result second middle next) :
    Applies schedule result (first ++ second) tables next := by
  refine ⟨two.schedules.trans ?_, two.results.trans ?_, two.roots.trans ?_⟩
  · rw [one.schedules]
    rfl
  · rw [one.results]
    rfl
  · rw [one.roots, foldl_append]

theorem Applies.found {made} (applies : Applies (some made) result roots tables next) :
    next.schedules.lookup made.key = some made := by
  rw [applies.schedules]
  exact AList.lookup_insert _

theorem Applies.schedule_cases {schedule} (applies : Applies schedule result roots tables next)
    (key : STHAnchorScheduleKey) : next.schedules.lookup key = tables.schedules.lookup key ∨
      ∃ made, schedule = some made ∧ made.key = key ∧ next.schedules.lookup key = some made := by
  have written := applies.schedules
  cases schedule with
  | none => exact .inl (congrArg _ written)
  | some made =>
    by_cases same : made.key = key
    · subst same
      exact .inr ⟨made, rfl, rfl, applies.found⟩
    · refine .inl ?_
      rw [written]
      exact AList.lookup_insert_ne (Ne.symm same)

theorem Applies.result_cases {schedule : Option STHAnchorSchedule}
    (applies : Applies schedule result roots tables next) (key : STHAnchorResultKey) :
    next.results.lookup key = tables.results.lookup key ∨
      ∃ added, result = some added ∧ resultKey added = key ∧ next.results.lookup key = some added := by
  have written := applies.results
  cases result with
  | none => exact .inl (congrArg _ written)
  | some added =>
    by_cases same : resultKey added = key
    · subst same
      refine .inr ⟨added, rfl, rfl, ?_⟩
      rw [written]
      exact AList.lookup_insert _
    · refine .inl ?_
      rw [written]
      exact AList.lookup_insert_ne (Ne.symm same)

theorem Applies.stored {library : Library} {schedule : Option STHAnchorSchedule}
    {stream : Option STHAnchorScheduleKey} {result : STHAnchorResult}
    (applies : Applies schedule none roots tables next) (stored : Stored library tables stream result) :
    Stored library next stream result := by
  refine ⟨?_, stored.valid, stored.stream⟩
  rw [applies.results]
  exact stored.found

theorem Stored.of_frame {library stream} {result : STHAnchorResult} (stored : Stored library next stream result)
    (frame : Frame tables next) : Stored library tables stream result :=
  ⟨frame.results ▸ stored.found, stored.valid, stored.stream⟩

namespace Pebble

section

variable {library : Library} {suite : ID} {faults : AnchorFaults} {tables : AnchorTables}
  {current : STHAnchorSchedule}

theorem readSTHAnchorSchedule_eq_ok {key} {current : Option STHAnchorSchedule}
    (read : readSTHAnchorSchedule faults tables key = .ok current) :
    tables.schedules.lookup key = current ∧ ∀ schedule, current = some schedule →
      Valid schedule ∧ schedule.key = key := by
  simp only [readSTHAnchorSchedule, bind_eq_ok] at read
  obtain ⟨_, _, read⟩ := read
  cases found : tables.schedules.lookup key with
  | none =>
    rw [found] at read
    cases read
    exact ⟨rfl, by simp⟩
  | some schedule =>
    rw [found] at read
    simp only [bind_eq_ok, mapError_eq_ok, validateSchedule_eq_ok, reject_eq_ok, sameKey,
      decide_eq_false_iff_not, not_not, return_eq_ok] at read
    obtain ⟨_, valid, _, same, rfl⟩ := read
    refine ⟨rfl, fun other equal => ?_⟩
    cases equal
    exact ⟨valid, same⟩

theorem readSTHAnchorResult_stored {key} {result : STHAnchorResult}
    (read : readSTHAnchorResult library faults tables key = .ok (some result)) :
    Stored library tables (some (scheduleKey key)) result := by
  obtain ⟨found, rest⟩ := readSTHAnchorResult_eq_ok read
  obtain ⟨valid, rfl⟩ := rest result rfl
  refine ⟨found, valid, fun key same => ?_⟩
  exact some.inj same

theorem followReference_stored {ref} {result : STHAnchorResult} {stream : Option STHAnchorScheduleKey}
    (followed : followReference library faults tables stream ref = some (some result)) :
    Stored library tables stream result := by
  unfold followReference at followed
  split at followed
  · cases followed
  · split at followed
    · rename_i done found valid read
      split at followed
      · rename_i sound
        cases followed
        have stored := readSTHAnchorResult_stored read
        refine ⟨stored.found, stored.valid, fun key same => ?_⟩
        subst same
        have named : key = scheduleKey ref.key := by simpa [sameKey] using sound.2
        rw [named]
        exact stored.stream _ rfl
      · cases followed
    · cases followed

theorem latestSTHAnchorResultLocked_ensures (stream : Option STHAnchorScheduleKey) :
    Ensures (latestSTHAnchorResultLocked library faults tables stream)
      (fun latest next => Frame tables next ∧
        (∀ result, latest = some result → Stored library tables stream result) ∧
        (References tables → Latest tables stream latest))
      (fun _ next => Frame tables next) := by
  unfold latestSTHAnchorResultLocked
  dsimp only
  split
  · rename_i answer known
    split at known
    · rename_i ref _ present
      refine ⟨.refl tables, ?_, fun references => followReference_latest (references stream) present known⟩
      rintro result rfl
      exact followReference_stored known
    · cases known
  · unfold rebuildLatestSTHAnchorResultLocked
    refine Ensures.check (fun _ _ => .refl tables) fun latest searched => ?_
    simp only [bind_eq_ok] at searched
    obtain ⟨_, _, searched⟩ := searched
    have correct := latest_of_search searched
    have frame : Frame tables (tables.write (.latest stream
        (latest.elim (emptyLatestReference stream) latestReference))) :=
      ⟨rfl, rfl, rfl, fun references => references.rewrite correct⟩
    cases latest with
    | none => exact Ensures.check (fun _ _ => .refl tables) fun _ _ => ⟨frame, by simp, fun _ => correct⟩
    | some result =>
      refine Ensures.check (fun _ _ => .refl tables) fun _ _ => ⟨frame, ?_, fun _ => correct⟩
      rintro _ ⟨⟩
      obtain ⟨member, valid, matches_⟩ := findResult_eq_ok searched
      exact ⟨mem_resultsBackwards.mp member, valid, matches_⟩

theorem stageLatest_ensures (stream : Option STHAnchorScheduleKey) (result : STHAnchorResult) :
    Ensures (stageLatest library faults tables stream result)
      (fun writes next => Frame tables next ∧ (References tables → Staged tables stream result writes) ∧
        ∀ middle, Applies none none [] middle (writes.foldl AnchorTables.write middle))
      (fun _ next => Frame tables next) := by
  refine Ensures.chain (latestSTHAnchorResultLocked_ensures stream) ?_
  rintro latest next ⟨frame, _, correct⟩
  refine ⟨frame, fun references => staged_of_latest (correct references), fun middle => ?_⟩
  split <;> exact ⟨rfl, rfl, rfl⟩

theorem inspect_eq_ok {nodeID logID treeSize rootHash missing}
    (inspected : inspectSTHAnchorTreeRootLocked faults tables nodeID logID treeSize rootHash = .ok missing) :
    Roots tables (nodeID, logID, treeSize) rootHash
      (if missing = true then [((nodeID, logID, treeSize), rootHash)] else []) := by
  simp only [inspectSTHAnchorTreeRootLocked, bind_eq_ok] at inspected
  obtain ⟨_, _, inspected⟩ := inspected
  split at inspected
  · rename_i absent
    cases inspected
    exact .inl ⟨absent, rfl⟩
  · rename_i value present
    simp only [bind_eq_ok, reject_eq_ok, not_not, return_eq_ok] at inspected
    obtain ⟨_, rfl, rfl⟩ := inspected
    exact .inr ⟨present, rfl⟩

theorem validateOrStage_eq_ok {nodeID logID treeSize rootHash writes}
    (staged : validateOrStageSTHAnchorTreeRootLocked faults tables nodeID logID treeSize rootHash = .ok writes) :
    ∃ roots, Roots tables (nodeID, logID, treeSize) rootHash roots ∧
      ∀ middle, Applies none none roots middle (writes.foldl AnchorTables.write middle) ∧
        (writes.foldl AnchorTables.write middle).latest = middle.latest := by
  simp only [validateOrStageSTHAnchorTreeRootLocked, bind_eq_ok, return_eq_ok] at staged
  obtain ⟨missing, inspected, rfl⟩ := staged
  refine ⟨_, inspect_eq_ok inspected, fun middle => ?_⟩
  cases missing <;> exact ⟨⟨rfl, rfl, rfl⟩, rfl⟩

theorem stageSTHAnchorResultLocked_ensures (result : STHAnchorResult) (writeResult : Bool)
    (replaces : ∀ old, tables.results.lookup (resultKey result) = some old →
      latestReference old = latestReference result)
    (present : writeResult = false → tables.results.lookup (resultKey result) = some result) :
    Ensures (stageSTHAnchorResultLocked library faults tables result writeResult)
      (fun writes next => Frame tables next ∧ Kept tables (writes.foldl AnchorTables.write next) ∧
        ∃ roots, Roots tables (treeOf result) result.rootHash roots ∧
          Applies none (if writeResult then some result else none) roots next
            (writes.foldl AnchorTables.write next))
      (fun _ next => Frame tables next) := by
  refine Ensures.check (fun _ _ => .refl tables) fun root staged => ?_
  obtain ⟨roots, rooted, rootApplies⟩ := validateOrStage_eq_ok staged
  refine Ensures.chain (stageLatest_ensures none result) ?_
  rintro overall first ⟨firstFrame, overallStaged, overallApplies⟩
  refine Ensures.chain (Ensures.mono (stageLatest_ensures (some (streamOf result)) result) (fun _ _ => id)
    fun _ _ => firstFrame.trans) ?_
  rintro keyed second ⟨secondFrame, keyedStaged, keyedApplies⟩
  have frame := firstFrame.trans secondFrame
  obtain ⟨rootApplied, rootLatest⟩ := rootApplies second
  generalize stored : (root ++ if writeResult then [AnchorWrite.result result] else []).foldl AnchorTables.write
    second = base
  have applied : Applies none (if writeResult then some result else none) roots second base ∧
      base.latest = second.latest := by
    rw [← stored, foldl_append]
    cases writeResult with
    | false => exact ⟨rootApplied, rootLatest⟩
    | true =>
      refine ⟨⟨rootApplied.schedules, ?_, rootApplied.roots⟩, rootLatest⟩
      simp only [if_true, foldl, AnchorTables.write, Option.elim, rootApplied.results]
  have added : Added second base result := by
    have results := applied.1.results
    refine ⟨?_, fun key apart => ?_, frame.results ▸ replaces⟩
    · cases writeResult with
      | false => exact results ▸ frame.results ▸ present rfl
      | true =>
        rw [results]
        exact AList.lookup_insert _
    · cases writeResult with
      | false => exact congrArg _ results
      | true =>
        rw [results]
        exact AList.lookup_insert_ne apart
  refine ⟨frame, fun references => ?_, roots, rooted, ?_⟩
  · rw [append_assoc, foldl_append, stored]
    exact Added.references added (frame.kept references) applied.2 ((overallStaged references).of_same frame.results)
      ((keyedStaged (firstFrame.kept references)).of_same secondFrame.results)
  · rw [foldl_append, foldl_append, stored]
    exact (applied.1.followed (overallApplies _)).followed (keyedApplies _)

theorem commitBatch_ensures {message writes} {good : Unit → AnchorTables → Prop}
    {bad : Err → AnchorTables → Prop} (done : good () (writes.foldl AnchorTables.write tables))
    (kept : ∀ err, bad err tables) : Ensures (commitBatch faults message writes tables) good bad := by
  unfold commitBatch
  cases faults .commit with
  | none => exact done
  | some cause => exact kept _

theorem commitSTHAnchorSchedule_ensures (schedule : STHAnchorSchedule) (operation : String) :
    Ensures (commitSTHAnchorSchedule faults schedule operation tables)
      (fun _ next => Applies (some schedule) none [] tables next ∧ Kept tables next)
      (fun _ next => Frame tables next) :=
  commitBatch_ensures ⟨⟨rfl, rfl, rfl⟩, Kept.of_same rfl rfl⟩ fun _ => .refl tables

theorem putSTHAnchorResult_ensures (result : STHAnchorResult) :
    Ensures (putSTHAnchorResult library suite faults tables result)
      (fun _ next => Change library tables next (.put result) none ∧ Kept tables next)
      (fun _ next => Frame tables next) := by
  refine Ensures.check (fun _ _ => .refl tables) fun existing checked => ?_
  simp only [bind_eq_ok, return_eq_ok] at checked
  obtain ⟨_, _, _, _, _, valid, found, read, _, _, same⟩ := checked
  subst same
  obtain ⟨lookup, stored⟩ := readSTHAnchorResult_eq_ok read
  have present : ∀ existing, found = some existing →
      tables.results.lookup (resultKey existing) = some existing := by
    rintro existing rfl
    rw [(stored existing rfl).2, lookup]
  refine Ensures.chain (stageSTHAnchorResultLocked_ensures _ _ (fun old known => ?_) fun written => ?_) ?_
  · cases found with
    | none => cases lookup.symm.trans known
    | some existing => exact congrArg _ (some.inj ((present existing rfl).symm.trans known)).symm
  · cases found with
    | none => cases written
    | some existing => exact present existing rfl
  · rintro writes middle ⟨frame, kept, roots, rooted, applies⟩
    refine commitBatch_ensures ⟨.put lookup valid rooted (Applies.after frame ?_), kept⟩ fun _ => frame
    cases found <;> exact applies

theorem updateSTHAnchorResult_ensures (expected result : STHAnchorResult) :
    Ensures (updateSTHAnchorResult library suite faults tables expected result)
      (fun _ next => Change library tables next (.update expected result) none ∧ Kept tables next)
      (fun _ next => Frame tables next) := by
  refine Ensures.check (fun _ _ => .refl tables) fun _ checked => ?_
  simp only [bind_eq_ok, reject_eq_ok, not_not] at checked
  obtain ⟨_, _, _, _, _, _, _, valid, _, _, _, _, _, _, _, same, existing, read, checked⟩ := checked
  cases existing with
  | none => cases checked
  | some existing =>
    obtain ⟨found, _⟩ := readSTHAnchorResult_eq_ok read
    obtain rfl : existing = expected := by simpa using checked
    refine Ensures.chain (stageSTHAnchorResultLocked_ensures _ _ (fun old present => ?_) (by simp)) ?_
    · cases found.symm.trans present
      rw [← same]
      rfl
    · rintro writes middle ⟨frame, kept, roots, rooted, applies⟩
      exact commitBatch_ensures ⟨.update found valid same rooted (Applies.after frame applies), kept⟩ fun _ => frame

theorem mergeSTHAnchorCandidateLocked_ensures (candidate : STHAnchorCandidate) :
    Ensures (mergeSTHAnchorCandidateLocked library faults tables candidate)
      (fun merged next => Frame tables next ∧ ∃ latest,
        mergeCandidate library (tables.schedules.lookup candidate.key) candidate latest = .ok (merged.1, merged.2.1) ∧
        (∀ result, latest = some result → Stored library tables (some candidate.key) result) ∧
        (References tables → Newest tables (some candidate.key) latest) ∧
        Roots tables (candidate.key.nodeID, candidate.key.logID, candidate.sth.treeSize) candidate.sth.rootHash
          (if merged.2.2 = true then [((candidate.key.nodeID, candidate.key.logID, candidate.sth.treeSize),
            candidate.sth.rootHash)] else []))
      (fun _ next => Frame tables next) := by
  refine Ensures.check (fun _ _ => .refl tables) fun read reads => ?_
  obtain ⟨current, missing⟩ := read
  simp only [bind_eq_ok, return_eq_ok, Prod.mk.injEq] at reads
  obtain ⟨_, readCurrent, _, inspected, rfl, rfl⟩ := reads
  obtain ⟨found, _⟩ := readSTHAnchorSchedule_eq_ok readCurrent
  refine Ensures.chain (latestSTHAnchorResultLocked_ensures _) ?_
  rintro latest middle ⟨frame, stored, correct⟩
  refine Ensures.last (fun _ _ => frame) fun answer merged => ?_
  simp only [bind_eq_ok, return_eq_ok] at merged
  obtain ⟨exact_, readExact, _, _, ⟨next, changed⟩, merged, rfl⟩ := merged
  refine ⟨frame, _, found ▸ merged, fun result named => ?_, fun references result held => ?_, inspect_eq_ok inspected⟩
  · cases exact_ with
    | none => exact stored result named
    | some exact_ =>
      simp only at named
      split at named
      · cases named
        exact (readSTHAnchorResult_stored readExact).of_frame frame
      · exact stored result named
  · obtain ⟨newest, rfl, within⟩ := newest_of_latest (correct references) result held
    cases exact_ with
    | none => exact ⟨newest, rfl, within⟩
    | some exact_ =>
      by_cases beyond : exact_.treeSize > newest.treeSize
      · exact ⟨exact_, by simp [beyond], by omega⟩
      · exact ⟨newest, by simp [beyond], within⟩

theorem upsertSTHAnchorCandidate_ensures (candidate : STHAnchorCandidate) :
    Ensures (upsertSTHAnchorCandidate library suite faults tables candidate)
      (fun _ next => Change library tables next (.upsert candidate) none ∧ Kept tables next)
      (fun _ next => Frame tables next) := by
  refine Ensures.check (fun _ _ => .refl tables) fun _ _ => ?_
  refine Ensures.chain (mergeSTHAnchorCandidateLocked_ensures candidate) ?_
  rintro ⟨merged, changed, missing⟩ middle ⟨frame, latest, done, stored, newest, rooted⟩
  dsimp only
  split
  · rename_i idle
    obtain ⟨rfl, rfl⟩ := idle
    exact ⟨.upsert done stored newest rooted frame.applies, frame.kept⟩
  · refine (commitBatch_ensures ⟨.upsert done stored newest rooted (Applies.after frame ?_),
      fun references => (frame.kept references).of_same ?_ ?_⟩ fun _ => frame :
      Ensures _ (fun _ next => Change library tables next (.upsert candidate) none ∧ Kept tables next) _).chain
        fun _ _ => id
    · cases changed <;> cases missing <;> exact ⟨rfl, rfl, rfl⟩
    · cases changed <;> cases missing <;> rfl
    · cases changed <;> cases missing <;> rfl

theorem Reconciled.key {next : STHAnchorSchedule} (reconciled : Reconciled library tables current next) :
    next.key = current.key := by
  induction reconciled with
  | unchanged => rfl
  | settled _ _ _ settles ih =>
    rcases settles.rest with same | ⟨_, same⟩
    · rw [same]
      exact ih
    · rw [same]
      exact ih

theorem Reconciled.targets {settled} (reconciled : Reconciled library tables current settled) {target}
    (scheduled : target ∈ scheduleTargets settled) : target ∈ scheduleTargets current := by
  induction reconciled with
  | unchanged => exact scheduled
  | settled _ _ _ settles ih => exact ih (settles.targets scheduled)

theorem Reconciled.parts {settled} (reconciled : Reconciled library tables current settled) :
    (∀ attempt, settled.inFlight = some attempt → current.inFlight = some attempt) ∧
      ∀ pending, settled.pending = some pending → current.pending = some pending := by
  induction reconciled with
  | unchanged => exact ⟨fun _ same => same, fun _ same => same⟩
  | settled _ _ _ settles ih =>
    refine ⟨fun attempt found => ?_, fun pending found => ?_⟩
    · rcases settles.inFlight with ⟨kept, _⟩ | ⟨gone, _⟩
      · exact ih.1 attempt (kept.symm.trans found)
      · rw [gone] at found
        cases found
    · rcases settles.pending with ⟨kept, _⟩ | ⟨gone, _⟩
      · exact ih.2 pending (kept.symm.trans found)
      · rw [gone] at found
        cases found

theorem reconcileStoredSTHAnchorResultsLocked_ensures (schedule : STHAnchorSchedule) :
    Ensures (reconcileStoredSTHAnchorResultsLocked library faults tables schedule)
      (fun answer next => Frame tables next ∧ Reconciled library tables schedule answer.1 ∧
        (answer.2 = false → answer.1 = schedule))
      (fun _ next => Frame tables next) := by
  refine Ensures.check (fun _ _ => .refl tables) ?_
  rintro ⟨settled, changed⟩ flight
  have first : Reconciled library tables schedule settled ∧ (changed = false → settled = schedule) := by
    cases inFlight : schedule.inFlight with
    | none =>
      rw [inFlight] at flight
      cases flight
      exact ⟨.unchanged, fun _ => rfl⟩
    | some attempt =>
      rw [inFlight] at flight
      simp only [bind_eq_ok] at flight
      obtain ⟨found, read, flight⟩ := flight
      cases found with
      | none =>
        cases flight
        exact ⟨.unchanged, fun _ => rfl⟩
      | some result =>
        obtain ⟨valid, _, settles, same⟩ := reconcileCompleted_eq_ok (mapError_eq_ok.mp flight)
        exact ⟨.settled .unchanged (readSTHAnchorResult_stored read) valid settles, same⟩
  dsimp only
  split
  · exact ⟨.refl tables, first⟩
  · refine Ensures.chain (latestSTHAnchorResultLocked_ensures _) ?_
    rintro latest middle ⟨frame, stored, _⟩
    cases latest with
    | none => exact ⟨frame, first⟩
    | some latest =>
      refine Ensures.check (fun _ _ => frame) ?_
      rintro ⟨next, reconciled⟩ done
      obtain ⟨valid, _, settles, same⟩ := reconcileCompleted_eq_ok (mapError_eq_ok.mp done)
      have named := stored latest rfl
      rw [first.1.key] at named
      refine ⟨frame, .settled first.1 named valid settles, fun unchanged => ?_⟩
      obtain ⟨one, two⟩ := Bool.or_eq_false_iff.mp unchanged
      exact (same two).trans (first.2 one)

theorem claimSTHAnchorAttempt_ensures (key : STHAnchorScheduleKey) (nowUnixN leaseUntilUnixN : Int)
    (leaseOwner leaseToken : String) :
    Ensures (claimSTHAnchorAttempt library faults tables key nowUnixN leaseUntilUnixN leaseOwner leaseToken)
      (fun claimed next =>
        Change library tables next (.claim key nowUnixN leaseUntilUnixN leaseOwner leaseToken) claimed ∧
          Kept tables next)
      (fun _ next => Frame tables next) := by
  refine Ensures.check (fun _ _ => .refl tables) fun found reads => ?_
  simp only [bind_eq_ok] at reads
  obtain ⟨_, _, _, _, read⟩ := reads
  obtain ⟨lookup, sound⟩ := readSTHAnchorSchedule_eq_ok read
  cases found with
  | none => exact ⟨.idle (by simp) (.refl tables), id⟩
  | some current =>
    refine Ensures.chain (reconcileStoredSTHAnchorResultsLocked_ensures current) ?_
    rintro ⟨settled, changed⟩ middle ⟨frame, reconciled, _⟩
    refine Ensures.check (fun _ _ => frame) ?_
    rintro ⟨made, attempt⟩ claimed
    have keyed := (sound current rfl).2
    cases attempt with
    | none =>
      have unchanged : made = settled := by
        obtain ⟨_, _, _, _, _, cases_⟩ := claim_eq_ok claimed
        rcases cases_ with ⟨same, _⟩ | ⟨_, _, _, _, _, handed, _⟩ | ⟨_, _, _, _, handed, _⟩
        · exact same
        · cases handed
        · cases handed
      subst unchanged
      dsimp only
      split
      · refine Ensures.chain (Ensures.mono (commitSTHAnchorSchedule_ensures _ _) (fun _ _ => id)
          fun _ _ => frame.trans) ?_
        rintro _ _ ⟨applied, kept⟩
        exact ⟨.claim lookup keyed reconciled claimed (Applies.after frame applied), kept ∘ frame.kept⟩
      · exact ⟨.idle (by simp) frame, frame.kept⟩
    | some attempt =>
      refine Ensures.chain (Ensures.mono (commitSTHAnchorSchedule_ensures _ _) (fun _ _ => id)
        fun _ _ => frame.trans) ?_
      rintro _ _ ⟨applied, kept⟩
      exact ⟨.claim lookup keyed reconciled claimed (Applies.after frame applied), kept ∘ frame.kept⟩

theorem replaceSchedule_ensures (canceled committed : String) (key : STHAnchorScheduleKey)
    (operation : STHAnchorSchedule → Outcome STHAnchorSchedule) {call generation leaseToken}
    (carries : call.credentials = some (key, generation, leaseToken))
    (open_ : ∀ result, call ≠ .complete key generation leaseToken result)
    (revises : ∀ current made, operation current = .ok made → Revises current generation leaseToken made) :
    Ensures (replaceSchedule faults canceled committed tables key operation)
      (fun _ next => Change library tables next call none ∧ Kept tables next) (fun _ next => Frame tables next) := by
  refine Ensures.check (fun _ _ => .refl tables) fun made done => ?_
  simp only [bind_eq_ok] at done
  obtain ⟨_, _, _, _, found, read, done⟩ := done
  obtain ⟨lookup, sound⟩ := readSTHAnchorSchedule_eq_ok read
  cases found with
  | none => cases done
  | some current =>
    refine Ensures.mono (commitSTHAnchorSchedule_ensures _ _) ?_ (fun _ _ failed => failed)
    rintro _ _ ⟨applies, kept⟩
    exact ⟨.revise carries open_ lookup (sound current rfl).2 (revises current made done) applies, kept⟩

theorem completeSTHAnchorAttempt_ensures (key : STHAnchorScheduleKey) (generation : Nat) (leaseToken : String)
    (result : STHAnchorResult) :
    Ensures (completeSTHAnchorAttempt library suite faults tables key generation leaseToken result)
      (fun _ next => Change library tables next (.complete key generation leaseToken result) none ∧ Kept tables next)
      (fun _ next => Frame tables next) := by
  refine Ensures.check (fun _ _ => .refl tables) ?_
  rintro ⟨foundSchedule, foundResult⟩ reads
  simp only [bind_eq_ok, return_eq_ok, Prod.mk.injEq] at reads
  obtain ⟨_, _, _, _, _, valid, schedule, readSchedule, stored, readResult, sameSchedule, sameResult⟩ := reads
  subst sameSchedule sameResult
  obtain ⟨lookup, sound⟩ := readSTHAnchorSchedule_eq_ok readSchedule
  obtain ⟨lookupResult, _⟩ := readSTHAnchorResult_eq_ok readResult
  cases stored with
  | none =>
    cases schedule with
    | none => exact .refl tables
    | some current =>
      refine Ensures.check (fun _ _ => .refl tables) fun made completed => ?_
      refine Ensures.chain (stageSTHAnchorResultLocked_ensures _ _
        (fun old present => by cases lookupResult.symm.trans present) (by simp)) ?_
      rintro writes middle ⟨frame, kept, roots, rooted, applies⟩
      refine commitBatch_ensures ⟨.complete lookup (sound current rfl).2 lookupResult completed rooted
        (Applies.after frame ?_), fun references => ?_⟩ fun _ => frame
      · rw [foldl_append]
        exact Applies.schedule applies made
      · rw [foldl_append]
        exact (kept references).of_same rfl rfl
  | some existing =>
    refine Ensures.check (fun _ _ => .refl tables) fun _ same => ?_
    cases schedule with
    | none => exact ⟨.idle (by simp) (.refl tables), id⟩
    | some current =>
      dsimp only
      split
      · exact ⟨.idle (by simp) (.refl tables), id⟩
      · refine Ensures.check (fun _ _ => .refl tables) ?_
        rintro ⟨made, changed⟩ reconciled
        dsimp only
        split
        · refine Ensures.mono (commitSTHAnchorSchedule_ensures _ _) ?_ (fun _ _ failed => failed)
          rintro _ _ ⟨applied, kept⟩
          have known := readSTHAnchorResult_stored readResult
          rw [show scheduleKey (resultKey result) = key from (validateResult_binds valid).1] at known
          exact ⟨.known lookup (sound current rfl).2 lookupResult (by simpa using same) known (sound current rfl).1
            (reconcileCompleted_eq_ok reconciled).2.2.1 applied, kept⟩
        · exact ⟨.idle (by simp) (.refl tables), id⟩

theorem stageTargets_eq_ok {key targets writes} (staged : stageTargets faults tables key targets = .ok writes) :
    ∃ roots, TargetRoots tables key targets roots ∧
      ∀ middle, Applies none none roots middle (writes.foldl AnchorTables.write middle) ∧
        (writes.foldl AnchorTables.write middle).latest = middle.latest := by
  induction targets generalizing writes with
  | nil =>
    cases staged
    exact ⟨[], ⟨[], .nil, rfl⟩, fun middle => ⟨⟨rfl, rfl, rfl⟩, rfl⟩⟩
  | cons target rest ih =>
    simp only [stageTargets, bind_eq_ok, return_eq_ok] at staged
    obtain ⟨first, firstStaged, others, othersStaged, rfl⟩ := staged
    obtain ⟨piece, rooted, appliesFirst⟩ := validateOrStage_eq_ok firstStaged
    obtain ⟨_, ⟨pieces, each, rfl⟩, appliesOthers⟩ := ih othersStaged
    refine ⟨piece ++ pieces.flatten, ⟨piece :: pieces, .cons rooted each, rfl⟩, fun middle => ?_⟩
    rw [foldl_append]
    exact ⟨Applies.roots_append (appliesFirst middle).1 (appliesOthers _).1,
      (appliesOthers _).2.trans (appliesFirst middle).2⟩

theorem restoreSTHAnchorSchedule_ensures (schedule : STHAnchorSchedule) (replace : Bool) :
    Ensures (restoreSTHAnchorSchedule library suite faults tables schedule replace)
      (fun _ next => Change library tables next (.restore schedule replace) none ∧ Kept tables next)
      (fun _ next => Frame tables next) := by
  refine Ensures.check (fun _ _ => .refl tables) fun _ checked => ?_
  simp only [bind_eq_ok, validateSchedule_eq_ok] at checked
  obtain ⟨_, _, _, _, _, valid, _⟩ := checked
  refine Ensures.chain (Ensures.relabel (reconcileStoredSTHAnchorResultsLocked_ensures schedule)) ?_
  rintro ⟨settled, _⟩ middle ⟨frame, reconciled, _⟩
  refine Ensures.check (fun _ _ => frame) fun existing _ => ?_
  split
  · exact ⟨.idle nofun frame, frame.kept⟩
  · refine Ensures.check (fun _ _ => frame) fun _ _ => ?_
    refine Ensures.check (fun _ _ => frame) fun writes staged => ?_
    obtain ⟨roots, ⟨pieces, each, flat⟩, written⟩ := stageTargets_eq_ok staged
    obtain ⟨applies, latest⟩ := written middle
    refine commitBatch_ensures ⟨.restore valid reconciled ⟨pieces, ?_, flat⟩ (Applies.after frame ?_),
      fun references => ?_⟩ fun _ => frame
    · refine each.imp fun target piece rooted => ?_
      unfold Roots at *
      rwa [frame.roots] at rooted
    · rw [foldl_append]
      exact Applies.schedule applies settled
    · rw [foldl_append]
      exact (frame.kept references).of_same applies.results latest

theorem Change.keeps_result {next call handed key old} (change : Change library tables next call handed)
    (found : tables.results.lookup key = some old) :
    ∃ kept, next.results.lookup key = some kept ∧ { old with proof := kept.proof } = kept := by
  have stays : ∀ {schedule result roots}, Applies schedule result roots tables next →
      (∀ added, result = some added → resultKey added = key → { old with proof := added.proof } = added) →
      ∃ kept, next.results.lookup key = some kept ∧ { old with proof := kept.proof } = kept := by
    intro schedule result roots applies agrees
    rcases applies.result_cases key with same | ⟨added, isNew, keyed, written⟩
    · exact ⟨old, same.trans found, rfl⟩
    · exact ⟨added, written, agrees added isNew keyed⟩
  cases change with
  | idle _ frame => exact stays frame.applies nofun
  | put known _ _ applies =>
    refine stays applies fun added same keyed => ?_
    split at same
    · rename_i absent
      cases same
      rw [keyed, found] at known
      rw [← known] at absent
      cases absent
    · cases same
  | update known _ unchanged _ applies =>
    refine stays applies fun added same keyed => ?_
    cases same
    rw [keyed, found] at known
    rw [some.inj known]
    exact unchanged
  | complete _ _ absent _ _ applies =>
    refine stays applies fun added same keyed => ?_
    cases same
    rw [keyed, found] at absent
    cases absent
  | upsert _ _ _ _ applies => exact stays applies nofun
  | claim _ _ _ _ applies => exact stays applies nofun
  | revise _ _ _ _ _ applies => exact stays applies nofun
  | known _ _ _ _ _ _ _ applies => exact stays applies nofun
  | restore _ _ _ applies => exact stays applies nofun

theorem AnchorCall.unit_ensures {α : Type} {outcome} {good : α → AnchorTables → Prop}
    {done : Option STHAnchorAttempt → AnchorTables → Prop} {bad : Err → AnchorTables → Prop}
    (ensured : Ensures outcome good bad) (passes : ∀ value next, good value next → done none next) :
    Ensures (AnchorCall.run.unit outcome) done bad := by
  match outcome, ensured with
  | (.ok value, state), reached => exact passes value state reached
  | (.error failure, state), failed => exact failed

theorem AnchorCall.run_ensures (call : AnchorCall) :
    Ensures (call.run library suite faults tables)
      (fun claimed next => Change library tables next call claimed ∧ Kept tables next)
      (fun _ next => Frame tables next) := by
  cases call with
  | put result => exact unit_ensures (putSTHAnchorResult_ensures result) fun _ _ => id
  | update expected result => exact unit_ensures (updateSTHAnchorResult_ensures expected result) fun _ _ => id
  | upsert candidate => exact unit_ensures (upsertSTHAnchorCandidate_ensures candidate) fun _ _ => id
  | claim key nowUnixN leaseUntilUnixN leaseOwner leaseToken =>
    exact claimSTHAnchorAttempt_ensures key nowUnixN leaseUntilUnixN leaseOwner leaseToken
  | compareAndSwap key generation leaseToken nowUnixN expected state =>
    exact unit_ensures (replaceSchedule_ensures _ _ key _ rfl (by simp) fun _ _ =>
      compareAndSwapProviderState_revises) fun _ _ => id
  | reschedule key generation leaseToken attempts nextAttemptUnixN lastErrorMessage =>
    exact unit_ensures (replaceSchedule_ensures _ _ key _ rfl (by simp) fun _ _ => reschedule_revises) fun _ _ => id
  | fail key generation leaseToken attempts lastErrorMessage =>
    exact unit_ensures (replaceSchedule_ensures _ _ key _ rfl (by simp) fun _ _ => fail_revises) fun _ _ => id
  | complete key generation leaseToken result =>
    exact unit_ensures (completeSTHAnchorAttempt_ensures key generation leaseToken result) fun _ _ => id
  | restore schedule replace =>
    exact unit_ensures (restoreSTHAnchorSchedule_ensures schedule replace) fun _ _ => id

theorem AnchorCall.run_cases (call : AnchorCall) :
    (∃ handed, Change library tables (call.run library suite faults tables).2 call handed) ∨
      Frame tables (call.run library suite faults tables).2 := by
  match call.run library suite faults tables, AnchorCall.run_ensures call with
  | (.ok handed, _), ⟨change, _⟩ => exact .inl ⟨handed, change⟩
  | (.error _, _), frame => exact .inr frame

theorem AnchorCall.run_references (references : References tables) (call : AnchorCall) :
    References (call.run library suite faults tables).2 :=
  Ensures.state (Ensures.mono (AnchorCall.run_ensures call) (fun _ _ done => done.2) fun _ _ frame => frame.kept)
    references

end

end Pebble

end TrustDB.ProofStore
