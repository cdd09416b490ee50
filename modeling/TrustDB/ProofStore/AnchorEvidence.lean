import TrustDB.ProofStore.AnchorEffects

/-!
Stored evidence does not contradict itself. The table of roots decides for every tree: results and
scheduled targets carry the root that it has, and it never changes. Results keep what binds them.
-/

namespace TrustDB.ProofStore

open Result List Option CryptoSuite Model AnchorSchedule Pebble

structure Evidence (tables : AnchorTables) : Prop where
  keyed : ∀ key result, tables.results.lookup key = some result → resultKey result = key
  results : ∀ key result, tables.results.lookup key = some result →
    tables.roots.lookup (treeOf result) = some result.rootHash
  targets : ∀ key schedule target, tables.schedules.lookup key = some schedule →
    target ∈ scheduleTargets schedule →
    tables.roots.lookup (key.nodeID, key.logID, target.treeSize) = some target.rootHash

def Grows (tables next : AnchorTables) : Prop :=
  ∀ tree rootHash, tables.roots.lookup tree = some rootHash → next.roots.lookup tree = some rootHash

section

variable {library : Library} {suite : ID} {faults : AnchorFaults} {tables next : AnchorTables}
  {schedule : Option STHAnchorSchedule} {result : Option STHAnchorResult}
  {roots : List ((String × String × Nat) × Bytes)}

theorem Roots.set {tree rootHash} (rooted : Roots tables tree rootHash roots)
    (applies : Applies schedule result roots tables next) :
    Grows tables next ∧ next.roots.lookup tree = some rootHash := by
  have written := applies.roots
  rcases rooted with ⟨absent, rfl⟩ | ⟨present, rfl⟩
  · refine ⟨fun other known found => ?_, ?_⟩
    · rw [written]
      refine (AList.lookup_insert_ne ?_).trans found
      rintro rfl
      rw [absent] at found
      cases found
    · rw [written]
      exact AList.lookup_insert _
  · refine ⟨fun other known found => ?_, ?_⟩
    · rw [written]
      exact found
    · rw [written]
      exact present

theorem Applies.grows_nil (applies : Applies schedule result [] tables next) : Grows tables next := by
  intro tree rootHash found
  rw [applies.roots]
  exact found

def Apart (targets : List SignedTreeHead) : Prop := (targets.map SignedTreeHead.treeSize).Nodup

theorem roots_foldl {key : STHAnchorScheduleKey} {targets : List SignedTreeHead}
    {pieces : List (List ((String × String × Nat) × Bytes))} (each : Forall₂ (fun target piece =>
      Roots tables (key.nodeID, key.logID, target.treeSize) target.rootHash piece) targets pieces)
    (apart : Apart targets) (table : Table (String × String × Nat) Bytes)
    (agrees : ∀ target ∈ targets, table.lookup (key.nodeID, key.logID, target.treeSize) =
      tables.roots.lookup (key.nodeID, key.logID, target.treeSize)) :
    (∀ tree rootHash, table.lookup tree = some rootHash →
      (pieces.flatten.foldl (fun table root => table.insert root.1 root.2) table).lookup tree = some rootHash) ∧
    ∀ target ∈ targets, (pieces.flatten.foldl (fun table root => table.insert root.1 root.2) table).lookup
      (key.nodeID, key.logID, target.treeSize) = some target.rootHash := by
  induction each generalizing table with
  | nil => exact ⟨fun _ _ found => found, by simp⟩
  | @cons target piece others pieces rooted each ih =>
    obtain ⟨alone, rest⟩ := nodup_cons.mp apart
    simp only [flatten_cons, foldl_append]
    have first : ∃ after : Table (String × String × Nat) Bytes,
        piece.foldl (fun table root => table.insert root.1 root.2) table = after ∧
        (∀ tree rootHash, table.lookup tree = some rootHash → after.lookup tree = some rootHash) ∧
        after.lookup (key.nodeID, key.logID, target.treeSize) = some target.rootHash ∧
        ∀ other ∈ others, after.lookup (key.nodeID, key.logID, other.treeSize) =
          tables.roots.lookup (key.nodeID, key.logID, other.treeSize) := by
      have own := agrees target mem_cons_self
      have later := fun other member => agrees other (mem_cons_of_mem target member)
      rcases rooted with ⟨absent, rfl⟩ | ⟨present, rfl⟩
      · refine ⟨_, rfl, fun tree rootHash found => ?_, AList.lookup_insert _, fun other member => ?_⟩
        · refine (AList.lookup_insert_ne ?_).trans found
          rintro rfl
          rw [own, absent] at found
          cases found
        · refine (AList.lookup_insert_ne fun same => alone ?_).trans (later other member)
          have sizes : other.treeSize = target.treeSize := congrArg (fun tree => tree.2.2) same
          exact sizes ▸ mem_map_of_mem member
      · exact ⟨table, rfl, fun _ _ found => found, own.trans present, later⟩
    obtain ⟨after, same, grows, set, agreesLater⟩ := first
    rw [same]
    obtain ⟨growsLater, setLater⟩ := ih rest after agreesLater
    refine ⟨fun tree rootHash found => growsLater _ _ (grows _ _ found), fun other member => ?_⟩
    rcases mem_cons.mp member with rfl | member
    · exact growsLater _ _ set
    · exact setLater other member

theorem TargetRoots.set {key : STHAnchorScheduleKey} {targets : List SignedTreeHead}
    (rooted : TargetRoots tables key targets roots) (apart : Apart targets)
    (applies : Applies schedule result roots tables next) :
    Grows tables next ∧ ∀ target ∈ targets,
      next.roots.lookup (key.nodeID, key.logID, target.treeSize) = some target.rootHash := by
  obtain ⟨pieces, each, rfl⟩ := rooted
  rw [Grows, applies.roots]
  exact roots_foldl each apart tables.roots fun _ _ => rfl

theorem Evidence.applies (evidence : Evidence tables) (applies : Applies schedule result roots tables next)
    (grows : Grows tables next)
    (added : ∀ new, result = some new → next.roots.lookup (treeOf new) = some new.rootHash)
    (made : ∀ new, schedule = some new → ∀ target ∈ scheduleTargets new,
      next.roots.lookup (new.key.nodeID, new.key.logID, target.treeSize) = some target.rootHash) :
    Evidence next := by
  have resultCases : ∀ {key stored}, next.results.lookup key = some stored →
      (result = some stored ∧ resultKey stored = key) ∨ tables.results.lookup key = some stored := by
    intro key stored found
    rcases applies.result_cases key with same | ⟨added, isNew, keyed, written⟩
    · exact .inr (same.symm.trans found)
    · cases written.symm.trans found
      exact .inl ⟨isNew, keyed⟩
  refine ⟨fun key stored found => ?_, fun key stored found => ?_, fun key stored target found scheduled => ?_⟩
  · rcases resultCases found with ⟨_, same⟩ | before
    · exact same
    · exact evidence.keyed key stored before
  · rcases resultCases found with ⟨new, _⟩ | before
    · exact added stored new
    · exact grows _ _ (evidence.results key stored before)
  · rcases applies.schedule_cases key with same | ⟨new, isNew, rfl, written⟩
    · exact grows _ _ (evidence.targets key stored target (same.symm.trans found) scheduled)
    · obtain rfl := some.inj (written.symm.trans found)
      exact made new isNew target scheduled

theorem Evidence.replacing (evidence : Evidence tables) {current made}
    (applies : Applies (some made) none [] tables next)
    (found : tables.schedules.lookup made.key = some current)
    (targets : ∀ target ∈ scheduleTargets made, target ∈ scheduleTargets current) : Evidence next := by
  refine evidence.applies applies applies.grows_nil (by simp) fun new same target scheduled => ?_
  cases same
  exact applies.grows_nil _ _ (evidence.targets _ current target found (targets target scheduled))

theorem Evidence.retaining (evidence : Evidence tables) {current made}
    (applies : Applies (some made) none [] tables next)
    (found : tables.schedules.lookup current.key = some current) (retains : Retains current made) :
    Evidence next :=
  evidence.replacing applies (retains.2 ▸ found) fun _ scheduled => retains.1 ▸ scheduled

theorem Reconciled.apart {current settled} (reconciled : Reconciled library tables current settled)
    (valid : Valid current) : Apart (scheduleTargets settled) := by
  obtain ⟨inFlight, pending⟩ := reconciled.parts
  unfold Apart scheduleTargets
  cases flight : settled.inFlight with
  | none => cases settled.pending <;> simp
  | some attempt =>
    cases window : settled.pending with
    | none => simp
    | some open_ =>
      have order := (valid.follows open_ attempt (pending open_ window) (inFlight attempt flight)).2
      simp
      omega

theorem Change.keeps_evidence {call handed} (change : Change library tables next call handed)
    (evidence : Evidence tables) : Evidence next := by
  cases change with
  | idle _ frame => exact evidence.applies frame.applies frame.applies.grows_nil (by simp) (by simp)
  | put found _ rooted applies =>
    obtain ⟨grows, set⟩ := Roots.set rooted applies
    refine evidence.applies applies grows (fun new same => ?_) (by simp)
    split at same
    · rename_i absent
      cases same
      rwa [isNone_iff_eq_none.mp absent] at set
    · cases same
  | update _ _ _ rooted applies =>
    obtain ⟨grows, set⟩ := Roots.set rooted applies
    refine evidence.applies applies grows (fun new same => ?_) (by simp)
    cases same
    exact set
  | upsert merged _ _ rooted applies =>
    obtain ⟨grows, set⟩ := Roots.set rooted applies
    refine evidence.applies applies grows (by simp) fun new same target scheduled => ?_
    split at same
    · cases same
      rw [mergeCandidate_key merged]
      obtain ⟨mergeable, outcome⟩ := mergeCandidate_eq_ok merged
      rcases outcome with ⟨found, _⟩ | ⟨found, _⟩ | ⟨_, _, rfl, _⟩ | ⟨rfl, _⟩
      · exact grows _ _ (evidence.targets _ _ target found scheduled)
      · exact grows _ _ (evidence.targets _ _ target found scheduled)
      · simp [scheduleTargets, createdFor] at scheduled
      · rcases mem_openWindow.mp scheduled with ⟨attempt, inFlight, rfl⟩ | rfl
        · cases known : tables.schedules.lookup _ with
          | none =>
            rw [known] at inFlight
            cases inFlight
          | some current =>
            rw [known] at inFlight
            exact grows _ _ (evidence.targets _ current _ known
              (mem_scheduleTargets.mpr (.inl ⟨attempt, inFlight, rfl⟩)))
        · exact set
    · cases same
  | claim found keyed reconciled claimed applies =>
    obtain ⟨targets, key⟩ := claim_retains claimed
    refine evidence.replacing applies ((key.trans (reconciled.key.trans keyed)) ▸ found) fun target scheduled => ?_
    exact reconciled.targets (targets ▸ scheduled)
  | revise _ _ found keyed revises applies => exact evidence.retaining applies (keyed ▸ found) revises.retains
  | known found keyed _ _ _ _ settles applies =>
    exact evidence.replacing applies ((settles.key.trans keyed) ▸ found) fun _ scheduled => settles.targets scheduled
  | complete found keyed _ done rooted applies =>
    obtain ⟨_, _, _, _, settles⟩ := complete_eq_ok done
    obtain ⟨grows, set⟩ := Roots.set rooted applies
    refine evidence.applies applies grows (fun new same => ?_) fun new same target scheduled => ?_
    · cases same
      exact set
    · cases same
      refine grows _ _ (evidence.targets _ _ target ?_ (settles.targets scheduled))
      rw [settles.key, keyed]
      exact found
  | restore valid reconciled rooted applies =>
    obtain ⟨grows, set⟩ := TargetRoots.set rooted (Reconciled.apart reconciled valid) applies
    refine evidence.applies applies grows (by simp) fun new same target scheduled => ?_
    cases same
    exact set target scheduled

def Binds (tables next : AnchorTables) : Prop :=
  ∀ key stored, tables.results.lookup key = some stored → ∃ kept, next.results.lookup key = some kept ∧
    resultKey kept = resultKey stored ∧ kept.rootHash = stored.rootHash ∧ kept.sth = stored.sth

theorem Binds.refl (tables : AnchorTables) : Binds tables tables :=
  fun _ stored found => ⟨stored, found, rfl, rfl, rfl⟩

theorem Binds.trans {middle} (one : Binds tables middle) (two : Binds middle next) : Binds tables next := by
  intro key stored found
  obtain ⟨first, foundFirst, keyFirst, rootFirst, headFirst⟩ := one key stored found
  obtain ⟨second, foundSecond, keySecond, rootSecond, headSecond⟩ := two key first foundFirst
  exact ⟨second, foundSecond, keySecond.trans keyFirst, rootSecond.trans rootFirst, headSecond.trans headFirst⟩

theorem Change.binds {call handed} (change : Change library tables next call handed) : Binds tables next := by
  intro key stored found
  obtain ⟨kept, present, same⟩ := change.keeps_result found
  refine ⟨kept, present, ?_⟩
  rw [← same]
  exact ⟨rfl, rfl, rfl⟩

theorem AnchorCall.run_keeps_evidence (call : AnchorCall) (evidence : Evidence tables) :
    Evidence (call.run library suite faults tables).2 := by
  rcases AnchorCall.run_cases call with ⟨_, change⟩ | frame
  · exact Change.keeps_evidence change evidence
  · exact evidence.applies frame.applies frame.applies.grows_nil (by simp) (by simp)

theorem AnchorCall.run_binds (call : AnchorCall) : Binds tables (call.run library suite faults tables).2 := by
  rcases AnchorCall.run_cases call with ⟨_, change⟩ | frame
  · exact Change.binds change
  · exact fun key stored found => ⟨stored, by rwa [frame.results], rfl, rfl, rfl⟩

theorem evidence_empty : Evidence .empty :=
  ⟨fun _ _ found => (nomatch found), fun _ _ found => (nomatch found), fun _ _ _ found => (nomatch found)⟩

def Attests (tables : AnchorTables) (nodeID logID : String) (treeSize : Nat) (rootHash : Bytes) : Prop :=
  (∃ key result, tables.results.lookup key = some result ∧ result.nodeID = nodeID ∧ result.logID = logID ∧
    result.treeSize = treeSize ∧ result.rootHash = rootHash) ∨
  ∃ key schedule target, tables.schedules.lookup key = some schedule ∧ target ∈ scheduleTargets schedule ∧
    key.nodeID = nodeID ∧ key.logID = logID ∧ target.treeSize = treeSize ∧ target.rootHash = rootHash

theorem Evidence.attested (evidence : Evidence tables) {nodeID logID treeSize rootHash}
    (attested : Attests tables nodeID logID treeSize rootHash) :
    tables.roots.lookup (nodeID, logID, treeSize) = some rootHash := by
  rcases attested with ⟨key, stored, found, rfl, rfl, rfl, rfl⟩ | ⟨key, schedule, target, found, scheduled, rfl, rfl,
    rfl, rfl⟩
  · exact evidence.results key stored found
  · exact evidence.targets key schedule target found scheduled

/-- Whatever calls are made on an empty store, and however they fail: there is one root for a tree,
results keep what binds them, and references name the largest result. -/
theorem evidence_never_contradicts (library : Library) (suite : ID) (steps : List AnchorStep) :
    (∀ nodeID logID treeSize first second,
      Attests (AnchorTables.empty.after library suite steps) nodeID logID treeSize first →
      Attests (AnchorTables.empty.after library suite steps) nodeID logID treeSize second → first = second) ∧
    (∀ later key result, (AnchorTables.empty.after library suite steps).results.lookup key = some result →
      resultKey result = key ∧
      ∃ kept, (AnchorTables.empty.after library suite (steps ++ later)).results.lookup key = some kept ∧
        resultKey kept = key ∧ kept.rootHash = result.rootHash ∧ kept.sth = result.sth) ∧
    ∀ stream, Names (AnchorTables.empty.after library suite steps) stream := by
  have evidence : Evidence (AnchorTables.empty.after library suite steps) :=
    List.foldlRecOn steps _ evidence_empty fun _ held step _ => AnchorCall.run_keeps_evidence step.1 held
  refine ⟨fun nodeID logID treeSize first second one two => ?_, fun later key result found => ?_, ?_⟩
  · exact Option.some.inj ((evidence.attested one).symm.trans (evidence.attested two))
  · have keyed := evidence.keyed key result found
    have bound : Binds (AnchorTables.empty.after library suite steps)
        ((AnchorTables.empty.after library suite steps).after library suite later) :=
      List.foldlRecOn later _ (Binds.refl _) fun _ held step _ => held.trans (AnchorCall.run_binds step.1)
    obtain ⟨kept, foundKept, key, root, head⟩ := bound key result found
    refine ⟨keyed, kept, ?_, key.trans keyed, root, head⟩
    rw [AnchorTables.after, List.foldl_append]
    exact foundKept
  · exact List.foldlRecOn steps _ references_empty fun _ held step _ => AnchorCall.run_references held step.1

end

end TrustDB.ProofStore
