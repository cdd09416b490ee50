import TrustDB.GlobalLog.FileCommit

/-!
Calls over the file store, interrupted anywhere and repeated in any order. A by-batch file
that outlives its append goes wrong only when another leaf takes its index, so the calls
that must wait are those that bring a fresh batch.
-/

namespace TrustDB.GlobalLog

open Result List CryptoSuite TrustCrypto Merkle Model HashTree ProofStore

section

variable {hashes : Hashes} {codec : Codec} {service : Service} {provider : Provider} {files : Files}
  {digests : List Digest} {leaf : GlobalLogLeaf} {suite : ID}

theorem putNodes_ensures {stamps faults} (nodes : List GlobalLogNode) :
    ∀ {files : Files}, Writing hashes codec provider files.toTables digests leaf →
      (∀ node ∈ nodes, Beyond digests node) →
      Ensures (Service.putNodes (Local.store suite stamps faults) nodes files)
        (fun _ after => Writing hashes codec provider after.toTables digests leaf ∧
          after.toTables = (nodes.map fun node =>
            storedNode ((stamps node.startIndex).node node.level) node).foldl Tables.putNode files.toTables)
        (fun _ after => Sound hashes codec provider after.toTables) := by
  induction nodes with
  | nil => intro files writing _; exact ⟨writing, rfl⟩
  | cons node rest ih =>
    intro files writing beyond
    have first : Ensures ((Local.store suite stamps faults).putGlobalLogNode files node)
        (fun _ after => Writing hashes codec provider after.toTables digests leaf ∧
          after.toTables = files.toTables.putNode (storedNode ((stamps node.startIndex).node node.level) node))
        (fun _ after => Sound hashes codec provider after.toTables) := by
      apply Ensures.check
      · exact fun _ _ => writing.sound
      · intro _ _
        exact (putGlobalLogNode_ensures writing (beyond node (by simp))).mono (fun _ _ => id)
          fun _ _ => And.left
    refine first.chain ?_
    rintro _ middle ⟨written, tables⟩
    refine (ih written fun other member => beyond other (by simp [member])).mono ?_ fun _ _ => id
    rintro _ after ⟨all, done⟩
    exact ⟨all, by rw [done, tables]; rfl⟩

theorem leavesFrom_missing (limit : Nat) {index : Nat} (missing : files.leaves.lookup index = none) :
    Local.leavesFrom files limit index = [] := by
  cases limit with
  | zero => rfl
  | succ limit => rw [Local.leavesFrom, missing]

theorem getGlobalLogState_files (suite : ID) (attempt : Local.Attempt) (files : Files) :
    (attempt.over suite).store.getGlobalLogState files = .ok files.state ∨
      ∃ err, (attempt.over suite).store.getGlobalLogState files = .error err := by
  simp only [Local.Attempt.over, Local.store]
  cases attempt.faults.refused .getGlobalLogState with
  | none => exact .inl rfl
  | some err => exact .inr ⟨err, rfl⟩

theorem listGlobalLeavesRange_files (suite : ID) (attempt : Local.Attempt) (files : Files) (index : Nat) :
    (attempt.over suite).store.listGlobalLeavesRange files index 1024 = .ok (Local.leavesFrom files 1024 index) ∨
      ∃ err, (attempt.over suite).store.listGlobalLeavesRange files index 1024 = .error err := by
  simp only [Local.Attempt.over, Local.store, Local.listGlobalLeavesRange]
  cases attempt.faults.refused (.listGlobalLeavesRange index 1024) with
  | none => exact .inl rfl
  | some err => exact .inr ⟨err, rfl⟩

theorem rebuildPages_done (attempt : Local.Attempt) (pages : Nat) (state : GlobalLogState)
    {index : Nat} (missing : files.leaves.lookup index = none) :
    Ensures (Service.rebuildPages hashes service (attempt.over suite) (pages + 1) state index files)
      (fun rebuilt after => rebuilt = state ∧ after = files) (fun _ after => after = files) := by
  rw [Service.rebuildPages]
  rcases listGlobalLeavesRange_files suite attempt files index with listed | ⟨err, listed⟩ <;> rw [listed]
  · rw [leavesFrom_missing _ missing]
    exact ⟨rfl, rfl⟩
  · rfl

theorem rebuildPages_first (attempt : Local.Attempt) (pages : Nat)
    (writing : Writing hashes codec service.provider files.toTables [] leaf)
    (only : ∀ index leaf, files.leaves.lookup index = some leaf → index = 0) :
    Ensures (Service.rebuildPages hashes service (attempt.over suite) (pages + 2) service.emptyState 0 files)
      (fun state after => ∃ digest, leaf.leafHash = digest.bytes ∧
        Writing hashes codec service.provider after.toTables [] leaf ∧
        Noded hashes service.provider [digest] after.toTables ∧ Tracks hashes service.provider [digest] state)
      (fun _ after => Sound hashes codec service.provider after.toTables) := by
  obtain ⟨index, genuine⟩ := writing.keeps.genuine _ _ writing.here
  have missing : ∀ {after : Files}, after.leaves = files.leaves → after.leaves.lookup 1 = none := by
    intro after same
    rw [same]
    cases found : files.leaves.lookup 1 with
    | none => rfl
    | some other => exact absurd (only 1 other found) (by simp)
  have page : Local.leavesFrom files 1024 0 = [leaf] := by
    have here : files.leaves.lookup 0 = some leaf := writing.here
    rw [Local.leavesFrom, here]
    exact congrArg _ (leavesFrom_missing _ (missing rfl))
  have hash : leaf.leafHash = (bytesToHash leaf.leafHash).bytes :=
    (Digest.bytes_ofBytes (hashLeafWithProvider_length genuine.hash)).symm
  obtain ⟨next, nodes, appended, tracked, closed⟩ := appendState_eq
    (tracks_emptyState hashes service) (attempt.rebuiltAt service.emptyState.treeSize) genuine.suite
    index hash
  have emitted : Emitted hashes service.provider ([] ++ [bytesToHash leaf.leafHash])
      ([] : List Digest).length nodes := closed.emitted (by simp)
  rw [Service.rebuildPages]
  rcases listGlobalLeavesRange_files suite attempt files 0 with listed | ⟨err, listed⟩ <;> rw [listed]
  · rw [page]
    have first : Ensures (Service.rebuildPage hashes service (attempt.over suite) [leaf]
        service.emptyState 0 files)
        (fun progress after => progress = (next, 1) ∧ after.leaves = files.leaves ∧
          Writing hashes codec service.provider after.toTables [] leaf ∧
          Noded hashes service.provider [bytesToHash leaf.leafHash] after.toTables)
        (fun _ after => Sound hashes codec service.provider after.toTables) := by
      have rebuilt : Service.appendState hashes service
          ((attempt.over suite).rebuiltAt service.emptyState.treeSize) service.emptyState leaf =
            .ok (next, nodes) := appended
      rw [Service.rebuildPage, rebuilt]
      refine (putNodes_ensures nodes writing emitted.beyond).chain ?_
      rintro _ after ⟨written, tables⟩
      refine ⟨by rw [index]; rfl, ?_, written, ?_⟩
      · rw [tables, Tables.putNodes_frame]
      · rw [tables]
        refine noded_of_emitted emitted ?_
        rw [map_map]
        rfl
    refine first.chain ?_
    rintro _ after ⟨rfl, same, written, noded⟩
    refine (rebuildPages_done attempt pages next (missing same)).mono ?_ ?_
    · rintro _ _ ⟨rfl, rfl⟩
      exact ⟨_, hash, written, noded, tracked⟩
    · rintro _ _ rfl
      exact written.sound
  · exact writing.sound

structure Loaded (hashes : Hashes) (codec : Codec) (provider : Provider) (files after : Files)
    (state : GlobalLogState) (digests : List Digest) : Prop where
  tracks : Tracks hashes provider digests state
  keeps : Keeps hashes codec provider after.toTables digests
  counts : Counts hashes provider after.toTables digests
  ready : ¬files.toTables.Interrupted → Ready hashes codec provider after.toTables digests
  same : files.toTables.Interrupted → after = files

theorem Ready.loaded {state after} (ready : Ready hashes codec provider after.toTables digests)
    (tracked : Tracks hashes provider digests state) (quiet : ¬files.toTables.Interrupted) :
    Loaded hashes codec provider files after state digests :=
  ⟨tracked, ready.keeps, ready.counts, fun _ => ready, fun stopped => absurd stopped quiet⟩

theorem loadState_ensures (attempt : Local.Attempt)
    (sound : Sound hashes codec service.provider files.toTables) :
    Ensures (Service.loadState hashes service (attempt.over suite) files)
      (fun state after => ∃ digests, Loaded hashes codec service.provider files after state digests)
      (fun _ after => Sound hashes codec service.provider after.toTables) := by
  obtain ⟨digests, keeps, counts⟩ := id sound
  rw [Service.loadState]
  rcases getGlobalLogState_files suite attempt files with read | ⟨err, read⟩ <;> rw [read]
  · cases stated : files.state with
    | some state =>
      have tracked : Tracks hashes service.provider digests state := by
        rwa [Counts, stated] at counts
      dsimp only
      cases requireSame service.provider.suite [state.cryptoSuite] with
      | error err => exact sound
      | ok =>
        refine ⟨digests, tracked, keeps, counts, fun quiet => ?_, fun _ => rfl⟩
        refine ⟨keeps, counts, fun batchID leaf named => ?_, fun missing => ?_⟩
        · by_contra beyond
          exact quiet ⟨state, stated, batchID, leaf, named, by rw [tracked.size]; omega⟩
        · rw [stated] at missing
          simp at missing
    | none =>
      have quiet : ¬files.toTables.Interrupted := by
        rintro ⟨state, found, _⟩
        rw [stated] at found
        simp at found
      have first := counts
      rw [Counts, stated] at first
      obtain ⟨rfl, only, named⟩ := first
      cases here : files.leaves.lookup 0 with
      | none =>
        have ready : Ready hashes codec service.provider files.toTables [] := by
          refine ⟨keeps, counts, fun batchID leaf found => ?_, fun _ index => ?_⟩
          · have written := named batchID leaf found
            rw [here] at written
            simp at written
          · cases found : files.leaves.lookup index with
            | none => rfl
            | some leaf =>
              rw [only index leaf found, here] at found
              simp at found
        have rebuilt : Ensures (Service.rebuildPages hashes service (attempt.over suite)
            (2 ^ 64) service.emptyState 0 files)
            (fun state after => state = service.emptyState ∧ after = files)
            (fun _ after => after = files) := rebuildPages_done attempt (2 ^ 64 - 1) _ here
        refine (rebuilt.mono (fun _ _ => id) ?_).chain ?_
        · rintro _ _ rfl
          exact sound
        · rintro _ _ ⟨rfl, rfl⟩
          exact ⟨[], ready.loaded (tracks_emptyState hashes service) quiet⟩
      | some leaf =>
        have writing : Writing hashes codec service.provider files.toTables [] leaf := by
          refine ⟨keeps, counts, here, fun batchID other found => .inr ?_⟩
          exact Option.some.inj ((named batchID other found).symm.trans here)
        refine (rebuildPages_first attempt (2 ^ 64 - 2) writing only).chain ?_
        rintro state middle ⟨digest, hash, written, noded, tracked⟩
        have positive : 0 < state.treeSize := by rw [tracked.size]; simp
        have put : Ensures ((attempt.over suite).store.putGlobalLogState middle state)
            (fun _ after => Ready hashes codec service.provider after.toTables ([] ++ [digest]))
            (fun _ after => Sound hashes codec service.provider after.toTables) := by
          apply Ensures.check
          · exact fun _ _ => written.sound
          · intro _ _
            exact (putGlobalLogState_ensures written hash noded tracked).mono
              (fun _ _ => And.left) fun _ _ => And.left
        simp only [if_pos positive]
        refine put.chain ?_
        intro _ after ready
        exact ⟨[digest], ready.loaded tracked quiet⟩
  · exact sound

theorem Keeps.shown (keeps : Keeps hashes codec provider files.toTables digests) (attempt : Local.Attempt) :
    Shows (attempt.over suite).store files files.leavesByBatch.keys (Named files) where
  answered := by
    intro batchID leaf sth leafRead headRead
    simp only [Local.Attempt.over, Local.store, Local.getSignedTreeHead, Tables.getGlobalLeafByBatchID,
      Tables.getSignedTreeHead, bind_eq_ok, return_eq_ok] at leafRead headRead
    obtain ⟨_, _, _, _, named⟩ := leafRead
    obtain ⟨_, _, _, _, headed⟩ := headRead
    have batch := (keeps.byBatch batchID leaf named).1
    exact ⟨by rw [batch]; exact named, headed⟩
  absent := by
    intro batchID read member
    simp only [Local.Attempt.over, Local.store, Tables.getGlobalLeafByBatchID, bind_eq_ok, return_eq_ok] at read
    obtain ⟨_, _, _, _, missing⟩ := read
    exact AList.lookup_eq_none.mp missing member

theorem planRoot_named (attempt : Local.Attempt) {moment plan next root}
    (named : files.leavesByBatch.lookup root.batchID ≠ none)
    (done : Service.planRoot hashes codec service (attempt.over suite).store files moment plan root =
      .ok next) : next.appends = plan.appends := by
  simp only [Service.planRoot, bind_eq_ok] at done
  obtain ⟨_, _, done⟩ := done
  rw [← Service.bindIdentity_batchID service root] at named
  generalize service.bindIdentity root = bound at *
  split at done
  · simp only [bind_eq_ok, return_eq_ok] at done
    obtain ⟨_, _, rfl⟩ := done
    rfl
  · simp only [bind_eq_ok] at done
    obtain ⟨durable, read, done⟩ := done
    simp only [Local.Attempt.over, Local.store, Tables.getGlobalLeafByBatchID, bind_eq_ok, return_eq_ok] at read
    obtain ⟨_, _, _, _, rfl⟩ := read
    cases found : files.leavesByBatch.lookup bound.batchID with
    | none => exact absurd found named
    | some existing =>
      rw [found] at done
      simp only [Service.planReplay, bind_eq_ok] at done
      obtain ⟨_, _, head, _, done⟩ := done
      cases head with
      | none => simp [throw_eq_error] at done
      | some sth =>
        simp only [bind_eq_ok, return_eq_ok] at done
        obtain ⟨_, _, rfl⟩ := done
        rfl

theorem planRoots_named (attempt : Local.Attempt) (roots : List BatchRoot) :
    ∀ {position : Nat} {plan last : Plan},
      (∀ root ∈ roots, files.leavesByBatch.lookup root.batchID ≠ none) →
      Service.planRoots hashes codec service (attempt.over suite) files position roots plan = .ok last →
      last.appends = plan.appends := by
  induction roots with
  | nil =>
    intro position plan last _ done
    simp only [Service.planRoots, return_eq_ok] at done
    rw [done]
  | cons root rest ih =>
    intro position plan last named done
    simp only [Service.planRoots, bind_eq_ok] at done
    obtain ⟨next, turn, done⟩ := done
    rw [ih (fun other member => named other (by simp [member])) done,
      planRoot_named attempt (named root (by simp)) turn]

def Careful (files : Files) (roots : List BatchRoot) : Prop :=
  files.toTables.Interrupted → ∀ root ∈ roots, files.leavesByBatch.lookup root.batchID ≠ none

instance (files : Files) (roots : List BatchRoot) : Decidable (Careful files roots) :=
  inferInstanceAs (Decidable (files.toTables.Interrupted →
    ∀ root ∈ roots, files.leavesByBatch.lookup root.batchID ≠ none))

def Settled (service : Service) (files : Files) (root : BatchRoot) (sth : SignedTreeHead) : Prop :=
  ∃ entry now, Named files entry ∧ Records entry.leaf (service.bindIdentity root) ∧
    entry.head = storedHead now sth ∧ sth.schemaVersion = schemaSignedTreeHead

theorem storedHead_self {sth} (schema : sth.schemaVersion = schemaSignedTreeHead) :
    storedHead sth.timestampUnixN sth = sth := by
  have time : timeOr sth.timestampUnixN sth.timestampUnixN = sth.timestampUnixN := by simp [timeOr]
  have kept : schemaOr schemaSignedTreeHead sth.schemaVersion = sth.schemaVersion := by
    rw [schema]
    rfl
  simp only [storedHead, time, kept]

theorem Answers.settled {before after : Files} {appends : List GlobalLogAppend} {root : BatchRoot}
    {sth : SignedTreeHead} (keeps : Keeps hashes codec provider before.toTables digests)
    (kept : ∀ entry, Named before entry → Named after entry)
    (stored : ∀ given ∈ appends, ∃ entry, Named after entry ∧ StoredAs given entry)
    (schemas : ∀ given ∈ appends, given.sth.schemaVersion = schemaSignedTreeHead)
    (answered : Answers (Named before) appends (service.bindIdentity root) sth) :
    Settled service after root sth := by
  obtain ⟨entry, old | new, records, rfl⟩ := answered
  · have schema := (keeps.head _ _ old.2).2.2.schema
    exact ⟨entry, _, kept entry old, records, (storedHead_self schema).symm, schema⟩
  · obtain ⟨given, member, rfl⟩ := mem_map.mp new
    obtain ⟨_, named, leafTime, headTime, rfl⟩ := stored given member
    exact ⟨_, headTime, named, ⟨records.batchID, records.suite, records.nodeID, records.logID,
      records.treeSize, records.closedAt, records.batchRoot⟩, rfl, schemas given member⟩

theorem once_ensures (attempt : Local.Attempt) {roots}
    (sound : Sound hashes codec service.provider files.toTables) (careful : Careful files roots)
    (valid : ∀ root ∈ roots, root.cryptoSuite = service.provider.suite ∧ root.batchID ≠ "") : Ensures
      (Service.appendBatchRootsOnce hashes codec service (attempt.over suite) roots files)
      (fun sths after => Sound hashes codec service.provider after.toTables ∧
        Forall₂ (Settled service after) roots sths)
      (fun failure after => Sound hashes codec service.provider after.toTables ∧
        (failure.1 = true → ¬after.toTables.Interrupted)) := by
  refine Service.once_ensures ((loadState_ensures attempt sound).mono (fun _ _ => id) fun _ _ sound => ⟨sound, nofun⟩)
    (fun _ _ _ ⟨digests, load⟩ => ⟨⟨digests, load.keeps, load.counts⟩, nofun⟩) ?_
  rintro state loaded plan ⟨digests, load⟩ planned
  have plans := Plans.of_start (load.keeps.shown attempt) load.tracks valid planned
  refine ⟨fun unwritten => ⟨⟨digests, load.keeps, load.counts⟩, plans.answers.imp fun root sth answered => ?_⟩,
    fun written => ?_⟩
  · refine answered.settled load.keeps (fun _ => id) ?_ ?_ <;> simp [unwritten]
  · have quiet : ¬files.toTables.Interrupted := by
      intro stopped
      rw [load.same stopped] at planned
      exact written (planRoots_named attempt roots (careful stopped) planned)
    have commit : Ensures (Service.commitAppends (attempt.over suite).store plan.appends loaded) _ _ :=
      commitEach_ensures plan.appends (load.ready quiet)
        (fun batchID leaf found => AList.lookup_isSome.mp (by rw [found]; rfl)) plans.grows
    refine commit.mono ?_ ?_
    · rintro _ after ⟨⟨grown, ready⟩, kept, stored⟩
      exact ⟨ready.sound, plans.answers.imp fun root sth answered =>
        answered.settled load.keeps kept stored (plans.grows.headSchema _)⟩
    · rintro err after ⟨stillSound, retry⟩
      exact ⟨stillSound, fun retryable => retry (of_decide_eq_true retryable)⟩

theorem retry_ensures {call : Local.Call} (valid : ∀ root ∈ call.roots,
      root.cryptoSuite = call.service.provider.suite ∧ root.batchID ≠ "") (remaining : Nat)
    (sound : Sound hashes codec call.service.provider files.toTables) (careful : Careful files call.roots) :
    Ensures (Service.retryAppend hashes codec (call.over suite) remaining files)
      (fun sths after => Sound hashes codec call.service.provider after.toTables ∧
        Forall₂ (Settled call.service after) call.roots sths)
      (fun _ after => Sound hashes codec call.service.provider after.toTables) := by
  refine Service.retryAppend_ensures (fun files => Sound hashes codec call.service.provider files.toTables ∧
    Careful files call.roots) (fun attempt _ start => ?_) remaining ⟨sound, careful⟩
  refine (once_ensures (call.attempts attempt) start.1 start.2 valid).mono (fun _ _ => id) ?_
  rintro failure after ⟨stillSound, quiet⟩
  exact ⟨stillSound, fun retryable => ⟨stillSound, fun stopped => absurd stopped (quiet retryable)⟩⟩

section

variable (attempt : Local.Attempt) (sound : Sound hashes codec provider files.toTables)
  (foreign : service.provider ≠ provider)
include attempt sound foreign

theorem loadState_other : Ensures (Service.loadState hashes service (attempt.over suite) files)
      (fun state after => after = files ∧ state = service.emptyState ∧
        ∀ batchID, files.leavesByBatch.lookup batchID = none)
      (fun _ after => after = files) := by
  obtain ⟨digests, keeps, counts⟩ := sound
  rw [Service.loadState]
  rcases getGlobalLogState_files suite attempt files with read | ⟨err, read⟩ <;> rw [read]
  · cases stated : files.state with
    | some state =>
      rw [Counts, stated] at counts
      dsimp only
      cases checked : requireSame service.provider.suite [state.cryptoSuite] with
      | error err => rfl
      | ok =>
        have same := (requireSame_eq_ok.mp checked).2 state.cryptoSuite (by simp)
        rw [counts.suite] at same
        exact absurd (Provider.suite_injective same.symm) foreign
    | none =>
      rw [Counts, stated] at counts
      obtain ⟨_, _, named⟩ := counts
      cases here : files.leaves.lookup 0 with
      | none =>
        have rebuilt : Ensures (Service.rebuildPages hashes service (attempt.over suite)
            (2 ^ 64) service.emptyState 0 files)
            (fun state after => state = service.emptyState ∧ after = files)
            (fun _ after => after = files) := rebuildPages_done attempt (2 ^ 64 - 1) _ here
        refine rebuilt.chain ?_
        rintro _ _ ⟨rfl, rfl⟩
        refine ⟨rfl, rfl, fun batchID => ?_⟩
        cases found : AList.lookup batchID _ with
        | none => rfl
        | some leaf =>
          have written := named batchID leaf found
          rw [here] at written
          simp at written
      | some leaf =>
        have genuine := (keeps.genuine 0 leaf here).2
        have rebuilt : Ensures (Service.rebuildPages hashes service (attempt.over suite)
            (2 ^ 64 - 1 + 1) service.emptyState 0 files)
            (fun _ _ => False) (fun _ after => after = files) := by
          rw [Service.rebuildPages]
          rcases listGlobalLeavesRange_files suite attempt files 0 with listed | ⟨err, listed⟩ <;> rw [listed]
          · rw [Local.leavesFrom, here]
            simp only [Service.rebuildPage]
            cases appended : Service.appendState hashes service
                ((attempt.over suite).rebuiltAt service.emptyState.treeSize)
                service.emptyState leaf with
            | error err => simp [Ensures]
            | ok result =>
              simp only [Service.appendState, bind_eq_ok, mapError_eq_ok]
                at appended
              obtain ⟨⟨⟩, same, _⟩ := appended
              have suites := (requireSame_eq_ok.mp same).2 leaf.cryptoSuite (by simp)
              rw [genuine.suite] at suites
              exact absurd (Provider.suite_injective suites.symm) foreign
          · rfl
        refine Ensures.chain rebuilt ?_
        exact fun _ _ impossible => impossible.elim
  · rfl

theorem once_foreign {roots} (filled : roots ≠ [])
    (valid : ∀ root ∈ roots, root.cryptoSuite = service.provider.suite ∧ root.batchID ≠ "") : Ensures
      (Service.appendBatchRootsOnce hashes codec service (attempt.over provider.suite) roots files)
      (fun _ _ => False) (fun _ after => after = files) := by
  refine Service.once_ensures (loadState_other attempt sound foreign) (fun _ _ _ reached => reached.1) ?_
  obtain ⟨digests, keeps, counts⟩ := sound
  rintro _ _ plan ⟨rfl, rfl, unnamed⟩ planned
  have plans := Plans.of_start (keeps.shown attempt) (tracks_emptyState hashes service) valid planned
  refine ⟨fun unwritten => absurd (plans.roots_eq_nil (fun entry named => ?_) unwritten) filled, fun written => ?_⟩
  · rw [Named, unnamed] at named
    simp at named
  · obtain ⟨given, others, appends⟩ := exists_cons_of_ne_nil written
    have grows := plans.grows
    rw [appends] at grows ⊢
    have refused : ∃ err, Local.checkAppend provider.suite attempt.faults given = .error err := by
      cases checked : Local.checkAppend provider.suite attempt.faults given with
      | error err => exact ⟨err, rfl⟩
      | ok =>
        simp only [Local.checkAppend, requireSuite, bind_eq_ok, mapError_eq_ok] at checked
        obtain ⟨_, _, ⟨⟩, same, _⟩ := checked
        have suites := (ModelSuite.require_eq_ok.mp same).2 given.leaf.cryptoSuite (by simp)
        exact absurd (Provider.suite_injective (grows.1.follows.suite.symm.trans suites)) foreign
    obtain ⟨err, refused⟩ := refused
    simp only [Service.commitAppends, Service.commitEach, Local.Attempt.over, Local.store,
      Local.commitGlobalLogAppend, refused, chain_error]
    rfl

end

theorem call_ensures (sound : Sound hashes codec provider files.toTables) {call : Local.Call}
    (careful : Careful files call.roots) :
    Ensures (Service.appendBatchRoots hashes codec (call.over provider.suite) files)
      (fun sths after => call.service.provider = provider ∧ Sound hashes codec provider after.toTables ∧
        Forall₂ (Settled call.service after) call.roots sths)
      (fun _ after => Sound hashes codec provider after.toTables) := by
  refine Service.appendBatchRoots_ensures sound fun filled valid => ?_
  by_cases home : call.service.provider = provider
  · subst home
    exact (retry_ensures valid _ sound careful).mono (fun _ _ done => ⟨rfl, done⟩) fun _ _ => id
  · refine Service.retryAppend_ensures (· = files) (fun attempt _ same => ?_) _ rfl
    subst same
    refine (once_foreign (call.attempts attempt) sound home filled valid).mono (fun _ _ => False.elim) ?_
    rintro _ _ rfl
    exact ⟨sound, fun _ => rfl⟩

end

section

variable (hashes : Hashes) (codec : Codec) (provider : Provider)

def filesAfter (history : List Local.Call) : Files :=
  (Service.runCalls hashes codec (history.map (Local.Call.over provider.suite)) Files.empty).2

def CarefulRun : Files → List Local.Call → Prop
  | _, [] => True
  | files, call :: rest => Careful files call.roots ∧
      CarefulRun (Service.appendBatchRoots hashes codec (call.over provider.suite) files).2 rest

instance decidableCarefulRun : ∀ files history, Decidable (CarefulRun hashes codec provider files history)
  | _, [] => inferInstanceAs (Decidable True)
  | files, call :: rest =>
    have := decidableCarefulRun
      (Service.appendBatchRoots hashes codec (call.over provider.suite) files).2 rest
    inferInstanceAs (Decidable (_ ∧ _))

variable {hashes codec provider}

theorem carefulRun_append (history : List Local.Call) (call : Local.Call) : ∀ {files : Files},
    CarefulRun hashes codec provider files (history ++ [call]) ↔
      CarefulRun hashes codec provider files history ∧
        Careful (Service.runCalls hashes codec (history.map (Local.Call.over provider.suite)) files).2
          call.roots := by
  induction history with
  | nil => intro files; simp [CarefulRun, Service.runCalls]
  | cons first rest ih =>
    intro files
    rw [cons_append, CarefulRun, CarefulRun, ih, and_assoc]
    rfl

theorem sound_empty : Sound hashes codec provider Files.empty.toTables := by
  refine ⟨[], ⟨?_, ?_, ?_, ?_, ?_⟩, rfl, ?_, ?_⟩
  · intro index leaf found
    simp [Files.empty, Tables.empty] at found
  · intro index below
    simp at below
  · intro level block inside
    have positive : 0 < (block + 1) * 2 ^ level := Nat.mul_pos block.succ_pos (Nat.two_pow_pos level)
    rw [length_nil] at inside
    omega
  · intro size sth found
    simp [Files.empty, Tables.empty] at found
  · intro batchID leaf found
    simp [Files.empty, Tables.empty] at found
  · intro index leaf found
    simp [Files.empty, Tables.empty] at found
  · intro batchID leaf found
    simp [Files.empty, Tables.empty] at found

theorem Sound.run (history : List Local.Call) : ∀ {files : Files},
    Sound hashes codec provider files.toTables → CarefulRun hashes codec provider files history →
    Sound hashes codec provider
      (Service.runCalls hashes codec (history.map (Local.Call.over provider.suite)) files).2.toTables := by
  induction history with
  | nil => intro files sound _; exact sound
  | cons call rest ih =>
    rintro files sound ⟨careful, later⟩
    have ran := (call_ensures sound careful).mono (fun _ _ done => done.2.1) fun _ _ => id
    exact ih ran.state later

theorem Keeps.serves {files digests} (keeps : Keeps hashes codec provider files.toTables digests)
    (stamps : Nat → Stamps) :
    Serves hashes provider (Local.store provider.suite stamps .none) files digests where
  leaf := by
    intro index inside
    obtain ⟨leaf, found, hash⟩ := keeps.leaf index inside
    exact ⟨leaf, by simp [Local.store, FileFaults.none, raise, found], hash⟩
  node := by
    intro level block inside
    obtain ⟨node, found, hash⟩ := keeps.node level block inside
    exact ⟨node, by simp [Local.store, FileFaults.none, raise, found], hash⟩

end

theorem Settled.proves {hashes codec service files digests root sth} (settled : Settled service files root sth)
    (keeps : Keeps hashes codec service.provider files.toTables digests) (stamps : Nat → Stamps) :
    ∃ (leaf : GlobalLogLeaf) (proof : GlobalLogProof),
      files.leavesByBatch.lookup root.batchID = some leaf ∧
      Records leaf (service.bindIdentity root) ∧
      hashLeafWithProvider hashes codec service.provider leaf = .ok leaf.leafHash ∧
      files.leaves.lookup leaf.leafIndex = some leaf ∧ sth.treeSize = leaf.leafIndex + 1 ∧
      Service.inclusionProof hashes service (Local.store service.provider.suite stamps .none) files
        root.batchID sth.treeSize = (.ok proof, files) ∧
      proof.leafHash = leaf.leafHash ∧ proof.leafIndex = leaf.leafIndex ∧
      (∃ now, proof.sth = storedHead now sth) ∧
      (sth.treeSize ≤ 2 ^ 62 → ∃ fuel,
        verifyInclusionWithProvider hashes fuel service.provider { proof with sth := sth } =
          some true) := by
  obtain ⟨⟨leaf, head⟩, now, ⟨named, headed⟩, records, stored, schema⟩ := settled
  have batch : leaf.batchID = root.batchID := by
    rw [records.batchID, Service.bindIdentity_batchID]
  obtain ⟨_, within, commits⟩ := keeps.head _ _ headed
  obtain ⟨_, genuine, committed⟩ := keeps.byBatch _ _ named
  have inside : leaf.leafIndex < digests.length := within
  have here := committed inside
  subst stored
  have size : sth.treeSize = leaf.leafIndex + 1 := commits.treeSize
  have length : (digests.take (leaf.leafIndex + 1)).length = leaf.leafIndex + 1 := by
    rw [length_take]
    omega
  rw [batch] at named
  have leafHash : leaf.leafHash =
      (leafAt (digests.take (leaf.leafIndex + 1)) leaf.leafIndex).bytes := by
    obtain ⟨other, found, hash⟩ := keeps.leaf leaf.leafIndex inside
    cases found.symm.trans here
    rw [hash, leafAt_take (Nat.lt_succ_self _)]
  have nameGiven : root.batchID ≠ "" := batch ▸ genuine.named
  have proved : Service.inclusionProof hashes service
      (Local.store service.provider.suite stamps .none) files root.batchID (leaf.leafIndex + 1) =
        (.ok (proofOf hashes service digests leaf (storedHead now sth) (leaf.leafIndex + 1)), files) := by
    apply (keeps.serves stamps).inclusionProof
    · simp [Local.store, FileFaults.none, Tables.getGlobalLeafByBatchID, raise, reject, nameGiven, named]
    · simp [Local.store, Local.getSignedTreeHead, FileFaults.none, Tables.getSignedTreeHead,
        raise, reject, headed]
    · exact batch
    · exact Nat.lt_succ_self _
    · exact within
  rw [← size] at proved
  refine ⟨leaf, _, named, records, genuine.hash, here, size, proved, rfl, rfl, ⟨now, rfl⟩, ?_⟩
  rw [size]
  intro bound
  have below : leaf.leafIndex < (digests.take (leaf.leafIndex + 1)).length := by omega
  have small : (digests.take (leaf.leafIndex + 1)).length ≤ 2 ^ 62 := by omega
  exact verifyInclusion_accepts below small rfl rfl schema commits.suite commits.algorithm length.symm
    (size.trans length.symm) rfl leafHash rfl commits.root

/-- Interrupted appends, retried in any order: as long as no fresh batch is submitted while a
by-batch file names a leaf that the state does not count, every tree head returned for a batch
commits to the leaf stored for it, and the inclusion proof for the batch is accepted. -/
theorem answered_batch_verifies (hashes : Hashes) (codec : Codec) (provider : Provider)
    (before : List Local.Call) (call : Local.Call) (stamps : Nat → Stamps)
    (careful : CarefulRun hashes codec provider Files.empty (before ++ [call]))
    {sths : List SignedTreeHead} {after : Files}
    (returned : Service.appendBatchRoots hashes codec (call.over provider.suite)
      (filesAfter hashes codec provider before) = (.ok sths, after)) :
    List.Forall₂ (fun root sth => ∃ (leaf : GlobalLogLeaf) (proof : GlobalLogProof),
        after.leavesByBatch.lookup root.batchID = some leaf ∧
        Records leaf (call.service.bindIdentity root) ∧
        hashLeafWithProvider hashes codec provider leaf = .ok leaf.leafHash ∧
        after.leaves.lookup leaf.leafIndex = some leaf ∧ sth.treeSize = leaf.leafIndex + 1 ∧
        Service.inclusionProof hashes call.service (Local.store provider.suite stamps .none) after
          root.batchID sth.treeSize = (.ok proof, after) ∧
        proof.leafHash = leaf.leafHash ∧ proof.leafIndex = leaf.leafIndex ∧
        (∃ now, proof.sth = storedHead now sth) ∧
        (sth.treeSize ≤ 2 ^ 62 → ∃ fuel,
          verifyInclusionWithProvider hashes fuel provider { proof with sth := sth } = some true))
      call.roots sths := by
  obtain ⟨earlier, last⟩ := (carefulRun_append before call).mp careful
  have sound : Sound hashes codec provider (filesAfter hashes codec provider before).toTables :=
    Sound.run before sound_empty earlier
  have ran := call_ensures sound last
  rw [returned] at ran
  obtain ⟨rfl, ⟨digests, keeps, _⟩, settled⟩ := ran
  exact settled.imp fun root sth answered => answered.proves keeps stamps

def sampleFileCall (faults : FileFaults) (batchIDs : List String) : Local.Call where
  service := sampleService .intlV1Provider
  roots := batchIDs.map (sampleRoot .intlV1Provider)
  attempts := fun _ => {
    stamps := fun _ => { leaf := 5, node := fun _ => 5, state := 5, sth := 5 }
    faults := faults
    rebuiltAt := fun _ => 2
    moments := fun _ => {
      appendedAt := 2
      updatedAt := 2
      signedAt := 9
      sign := fun _ => .ok default } }
  canceled := fun _ => none

def fullDisk : FileFaults :=
  { FileFaults.none with
    failed := fun file => if file = .node 0 1 then some (false, .text "no space left on device") else none }

def sampleFileStore : Store Files :=
  Local.store Provider.intlV1Provider.suite
    (fun _ => { leaf := 5, node := fun _ => 5, state := 5, sth := 5 }) .none

def outstanding : List Local.Call := [sampleFileCall .none ["c"], sampleFileCall fullDisk ["a"]]

/-- A committed batch is answered while another append is outstanding. -/
theorem answered_batch_verifies_outstanding :
    ∃ (sth : SignedTreeHead) (after : Files) (proof : GlobalLogProof),
      Service.appendBatchRoots Hashes.sample Codec.sample
          ((sampleFileCall .none ["c"]).over Provider.intlV1Provider.suite)
          (filesAfter Hashes.sample Codec.sample .intlV1Provider outstanding) = (.ok [sth], after) ∧
        after.toTables.Interrupted ∧
        Service.inclusionProof Hashes.sample (sampleService .intlV1Provider) sampleFileStore after "c"
          sth.treeSize = (.ok proof, after) := by
  have careful : CarefulRun Hashes.sample Codec.sample .intlV1Provider Files.empty
      (outstanding ++ [sampleFileCall .none ["c"]]) := by
    decide +kernel
  generalize ran : Service.appendBatchRoots Hashes.sample Codec.sample
    ((sampleFileCall .none ["c"]).over Provider.intlV1Provider.suite)
    (filesAfter Hashes.sample Codec.sample .intlV1Provider outstanding) = result
  have returned : result.1.toOption.map List.length = some 1 ∧ result.2.toTables.Interrupted := by
    subst ran
    decide +kernel
  obtain ⟨outcome, after⟩ := result
  obtain ⟨sths, rfl, one⟩ := toOption_map_eq_some.mp returned.1
  obtain ⟨sth, rfl⟩ := List.length_eq_one_iff.mp one
  have answers := answered_batch_verifies Hashes.sample Codec.sample .intlV1Provider outstanding
    (sampleFileCall .none ["c"]) (fun _ => { leaf := 5, node := fun _ => 5, state := 5, sth := 5 })
    careful ran
  obtain ⟨⟨leaf, proof, _, _, _, _, _, proved, _⟩, _⟩ := List.forall₂_cons.mp answers
  exact ⟨sth, after, proof, rfl, returned.2, proved⟩

/-- Another batch takes the index of the stopped append, and then that append is retried: it is
answered with the tree head of the other batch, and its own inclusion proof is rejected. -/
theorem retried_batch_gets_another_head :
    ∃ (sth : SignedTreeHead) (after : Files) (leaf taken : GlobalLogLeaf) (proof : GlobalLogProof),
      Service.appendBatchRoots Hashes.sample Codec.sample
          ((sampleFileCall .none ["a"]).over Provider.intlV1Provider.suite)
          (filesAfter Hashes.sample Codec.sample .intlV1Provider
            (outstanding ++ [sampleFileCall .none ["b"]])) = (.ok [sth], after) ∧
        after.leavesByBatch.lookup "a" = some leaf ∧ sth.treeSize = leaf.leafIndex + 1 ∧
        after.leaves.lookup leaf.leafIndex = some taken ∧ taken.batchID = "b" ∧
        Service.inclusionProof Hashes.sample (sampleService .intlV1Provider) sampleFileStore after "a"
          sth.treeSize = (.ok proof, after) ∧
        verifyInclusionWithProvider Hashes.sample 128 .intlV1Provider { proof with sth := sth } =
          some false := by
  generalize ran : Service.appendBatchRoots Hashes.sample Codec.sample
    ((sampleFileCall .none ["a"]).over Provider.intlV1Provider.suite)
    (filesAfter Hashes.sample Codec.sample .intlV1Provider
      (outstanding ++ [sampleFileCall .none ["b"]])) = result
  have stored : result.1.toOption.map (List.map SignedTreeHead.treeSize) = some [2] ∧
      (result.2.leavesByBatch.lookup "a").map GlobalLogLeaf.leafIndex = some 1 ∧
      (result.2.leaves.lookup 1).map GlobalLogLeaf.batchID = some "b" := by
    subst ran
    decide +kernel
  have rejected : (Service.inclusionProof Hashes.sample (sampleService .intlV1Provider)
      sampleFileStore result.2 "a" 2).1.toOption.map (fun proof =>
        result.1.toOption.map (List.map fun sth =>
          verifyInclusionWithProvider Hashes.sample 128 .intlV1Provider { proof with sth := sth })) =
      some (some [some false]) := by
    subst ran
    decide +kernel
  obtain ⟨outcome, after⟩ := result
  obtain ⟨returned, named, held⟩ := stored
  obtain ⟨sths, rfl, sizes⟩ := toOption_map_eq_some.mp returned
  obtain ⟨sth, rest, rfl, size, none⟩ := List.map_eq_cons_iff.mp sizes
  obtain rfl := List.map_eq_nil_iff.mp none
  obtain ⟨leaf, found, index⟩ := Option.map_eq_some_iff.mp named
  obtain ⟨taken, there, batch⟩ := Option.map_eq_some_iff.mp held
  obtain ⟨proof, proved, verdict⟩ := toOption_map_eq_some.mp rejected
  refine ⟨sth, after, leaf, taken, proof, rfl, found, ?_, ?_, batch, ?_, ?_⟩
  · rw [size, index]
  · rw [index]
    exact there
  · rw [size]
    exact Prod.ext proved (inclusionProof_db "a" (by decide))
  · simpa [Except.toOption] using verdict

end TrustDB.GlobalLog
