import TrustDB.GlobalLog.Ledger

/-!
The append loop, over any store. After any of its turns the planned appends extend the
leaves that the store holds, and every batch root met so far is answered by one of them
or by an entry that the store already knows.
-/

namespace TrustDB.GlobalLog

open Result List CryptoSuite TrustCrypto Merkle Model HashTree ProofStore

structure Records (leaf : GlobalLogLeaf) (root : BatchRoot) : Prop where
  batchID : leaf.batchID = root.batchID
  suite : leaf.cryptoSuite = root.cryptoSuite
  nodeID : leaf.nodeID = root.nodeID
  logID : leaf.logID = root.logID
  treeSize : leaf.batchTreeSize = root.treeSize
  closedAt : leaf.batchClosedAtUnixN = root.closedAtUnixN
  batchRoot : leaf.batchRoot = root.batchRoot

theorem validateGlobalLogReplayLeaf_eq_ok {leaf root result} :
    validateGlobalLogReplayLeaf leaf root = .ok result ↔ Records leaf root := by
  simp only [validateGlobalLogReplayLeaf, reject_eq_ok, not_or, ne_eq, not_not]
  constructor
  · rintro ⟨batchID, suite, nodeID, logID, treeSize, closedAt, batchRoot⟩
    exact ⟨batchID, suite, nodeID, logID, treeSize, closedAt, batchRoot⟩
  · rintro ⟨batchID, suite, nodeID, logID, treeSize, closedAt, batchRoot⟩
    exact ⟨batchID, suite, nodeID, logID, treeSize, closedAt, batchRoot⟩

theorem Records.replay {leaf first second result} (records : Records leaf first)
    (replayed : validateGlobalLogReplayRoot first second = .ok result) : Records leaf second := by
  simp only [validateGlobalLogReplayRoot, reject_eq_ok, not_or, ne_eq, not_not] at replayed
  obtain ⟨batchID, suite, nodeID, logID, treeSize, closedAt, batchRoot⟩ := replayed
  exact ⟨records.batchID.trans batchID, records.suite.trans suite, records.nodeID.trans nodeID,
    records.logID.trans logID, records.treeSize.trans treeSize, records.closedAt.trans closedAt,
    records.batchRoot.trans batchRoot⟩

section Plan

variable {hashes : Hashes} {codec : Codec} {service : Service} {σ : Type} {state : GlobalLogState}
  {root : BatchRoot} {sth : SignedTreeHead}

/-- Reads that succeed show known entries; a batch without a leaf is none of these. -/
structure Shows (store : Store σ) (db : σ) (batchIDs : List String) (known : Entry → Prop) : Prop where
  answered : ∀ batchID leaf sth, store.getGlobalLeafByBatchID db batchID = .ok (some leaf) →
    store.getSignedTreeHead db (leaf.leafIndex + 1) = .ok (some sth) → known ⟨leaf, sth⟩
  absent : ∀ batchID, store.getGlobalLeafByBatchID db batchID = .ok none → batchID ∉ batchIDs

def Answers (known : Entry → Prop) (appends : List GlobalLogAppend) (root : BatchRoot)
    (sth : SignedTreeHead) : Prop :=
  ∃ entry, (known entry ∨ entry ∈ appends.map entryOf) ∧ Records entry.leaf root ∧ entry.head = sth

structure Plans (hashes : Hashes) (codec : Codec) (service : Service) (digests : List Digest)
    (batchIDs : List String) (known : Entry → Prop) (moments : Nat → Moment)
    (roots : List BatchRoot) (plan : Plan) : Prop where
  grows : GrowsBy hashes codec service.provider digests batchIDs plan.appends
  tracks : Tracks hashes service.provider
    (digests ++ plan.appends.map fun entry => (entryOf entry).digest) plan.state
  planned : ∀ batchID sth root, plan.planned.lookup batchID = some (sth, root) →
    Answers known plan.appends root sth
  covered : ∀ entry ∈ plan.appends, (plan.planned.lookup entry.leaf.batchID).isSome
  stamped : ∀ entry ∈ plan.appends, ∃ position,
    entry.sth.timestampUnixN = (moments position).signedAt
  answers : List.Forall₂ (fun root sth => Answers known plan.appends (service.bindIdentity root) sth)
    roots plan.sths

theorem plans_start {digests batchIDs} {known : Entry → Prop} {moments}
    (tracked : Tracks hashes service.provider digests state) :
    Plans hashes codec service digests batchIDs known moments [] (.start state) where
  grows := trivial
  tracks := by simpa [Plan.start] using tracked
  planned := by simp [Plan.start]
  covered := by simp [Plan.start]
  stamped := by simp [Plan.start]
  answers := .nil

theorem Answers.mono {known : Entry → Prop} {appends} (answered : Answers known appends root sth)
    (more : List GlobalLogAppend) : Answers known (appends ++ more) root sth := by
  obtain ⟨entry, member, found⟩ := answered
  refine ⟨entry, member.imp_right fun planned => ?_, found⟩
  rw [map_append]
  exact mem_append_left _ planned

theorem growsBy_append_one {provider last} (entries : List GlobalLogAppend) : ∀ digests batchIDs,
      GrowsBy hashes codec provider digests batchIDs (entries ++ [last]) ↔
        GrowsBy hashes codec provider digests batchIDs entries ∧
          Grows hashes codec provider (digests ++ entries.map fun entry => (entryOf entry).digest)
            (batchIDs ++ entries.map fun entry => (entryOf entry).batchID) last := by
  induction entries with
  | nil => intro digests batchIDs; simp [GrowsBy]
  | cons entry rest ih =>
    intro digests batchIDs
    rw [cons_append, GrowsBy, GrowsBy, ih, and_assoc]
    simp

theorem signSTHFromState_eq_ok {timestamp sign}
    (signed : Service.signSTHFromState codec service timestamp sign state = .ok sth) :
    sth.schemaVersion = schemaSignedTreeHead ∧ sth.cryptoSuite = service.provider.suite ∧
      sth.treeAlg = service.profile.algorithm ∧ sth.treeSize = state.treeSize ∧
      sth.rootHash = state.rootHash ∧ sth.timestampUnixN = timestamp ∧
      sth.nodeID = service.nodeID ∧ sth.logID = service.logID := by
  simp only [Service.signSTHFromState, bind_eq_ok, return_eq_ok] at signed
  obtain ⟨_, _, _, _, _, _, _, _, _, _, rfl⟩ := signed
  exact ⟨rfl, rfl, rfl, rfl, rfl, rfl, rfl, rfl⟩

theorem hashLeafWithProvider_congr {provider leaf} (hash : Bytes) :
    hashLeafWithProvider hashes codec provider { leaf with leafHash := hash } =
      hashLeafWithProvider hashes codec provider leaf := rfl

theorem grows_of_appended {digests batchIDs after leaf nodes now timestamp sign}
    (tracked : Tracks hashes service.provider digests state) (named : leaf.batchID ≠ "")
    (schema : leaf.schemaVersion = schemaGlobalLogLeaf) (suite : leaf.cryptoSuite = service.provider.suite)
    (index : leaf.leafIndex = state.treeSize) (node : leaf.nodeID = service.nodeID)
    (log : leaf.logID = service.logID)
    (hashed : hashLeafWithProvider hashes codec service.provider leaf = .ok leaf.leafHash)
    (fresh : leaf.batchID ∉ batchIDs)
    (appended : Service.appendState hashes service now state leaf = .ok (after, nodes))
    (signed : Service.signSTHFromState codec service timestamp sign after = .ok sth) :
    Grows hashes codec service.provider digests batchIDs { leaf, nodes, state := after, sth } := by
  have hash : leaf.leafHash = (bytesToHash leaf.leafHash).bytes :=
    (Digest.bytes_ofBytes (hashLeafWithProvider_length hashed)).symm
  obtain ⟨next, closedNodes, appended', tracked', closed⟩ :=
    appendState_eq tracked now suite (index.trans tracked.size) hash
  rw [appended] at appended'
  cases appended'
  obtain ⟨headSchema, headSuite, headAlg, headSize, headRoot, _, headNode, headLog⟩ :=
    signSTHFromState_eq_ok signed
  have emitted := closed.emitted (by simp)
  rw [length_append, length_singleton, Nat.add_sub_cancel] at emitted
  refine ⟨?_, fresh, emitted, tracked'⟩
  constructor
  · exact named
  · exact index.trans tracked.size
  · exact schema
  · exact suite
  · exact hashed
  · exact headSchema
  · exact headSuite
  · exact headAlg
  · exact headSize.trans (by simpa using tracked'.size)
  · have root := tracked'.root
    rw [if_neg (by simp)] at root
    exact headRoot.trans root
  · exact headNode.trans node.symm
  · exact headLog.trans log.symm

variable {digests : List Digest} {batchIDs : List String} {known : Entry → Prop} {moments : Nat → Moment}
  {roots : List BatchRoot} {plan next : Plan} {position : Nat} {given : BatchRoot}

section

variable (plans : Plans hashes codec service digests batchIDs known moments roots plan)
include plans

theorem Plans.not_planned {batchID} (unplanned : plan.planned.lookup batchID = none) :
    batchID ∉ plan.appends.map fun entry => (entryOf entry).batchID := by
  intro member
  obtain ⟨entry, inside, rfl⟩ := mem_map.mp member
  have covered := plans.covered entry inside
  rw [show entry.leaf.batchID = (entryOf entry).batchID from rfl, unplanned] at covered
  simp at covered

theorem Plans.extend {entry : GlobalLogAppend}
    (grows : Grows hashes codec service.provider
      (digests ++ plan.appends.map fun entry => (entryOf entry).digest)
      (batchIDs ++ plan.appends.map fun entry => (entryOf entry).batchID) entry)
    (records : Records entry.leaf (service.bindIdentity given))
    (stamped : entry.sth.timestampUnixN = (moments position).signedAt) :
    Plans hashes codec service digests batchIDs known moments (roots ++ [given])
      { plan.record (service.bindIdentity given) entry.sth with
        state := entry.state
        appends := plan.appends ++ [entry] } := by
  have answered : Answers known (plan.appends ++ [entry]) (service.bindIdentity given) entry.sth :=
    ⟨entryOf entry, .inr (by simp), records, rfl⟩
  constructor
  · exact (growsBy_append_one _ _ _).mpr ⟨plans.grows, grows⟩
  · simpa using grows.state
  · intro batchID head root found
    simp only [Plan.record, lookup_cons] at found
    split at found
    · simp only [Option.some.injEq, Prod.mk.injEq] at found
      obtain ⟨rfl, rfl⟩ := found
      exact answered
    · exact (plans.planned batchID head root found).mono _
  · intro other member
    simp only [Plan.record, lookup_cons]
    split
    · rfl
    · rename_i different
      rcases mem_append.mp member with early | last
      · exact plans.covered other early
      · rw [mem_singleton.mp last, records.batchID] at different
        simp at different
  · intro other member
    rcases mem_append.mp member with early | last
    · exact plans.stamped other early
    · rw [mem_singleton.mp last]
      exact ⟨position, stamped⟩
  · exact rel_append (plans.answers.imp fun _ _ earlier => earlier.mono _) (.cons answered .nil)

end

theorem records_newLeaf {moment} (hash : Bytes) (suite : root.cryptoSuite = service.provider.suite) :
    Records { service.newLeaf moment state root with leafHash := hash } root :=
  ⟨rfl, suite.symm, rfl, rfl, rfl, rfl, rfl⟩

section

variable (plans : Plans hashes codec service digests batchIDs known moments roots plan)

include plans

theorem Plans.fresh (bound : service.bindIdentity given = root)
    (suite : root.cryptoSuite = service.provider.suite) (named : root.batchID ≠ "")
    (node : root.nodeID = service.nodeID) (log : root.logID = service.logID)
    (unplanned : plan.planned.lookup root.batchID = none) (absent : root.batchID ∉ batchIDs)
    (done : Service.planFresh hashes codec service (moments position) plan root = .ok next) :
    Plans hashes codec service digests batchIDs known moments (roots ++ [given]) next := by
  simp only [Service.planFresh, bind_eq_ok, mapError_eq_ok, return_eq_ok] at done
  obtain ⟨leafHash, hashed, ⟨state, nodes⟩, appended, sth, signed, rfl⟩ := done
  have fresh : root.batchID ∉ batchIDs ++
      plan.appends.map fun entry => (entryOf entry).batchID := by
    rw [mem_append, not_or]
    exact ⟨absent, plans.not_planned unplanned⟩
  have grows := grows_of_appended plans.tracks named rfl rfl rfl node log
    ((hashLeafWithProvider_congr leafHash).trans hashed) fresh appended signed
  have stamped := (signSTHFromState_eq_ok signed).2.2.2.2.2.1
  rw [← bound] at grows ⊢
  exact plans.extend grows (records_newLeaf leafHash (bound ▸ suite)) stamped

theorem Plans.roots_eq_nil (unknown : ∀ entry, ¬known entry) (unwritten : plan.appends = []) : roots = [] := by
  have answers := plans.answers
  rw [unwritten] at answers
  cases roots with
  | nil => rfl
  | cons root rest =>
    obtain ⟨sth, _, answered, _⟩ := forall₂_cons_left_iff.mp answers
    generalize service.bindIdentity root = bound at answered
    obtain ⟨entry, old | new, _⟩ := answered
    · exact absurd old (unknown entry)
    · simp at new

theorem Plans.answer (answered : Answers known plan.appends (service.bindIdentity given) sth) :
    Plans hashes codec service digests batchIDs known moments (roots ++ [given])
      (plan.record (service.bindIdentity given) sth) := by
  constructor
  · exact plans.grows
  · exact plans.tracks
  · intro batchID head root found
    simp only [Plan.record, lookup_cons] at found
    split at found
    · simp only [Option.some.injEq, Prod.mk.injEq] at found
      obtain ⟨rfl, rfl⟩ := found
      exact answered
    · exact plans.planned batchID head root found
  · intro entry member
    simp only [Plan.record, lookup_cons]
    split
    · rfl
    · exact plans.covered entry member
  · exact plans.stamped
  · exact rel_append plans.answers (.cons answered .nil)

end

theorem Plans.step (plans : Plans hashes codec service digests batchIDs known moments roots plan)
    {store : Store σ} {db : σ}
    (shown : Shows store db batchIDs known) (suite : given.cryptoSuite = service.provider.suite)
    (named : given.batchID ≠ "")
    (done : Service.planRoot hashes codec service store db (moments position) plan given = .ok next) :
    Plans hashes codec service digests batchIDs known moments (roots ++ [given]) next := by
  simp only [Service.planRoot, bind_eq_ok, reject_eq_ok, not_or, ne_eq, not_not] at done
  obtain ⟨_, ⟨node, log⟩, done⟩ := done
  have boundSuite : (service.bindIdentity given).cryptoSuite = service.provider.suite := by
    rwa [Service.bindIdentity_cryptoSuite]
  have boundNamed : (service.bindIdentity given).batchID ≠ "" := by
    rwa [Service.bindIdentity_batchID]
  generalize bound : service.bindIdentity given = root at *
  split at done
  · rename_i sth earlier found
    simp only [bind_eq_ok, return_eq_ok] at done
    obtain ⟨_, replayed, rfl⟩ := done
    obtain ⟨entry, member, records, head⟩ := plans.planned _ _ _ found
    have answered : Answers known plan.appends (service.bindIdentity given) sth :=
      ⟨entry, member, bound ▸ records.replay replayed, head⟩
    exact ⟨plans.grows, plans.tracks, plans.planned, plans.covered, plans.stamped,
      rel_append plans.answers (.cons answered .nil)⟩
  · rename_i unplanned
    simp only [bind_eq_ok] at done
    obtain ⟨durable, read, done⟩ := done
    cases durable with
    | some existing =>
      simp only [Service.planReplay, bind_eq_ok] at done
      obtain ⟨_, replayed, head, headRead, done⟩ := done
      cases head with
      | none => simp [throw_eq_error] at done
      | some sth =>
        simp only [bind_eq_ok, return_eq_ok] at done
        obtain ⟨_, _, rfl⟩ := done
        rw [← bound] at replayed ⊢
        exact plans.answer ⟨⟨existing, sth⟩, .inl (shown.answered _ _ _ read headRead),
          validateGlobalLogReplayLeaf_eq_ok.mp replayed, rfl⟩
    | none =>
      exact plans.fresh bound boundSuite boundNamed node log unplanned (shown.absent _ read) done

theorem Plans.run {attempt : Attempt σ} {db : σ} (shown : Shows attempt.store db batchIDs known)
    (more : List BatchRoot) : ∀ {roots : List BatchRoot} {plan last : Plan} {position : Nat},
      Plans hashes codec service digests batchIDs known attempt.moments roots plan →
      (∀ root ∈ more, root.cryptoSuite = service.provider.suite ∧ root.batchID ≠ "") →
      Service.planRoots hashes codec service attempt db position more plan = .ok last →
      Plans hashes codec service digests batchIDs known attempt.moments (roots ++ more) last := by
  induction more with
  | nil =>
    intro roots plan last position plans _ done
    simp only [Service.planRoots, return_eq_ok] at done
    simpa [← done] using plans
  | cons root rest ih =>
    intro roots plan last position plans valid done
    simp only [Service.planRoots, bind_eq_ok] at done
    obtain ⟨next, turn, done⟩ := done
    obtain ⟨suite, named⟩ := valid root (by simp)
    have stepped := plans.step shown suite named turn
    have ran := ih stepped (fun other member => valid other (by simp [member])) done
    simpa using ran

theorem Plans.of_start {attempt : Attempt σ} {db : σ} {digests batchIDs} {known : Entry → Prop} {roots plan}
    (shown : Shows attempt.store db batchIDs known) (tracked : Tracks hashes service.provider digests state)
    (valid : ∀ root ∈ roots, root.cryptoSuite = service.provider.suite ∧ root.batchID ≠ "")
    (planned : Service.planRoots hashes codec service attempt db 0 roots (.start state) = .ok plan) :
    Plans hashes codec service digests batchIDs known attempt.moments roots plan :=
  Plans.run shown roots (plans_start tracked) valid planned

theorem checkRoots_eq (roots : List BatchRoot) : ∀ position,
    Service.checkRoots service position roots = .ok () →
      ∀ root ∈ roots, root.cryptoSuite = service.provider.suite ∧ root.batchID ≠ "" := by
  induction roots with
  | nil => simp
  | cons first rest ih =>
    intro position done root member
    simp only [Service.checkRoots, bind_eq_ok, mapError_eq_ok, reject_eq_ok] at done
    obtain ⟨⟨⟩, same, _, named, _, _, later⟩ := done
    rcases mem_cons.mp member with rfl | inside
    · exact ⟨(requireSame_eq_ok.mp same).2 _ (by simp), named⟩
    · exact ih _ later root inside

section Rules

variable {db : σ} {good : List SignedTreeHead → σ → Prop}

theorem Service.once_ensures {attempt : Attempt σ} {roots} {loaded : GlobalLogState → σ → Prop}
    {bad : Bool × Err → σ → Prop}
    (loading : Ensures (Service.loadState hashes service attempt db) loaded fun err => bad (false, err))
    (stopped : ∀ state after err, loaded state after → bad (false, err) after)
    (planned : ∀ state after plan, loaded state after →
      Service.planRoots hashes codec service attempt after 0 roots (.start state) = .ok plan →
      (plan.appends = [] → good plan.sths after) ∧ (plan.appends ≠ [] →
        Ensures (Service.commitAppends attempt.store plan.appends after) (fun _ => good plan.sths)
          fun err => bad (err.codeOf = .failedPrecondition, err))) :
    Ensures (Service.appendBatchRootsOnce hashes codec service attempt roots db) good bad := by
  rw [Service.appendBatchRootsOnce]
  match Service.loadState hashes service attempt db, loading with
  | (.error err, after), failed => exact failed
  | (.ok state, after), reached =>
    cases made : Service.planRoots hashes codec service attempt after 0 roots (.start state) with
    | error err =>
      simp only [made]
      exact stopped state after err reached
    | ok plan =>
      obtain ⟨idle, writing⟩ := planned state after plan reached made
      by_cases unwritten : plan.appends = []
      · simp only [made, if_pos unwritten]
        exact idle unwritten
      · simp only [made, if_neg unwritten]
        match Service.commitAppends attempt.store plan.appends after, writing unwritten with
        | (.ok (), last), done => exact done
        | (.error err, last), failed => exact failed

variable {call : Call σ} {bad : σ → Prop}

theorem Service.retryAppend_ensures (keeps : σ → Prop) (once : ∀ attempt db, keeps db →
      Ensures (Service.appendBatchRootsOnce hashes codec call.service (call.attempts attempt) call.roots db) good
        fun failure after => bad after ∧ (failure.1 = true → keeps after))
    (remaining : Nat) (start : keeps db) :
    Ensures (Service.retryAppend hashes codec call remaining db) good fun _ => bad := by
  induction remaining using Nat.strongRecOn generalizing db with
  | ind remaining ih =>
    rw [Service.retryAppend]
    match Service.appendBatchRootsOnce hashes codec call.service
      (call.attempts (appendConflictAttempts - 1 - remaining)) call.roots db, once _ db start with
    | (.ok sths, after), done => exact done
    | (.error (false, err), after), failed => exact failed.1
    | (.error (true, err), after), failed =>
      cases remaining with
      | zero => exact failed.1
      | succ remaining =>
        dsimp only
        cases call.canceled (appendConflictAttempts - 1 - (remaining + 1)) with
        | some err => exact failed.1
        | none => exact ih remaining (Nat.lt_succ_self _) (failed.2 rfl)

theorem Service.appendBatchRoots_ensures (refused : bad db) (retried : call.roots ≠ [] →
      (∀ root ∈ call.roots, root.cryptoSuite = call.service.provider.suite ∧ root.batchID ≠ "") →
      Ensures (Service.retryAppend hashes codec call (appendConflictAttempts - 1) db) good fun _ => bad) :
    Ensures (Service.appendBatchRoots hashes codec call db) good fun _ => bad := by
  rw [Service.appendBatchRoots]
  split
  · exact refused
  split
  · exact refused
  rename_i filled
  split
  · exact refused
  rename_i checked
  exact retried (fun empty => filled (length_eq_zero_iff.mpr empty)) (checkRoots_eq call.roots 0 checked)

end Rules

end Plan

end TrustDB.GlobalLog
