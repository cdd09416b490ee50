import TrustDB.AnchorSchedule.Spec

/-!
Whether the outcome of an operation is accepted again. All of them keep schedules valid but the
clearing of leases, which forgets that a leased attempt needs no retry deadline and an unleased
one does.
-/

namespace TrustDB.AnchorSchedule

open Result Option CryptoSuite Model

section

variable {library : Library} {current next : STHAnchorSchedule} {attempt changed : STHAnchorAttempt}
  {key : STHAnchorScheduleKey}

theorem lt_next64 (below : current.revision < 2 ^ 64 - 1) : current.revision < next64 current.revision := by
  rw [next64_of_lt below]
  omega

theorem next64_ne_zero (below : current.revision < 2 ^ 64 - 1) : next64 current.revision ≠ 0 :=
  Nat.ne_zero_of_lt (lt_next64 below)

theorem Valid.withAttempt (valid : Valid current) (found : current.inFlight = some attempt)
    (ok : AttemptOk current.key changed) (generation : changed.generation = attempt.generation)
    (target : changed.target = attempt.target) (below : current.revision < 2 ^ 64 - 1) :
    Valid (withAttempt current changed) := { valid with
  revision := next64_ne_zero below
  inFlight := fun other same => by
    cases same
    exact ok
  follows := fun pending other open_ same => by
    cases same
    rw [generation, target]
    exact valid.follows pending attempt open_ found
  aboveInFlight := fun other same => by
    cases same
    rw [generation]
    exact valid.aboveInFlight attempt found }

theorem Valid.drop (valid : Valid current) {inFlight pending}
    (flight : ∀ attempt, inFlight = some attempt → current.inFlight = some attempt)
    (window : ∀ other, pending = some other → current.pending = some other) (below : current.revision < 2 ^ 64 - 1) :
    Valid { current with inFlight, pending, revision := next64 current.revision } := { valid with
  revision := next64_ne_zero below
  pending := fun other same => valid.pending other (window other same)
  inFlight := fun attempt same => valid.inFlight attempt (flight attempt same)
  follows := fun other attempt open_ same => valid.follows other attempt (window other open_) (flight attempt same)
  abovePending := fun other same => valid.abovePending other (window other same)
  aboveInFlight := fun attempt same => valid.aboveInFlight attempt (flight attempt same) }

theorem Settles.valid {result} (settles : Settles current result next) (valid : Valid current)
    (below : current.revision < 2 ^ 64 - 1) : Valid next := by
  rcases settles.rest with rfl | ⟨_, same⟩
  · exact valid
  · rw [same]
    refine valid.drop ?_ ?_ below
    · rcases settles.inFlight with ⟨kept, _⟩ | ⟨gone, _⟩
      · simp [kept]
      · simp [gone]
    · rcases settles.pending with ⟨kept, _⟩ | ⟨gone, _⟩
      · simp [kept]
      · simp [gone]

theorem hasLease_of_token (filled : attempt.leaseToken ≠ "") : hasLease attempt = true := by
  simp [hasLease, filled]

theorem AttemptOk.leased (ok : AttemptOk key attempt) (retryable : attempt.terminalFailure = false)
    {nowUnixN leaseUntilUnixN leaseOwner leaseToken} (now : 0 < nowUnixN) (lease : nowUnixN < leaseUntilUnixN)
    (owner : leaseOwner ≠ "") (token : leaseToken ≠ "") :
    AttemptOk key (leased attempt nowUnixN leaseUntilUnixN leaseOwner leaseToken) := { ok with
  next := Int.le_of_lt now
  last := now
  retry := fun _ => Int.le_refl _
  lease := fun _ => ⟨owner, token, lease⟩
  terminal := fun terminal => by
    change attempt.terminalFailure = true at terminal
    simp [retryable] at terminal
  deadline := fun _ unleased => by
    have held := @hasLease_of_token (AnchorSchedule.leased attempt nowUnixN leaseUntilUnixN leaseOwner leaseToken) token
    simp [held] at unleased }

theorem WindowOk.promoted {pending} (ok : WindowOk key pending) {nowUnixN leaseUntilUnixN leaseOwner leaseToken}
    (now : 0 < nowUnixN) (lease : nowUnixN < leaseUntilUnixN) (owner : leaseOwner ≠ "")
    (token : leaseToken ≠ "") :
    AttemptOk key (promoted pending nowUnixN leaseUntilUnixN leaseOwner leaseToken) where
  generation := ok.generation
  opened := ok.opened
  due := ok.due
  attempts := Int.le_refl 0
  next := Int.le_refl 0
  last := now
  message := Nat.zero_le _
  stateSize := Nat.zero_le _
  canonical := fun present => absurd rfl present
  retry := fun positive => absurd positive (Int.lt_irrefl 0)
  lease := fun _ => ⟨owner, token, lease⟩
  terminal := fun terminal => by cases terminal
  deadline := fun _ _ positive => absurd positive (Int.lt_irrefl 0)
  target := ok.target

theorem AttemptOk.withState (ok : AttemptOk key attempt) {state} (filled : state.length ≠ 0)
    (bounded : state.length ≤ maxProviderStateBytes) :
    AttemptOk key { attempt with providerState := some state } := { ok with
  stateSize := bounded
  canonical := fun _ => filled }

theorem AttemptOk.released (ok : AttemptOk key attempt) {attempts next : Int} {message terminal}
    (positive : 0 < attempts) (nonneg : 0 ≤ next) (filled : message ≠ "")
    (bounded : message.utf8ByteSize ≤ maxLastErrorBytes) (retry : 0 < next → attempt.lastAttemptUnixN ≤ next)
    (stops : terminal = true → next = 0) (goesOn : terminal = false → next ≠ 0) :
    AttemptOk key (unleased { attempt with
      attempts
      nextAttemptUnixN := next
      lastErrorMessage := message
      terminalFailure := terminal }) := { ok with
  attempts := Int.le_of_lt positive
  next := nonneg
  message := bounded
  retry := retry
  lease := fun held => by cases held
  terminal := fun done => ⟨by change attempts ≠ 0; omega, filled, stops done, rfl⟩
  deadline := fun notDone _ _ => goesOn notDone }

theorem attemptOk_unleased_iff (ok : AttemptOk key attempt) (held : hasLease attempt = true) :
    AttemptOk key (unleased attempt) ↔ ¬(0 < attempt.attempts ∧ attempt.nextAttemptUnixN = 0) := by
  have retryable : attempt.terminalFailure = false := by
    cases failed : attempt.terminalFailure with
    | false => rfl
    | true => simpa [held] using (ok.terminal failed).2.2.2
  constructor
  · rintro bare ⟨tried, noDeadline⟩
    exact bare.deadline retryable rfl tried noDeadline
  · intro fine
    exact { ok with
      lease := fun leased => by cases leased
      terminal := fun failed => by
        change attempt.terminalFailure = true at failed
        simp [retryable] at failed
      deadline := fun _ _ tried noDeadline => fine ⟨tried, noDeadline⟩ }

theorem Valid.promote (valid : Valid current) {pending : STHAnchorWindow}
    (open_ : current.pending = some pending) {nowUnixN leaseUntilUnixN : Int} {leaseOwner leaseToken : String}
    (now : 0 < nowUnixN) (lease : nowUnixN < leaseUntilUnixN) (owner : leaseOwner ≠ "") (token : leaseToken ≠ "")
    (below : current.revision < 2 ^ 64 - 1) :
    Valid { current with
      pending := none
      inFlight := some (promoted pending nowUnixN leaseUntilUnixN leaseOwner leaseToken)
      revision := next64 current.revision } := { valid with
  revision := next64_ne_zero below
  pending := fun other same => by cases same
  inFlight := fun other same => by
    cases same
    exact (valid.pending pending open_).promoted now lease owner token
  follows := fun other attempt open' => by cases open'
  abovePending := fun other same => by cases same
  aboveInFlight := fun other same => by
    cases same
    exact valid.abovePending pending open_ }

variable {candidate : STHAnchorCandidate}

theorem Mergeable.registered {current : Option STHAnchorSchedule} (mergeable : Mergeable current candidate) :
    Valid { createdFor candidate with revision := 1 } :=
  ⟨rfl, validateTarget_suite mergeable.target, mergeable.sinkName, by simp [createdFor], by simp,
    by simp [createdFor], by simp [createdFor], by simp [createdFor], by simp [createdFor], by simp [createdFor]⟩

theorem Mergeable.valid {current : Option STHAnchorSchedule} (mergeable : Mergeable current candidate)
    (beyond : ∀ target ∈ scheduleTargets (base current candidate), target.treeSize < candidate.sth.treeSize)
    (revisionBelow : ∀ schedule, current = some schedule → schedule.revision < 2 ^ 64 - 1)
    (generationBelow : ∀ schedule, current = some schedule → schedule.nextGeneration < 2 ^ 64 - 1) :
    Valid (openWindow (base current candidate) candidate) ∧
      (base current candidate).revision < (openWindow (base current candidate) candidate).revision := by
  have target := mergeable.target
  cases current with
  | none =>
    have created : openWindow (base none candidate) candidate = { createdFor candidate with
        pending := some {
          generation := 1
          target := candidate.sth
          openedAtUnixN := candidate.observedAtUnixN
          dueAtUnixN := candidate.dueAtUnixN
          updatedAtUnixN := candidate.observedAtUnixN }
        nextGeneration := 2
        revision := 1 } := rfl
    rw [created]
    refine ⟨⟨rfl, validateTarget_suite target, mergeable.sinkName, by simp, by simp, ?_, by simp [createdFor],
      by simp [createdFor], ?_, by simp [createdFor]⟩, by simp [base, createdFor]⟩
    · intro pending same
      cases same
      exact ⟨by simp, mergeable.observed, mergeable.due, Int.le_refl _, target⟩
    · intro pending same
      cases same
      simp
  | some schedule =>
    obtain ⟨valid, key, _⟩ := mergeable.existing schedule rfl
    have below := revisionBelow schedule rfl
    have room := generationBelow schedule rfl
    have ahead : ∀ attempt, schedule.inFlight = some attempt →
        attempt.target.treeSize < candidate.sth.treeSize := fun attempt found =>
      beyond attempt.target (mem_scheduleTargets.mpr (.inl ⟨attempt, found, rfl⟩))
    rw [← key] at target
    change Valid (openWindow schedule candidate) ∧ schedule.revision < (openWindow schedule candidate).revision
    cases open_ : schedule.pending with
    | some pending =>
      have ok := valid.pending pending open_
      rw [openWindow_some open_, next64_of_lt below]
      refine ⟨⟨valid.schemaVersion, valid.suite, valid.key, valid.nextGeneration, by simp, ?_, valid.inFlight,
        ?_, ?_, valid.aboveInFlight⟩, by simp⟩
      · intro other same
        cases same
        refine ⟨ok.generation, ok.opened, ok.due, ?_, target⟩
        have updated := ok.updated
        change pending.openedAtUnixN ≤ if candidate.observedAtUnixN > pending.updatedAtUnixN then _ else _
        split <;> omega
      · intro other attempt same found
        cases same
        exact ⟨(valid.follows pending attempt open_ found).1, ahead attempt found⟩
      · intro other same
        cases same
        exact valid.abovePending pending open_
    | none =>
      rw [openWindow_none valid open_, next64_of_lt below, next64_of_lt room]
      refine ⟨⟨valid.schemaVersion, valid.suite, valid.key, by simp, by simp, ?_, valid.inFlight, ?_, ?_, ?_⟩,
        by simp⟩
      · intro other same
        cases same
        exact ⟨valid.nextGeneration, mergeable.observed, mergeable.due, Int.le_refl _, target⟩
      · intro other attempt same found
        cases same
        exact ⟨valid.aboveInFlight attempt found, ahead attempt found⟩
      · intro other same
        cases same
        simp
      · intro attempt found
        exact Nat.lt_succ_of_lt (valid.aboveInFlight attempt found)

end

def NoRetryDeadline (schedule : STHAnchorSchedule) : Prop :=
  ∃ attempt, schedule.inFlight = some attempt ∧ hasLease attempt = true ∧ 0 < attempt.attempts ∧
    attempt.nextAttemptUnixN = 0

section

variable {library : Library} {current next : STHAnchorSchedule} {op : Operation}

theorem Settles.raises {result : STHAnchorResult} (settles : Settles current result next)
    (below : current.revision < 2 ^ 64 - 1) : next = current ∨ current.revision < next.revision := by
  rcases settles.rest with same | ⟨_, same⟩
  · exact .inl same
  · rw [same]
    exact .inr (lt_next64 below)

theorem apply_existing {given} (below : current.revision < 2 ^ 64 - 1) (known : given.getD default = current)
    (notMerge : ∀ candidate latest, op ≠ .mergeCandidate candidate latest)
    (applied : op.apply library given = .ok next) :
    Valid current ∧ (Valid next ↔ ¬(op = .clearLeaseForRestore ∧ NoRetryDeadline current)) ∧
      (next = current ∨ current.revision < next.revision) := by
  subst known
  -- For all but one operation it is enough that the outcome is valid.
  have always : op ≠ .clearLeaseForRestore → Valid next →
      (Valid next ↔ ¬(op = .clearLeaseForRestore ∧ NoRetryDeadline (given.getD default))) := fun other valid =>
    ⟨fun _ both => other both.1, fun _ => valid⟩
  cases op with
  | mergeCandidate candidate latest => exact absurd rfl (notMerge candidate latest)
  | claim now lease owner token =>
    simp only [Operation.apply, bind_eq_ok, Prod.exists, return_eq_ok] at applied
    obtain ⟨_, claimed, done, rfl⟩ := applied
    obtain ⟨valid, positive, later, owned, filled, outcome⟩ := claim_eq_ok done
    rcases outcome with ⟨rfl, _⟩ | ⟨attempt, found, retryable, _, _, _, rfl⟩ | ⟨pending, _, open_, _, _, rfl⟩
    · exact ⟨valid, always (by simp) valid, .inl rfl⟩
    · refine ⟨valid, always (by simp) ?_, .inr (lt_next64 below)⟩
      exact valid.withAttempt found ((valid.inFlight attempt found).leased retryable positive later owned filled) rfl
        rfl below
    · exact ⟨valid, always (by simp) (valid.promote open_ positive later owned filled below), .inr (lt_next64 below)⟩
  | compareAndSwapProviderState generation token now expected state =>
    obtain ⟨attempt, owned, filled, bounded, rfl⟩ := compareAndSwapProviderState_eq_ok applied
    obtain ⟨valid, found, _⟩ := fenced_eq_ok.mp owned
    refine ⟨valid, always (by simp) ?_, .inr (lt_next64 below)⟩
    exact valid.withAttempt found ((valid.inFlight attempt found).withState filled bounded) rfl rfl below
  | reschedule generation token attempts nextAttempt lastError =>
    obtain ⟨attempt, owned, more, later, filled, bounded, rfl⟩ := reschedule_eq_ok applied
    obtain ⟨valid, found, _⟩ := fenced_eq_ok.mp owned
    have ok := valid.inFlight attempt found
    have last := ok.last
    have tried := ok.attempts
    refine ⟨valid, always (by simp) ?_, .inr (lt_next64 below)⟩
    exact valid.withAttempt found (ok.released (by omega) (by omega) filled bounded (fun _ => later) (by simp)
      (fun _ => by omega)) rfl rfl below
  | fail generation token attempts lastError =>
    obtain ⟨attempt, owned, more, filled, bounded, rfl⟩ := fail_eq_ok applied
    obtain ⟨valid, found, _⟩ := fenced_eq_ok.mp owned
    have ok := valid.inFlight attempt found
    have tried := ok.attempts
    refine ⟨valid, always (by simp) ?_, .inr (lt_next64 below)⟩
    exact valid.withAttempt found (ok.released (by omega) (Int.le_refl 0) filled bounded
      (fun positive => absurd positive (Int.lt_irrefl 0)) (fun _ => rfl) (by simp)) rfl rfl below
  | complete generation token result =>
    obtain ⟨attempt, owned, _, _, settles⟩ := complete_eq_ok applied
    obtain ⟨valid, _⟩ := fenced_eq_ok.mp owned
    exact ⟨valid, always (by simp) (settles.valid valid below), settles.raises below⟩
  | reconcileCompleted result =>
    simp only [Operation.apply, bind_eq_ok, Prod.exists, return_eq_ok] at applied
    obtain ⟨_, changed, done, rfl⟩ := applied
    obtain ⟨valid, _, settles, _⟩ := reconcileCompleted_eq_ok done
    exact ⟨valid, always (by simp) (settles.valid valid below), settles.raises below⟩
  | clearLeaseForRestore =>
    obtain ⟨valid, ⟨rfl, bare⟩ | ⟨attempt, found, held, rfl⟩⟩ := clearLeaseForRestore_eq_ok applied
    · refine ⟨valid, ⟨?_, fun _ => valid⟩, .inl rfl⟩
      rintro _ ⟨_, attempt, found, held, _⟩
      simp [bare attempt found] at held
    · have ok := valid.inFlight attempt found
      refine ⟨valid, ⟨?_, ?_⟩, .inr (lt_next64 below)⟩
      · rintro kept ⟨_, other, same, _, tried, noDeadline⟩
        cases found.symm.trans same
        exact (attemptOk_unleased_iff ok held).mp (kept.inFlight _ rfl) ⟨tried, noDeadline⟩
      · intro fine
        refine valid.withAttempt found ((attemptOk_unleased_iff ok held).mpr ?_) rfl rfl below
        rintro ⟨tried, noDeadline⟩
        exact fine ⟨rfl, attempt, found, held, tried, noDeadline⟩

end

/-- From a schedule that is accepted, or none, every operation returns an error or a schedule that is
accepted again, unless it clears the lease of an attempt that was tried and has no deadline for a
retry. What it returns is the schedule as it was, or one with a larger revision. -/
theorem operation_keeps_schedule_valid {library : Library} {current : Option STHAnchorSchedule}
    (accepted : ∀ schedule, current = some schedule → validateSchedule schedule = .ok ())
    (revisions : ∀ schedule, current = some schedule → schedule.revision < 2 ^ 64 - 1)
    (generations : ∀ schedule, current = some schedule → schedule.nextGeneration < 2 ^ 64 - 1)
    (op : Operation) {next : STHAnchorSchedule} (applied : op.apply library current = .ok next) :
    (validateSchedule next = .ok () ↔
      ¬(op = .clearLeaseForRestore ∧ ∃ schedule, current = some schedule ∧ NoRetryDeadline schedule)) ∧
    (current = some next ∨ (current.elim 0 STHAnchorSchedule.revision) < next.revision) := by
  rw [validateSchedule_eq_ok]
  by_cases merge : ∃ candidate latest, op = .mergeCandidate candidate latest
  · obtain ⟨candidate, latest, rfl⟩ := merge
    simp only [Operation.apply, bind_eq_ok, Prod.exists, pure_eq_ok, Except.ok.injEq] at applied
    obtain ⟨_, changed, done, rfl⟩ := applied
    have always : ∀ {outcome : STHAnchorSchedule}, Valid outcome → (Valid outcome ↔
        ¬(Operation.mergeCandidate candidate latest = .clearLeaseForRestore ∧
          ∃ schedule, current = some schedule ∧ NoRetryDeadline schedule)) := fun valid =>
      ⟨fun _ both => Operation.noConfusion both.1, fun _ => valid⟩
    obtain ⟨mergeable, outcome⟩ := mergeCandidate_eq_ok done
    rcases outcome with ⟨same, _⟩ | ⟨same, _⟩ | ⟨absent, _, rfl, _⟩ | ⟨rfl, _, beyond, _⟩
    · exact ⟨always (mergeable.existing _ same).1, Or.inl same⟩
    · exact ⟨always (mergeable.existing _ same).1, Or.inl same⟩
    · refine ⟨always mergeable.registered, Or.inr ?_⟩
      rw [absent]
      exact Nat.zero_lt_one
    · obtain ⟨valid, larger⟩ := mergeable.valid beyond revisions generations
      refine ⟨always valid, Or.inr ?_⟩
      cases current with
      | none => exact larger
      | some schedule => exact larger
  · have notMerge : ∀ candidate latest, op ≠ .mergeCandidate candidate latest := fun candidate latest same =>
      merge ⟨candidate, latest, same⟩
    cases current with
    | none => exact absurd rfl (apply_existing (by decide) rfl notMerge applied).1.revision
    | some schedule =>
      obtain ⟨_, valid, larger⟩ := apply_existing (revisions schedule rfl) rfl notMerge applied
      refine ⟨?_, ?_⟩
      · rw [valid]
        simp
      · rcases larger with rfl | larger
        · exact Or.inl rfl
        · exact Or.inr larger

namespace Sample

def key : STHAnchorScheduleKey := { nodeID := "node", logID := "log", sinkName := "sink" }

def head (treeSize : Nat) : SignedTreeHead where
  schemaVersion := schemaSignedTreeHead
  cryptoSuite := intlV1
  treeAlg := merkleRFC6962SHA256
  treeSize := treeSize
  rootHash := List.replicate 32 (UInt8.ofNat treeSize)
  timestampUnixN := 1
  nodeID := "node"
  logID := "log"
  signature := { alg := signatureEd25519, keyID := "key", signature := [1] }

def window : STHAnchorWindow where
  generation := 2
  target := head 7
  openedAtUnixN := 4
  dueAtUnixN := 6
  updatedAtUnixN := 5

def attempt : STHAnchorAttempt where
  generation := 1
  target := head 5
  openedAtUnixN := 1
  dueAtUnixN := 2
  providerState := none
  attempts := 1
  nextAttemptUnixN := 0
  lastAttemptUnixN := 3
  lastErrorMessage := "unreachable"
  terminalFailure := false
  leaseOwner := "worker"
  leaseToken := "token"
  leaseUntilUnixN := 10

def schedule : STHAnchorSchedule where
  schemaVersion := schemaSTHAnchorSchedule
  cryptoSuite := intlV1
  key := key
  revision := 4
  nextGeneration := 3
  pending := some window
  inFlight := some attempt

def library : Library where
  validateProofContainer := fun _ _ => .ok ()
  marshalResult := fun _ => .ok []

theorem schedule_accepted : validateSchedule schedule = .ok () := toOption_eq_some.mp (by decide +kernel)

def reclaim : Operation := .claim 11 20 "other" "next"

theorem reclaim_isSome : (reclaim.apply library (some schedule)).toOption.isSome := by decide +kernel

end Sample

open Sample

/-- A schedule that is accepted, whose lease is cleared, and that is then refused. -/
theorem cleared_lease_breaks_schedule :
    failure? (validateSchedule Sample.schedule) = none ∧
    (clearLeaseForRestore Sample.schedule).toOption.map (fun next => failure? (validateSchedule next)) =
      some (some (.new .dataLoss "retryable anchor attempt has no retry deadline")) := by
  decide +kernel

theorem reclaim_keeps_sample_valid : ∃ next, Sample.reclaim.apply Sample.library (some Sample.schedule) = .ok next ∧
    validateSchedule next = .ok () := by
  have applied := toOption_eq_some.mp (Option.some_get Sample.reclaim_isSome).symm
  refine ⟨_, applied, (operation_keeps_schedule_valid ?_ ?_ ?_ Sample.reclaim applied).1.mpr ?_⟩
  · intro schedule same
    rw [← Option.some.inj same]
    exact Sample.schedule_accepted
  · intro schedule same
    rw [← Option.some.inj same]
    decide
  · intro schedule same
    rw [← Option.some.inj same]
    decide
  · rintro ⟨clears, _⟩
    cases clears

end TrustDB.AnchorSchedule
