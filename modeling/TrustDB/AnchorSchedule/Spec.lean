import TrustDB.AnchorSchedule.Core

/-!
What `ValidateSchedule` accepts, and what each operation does to a schedule that it accepts.
-/

namespace TrustDB.AnchorSchedule

open Result CryptoSuite Model

structure WindowOk (key : STHAnchorScheduleKey) (pending : STHAnchorWindow) : Prop where
  generation : pending.generation ≠ 0
  opened : 0 < pending.openedAtUnixN
  due : pending.openedAtUnixN ≤ pending.dueAtUnixN
  updated : pending.openedAtUnixN ≤ pending.updatedAtUnixN
  target : validateTarget key pending.target = .ok ()

structure AttemptOk (key : STHAnchorScheduleKey) (attempt : STHAnchorAttempt) : Prop where
  generation : attempt.generation ≠ 0
  opened : 0 < attempt.openedAtUnixN
  due : attempt.openedAtUnixN ≤ attempt.dueAtUnixN
  attempts : 0 ≤ attempt.attempts
  next : 0 ≤ attempt.nextAttemptUnixN
  last : 0 < attempt.lastAttemptUnixN
  message : attempt.lastErrorMessage.utf8ByteSize ≤ maxLastErrorBytes
  stateSize : (stateBytes attempt.providerState).length ≤ maxProviderStateBytes
  canonical : attempt.providerState ≠ none → (stateBytes attempt.providerState).length ≠ 0
  retry : 0 < attempt.nextAttemptUnixN → attempt.lastAttemptUnixN ≤ attempt.nextAttemptUnixN
  lease : hasLease attempt = true → attempt.leaseOwner ≠ "" ∧ attempt.leaseToken ≠ "" ∧
    attempt.lastAttemptUnixN < attempt.leaseUntilUnixN
  terminal : attempt.terminalFailure = true → attempt.attempts ≠ 0 ∧ attempt.lastErrorMessage ≠ "" ∧
    attempt.nextAttemptUnixN = 0 ∧ hasLease attempt = false
  deadline : attempt.terminalFailure = false → hasLease attempt = false → 0 < attempt.attempts →
    attempt.nextAttemptUnixN ≠ 0
  target : validateTarget key attempt.target = .ok ()

structure Valid (schedule : STHAnchorSchedule) : Prop where
  schemaVersion : schedule.schemaVersion = schemaSTHAnchorSchedule
  suite : Known schedule.cryptoSuite
  key : schedule.key.sinkName ≠ ""
  nextGeneration : schedule.nextGeneration ≠ 0
  revision : schedule.revision ≠ 0
  pending : ∀ pending, schedule.pending = some pending → WindowOk schedule.key pending
  inFlight : ∀ attempt, schedule.inFlight = some attempt → AttemptOk schedule.key attempt
  follows : ∀ pending attempt, schedule.pending = some pending → schedule.inFlight = some attempt →
    attempt.generation < pending.generation ∧ attempt.target.treeSize < pending.target.treeSize
  abovePending : ∀ pending, schedule.pending = some pending → pending.generation < schedule.nextGeneration
  aboveInFlight : ∀ attempt, schedule.inFlight = some attempt → attempt.generation < schedule.nextGeneration

section

variable {key : STHAnchorScheduleKey} {done : Unit}

theorem validateKey_eq_ok : validateKey key = .ok done ↔ key.sinkName ≠ "" := by simp [validateKey]

theorem validatePending_eq_ok {pending} : validatePending key pending = .ok () ↔ WindowOk key pending := by
  simp only [validatePending, bind_eq_ok, reject_eq_ok, mapError_eq_ok, not_or, Int.not_le, Int.not_lt]
  constructor
  · rintro ⟨_, ⟨generation, opened, due, updated⟩, target⟩
    exact ⟨generation, opened, due, updated, target⟩
  · rintro ⟨generation, opened, due, updated, target⟩
    exact ⟨(), ⟨generation, opened, due, updated⟩, target⟩

theorem validateInFlight_eq_ok {attempt} : validateInFlight key attempt = .ok () ↔ AttemptOk key attempt := by
  simp only [validateInFlight, bind_eq_ok, reject_eq_ok, mapError_eq_ok, not_or,
    not_and, Int.not_le, Int.not_lt, Nat.not_lt, not_not, Bool.not_eq_true]
  constructor
  · rintro ⟨_, ⟨generation, opened, due, attempts, next, last⟩, _, message, _, stateSize, _, canonical, _, retry, _,
      lease, _, terminal, _, deadline, target⟩
    exact ⟨generation, opened, due, attempts, next, last, message, stateSize, canonical, retry, lease, terminal,
      deadline, target⟩
  · rintro ⟨generation, opened, due, attempts, next, last, message, stateSize, canonical, retry, lease, terminal,
      deadline, target⟩
    exact ⟨(), ⟨generation, opened, due, attempts, next, last⟩, (), message, (), stateSize, (), canonical, (), retry,
      (), lease, (), terminal, (), deadline, target⟩

theorem validateOrder_eq_ok {pending attempt} : validateOrder pending attempt = .ok () ↔
      attempt.generation < pending.generation ∧ attempt.target.treeSize < pending.target.treeSize := by
  simp [validateOrder]

theorem highestGeneration_lt {schedule} (nonzero : schedule.nextGeneration ≠ 0) :
    highestGeneration schedule < schedule.nextGeneration ↔
      (∀ pending, schedule.pending = some pending → pending.generation < schedule.nextGeneration) ∧
      ∀ attempt, schedule.inFlight = some attempt → attempt.generation < schedule.nextGeneration := by
  unfold highestGeneration
  cases schedule.pending with
  | none =>
    cases schedule.inFlight with
    | none =>
      simp
      omega
    | some attempt =>
      simp
      split <;> omega
  | some pending =>
    cases schedule.inFlight with
    | none => simp
    | some attempt =>
      simp
      split <;> omega

theorem pendingPart_eq_ok {schedule : STHAnchorSchedule} : ((match schedule.pending with
    | some pending => validatePending schedule.key pending
    | none => .ok () : Outcome Unit) = .ok ()) ↔
    ∀ pending, schedule.pending = some pending → WindowOk schedule.key pending := by
  cases schedule.pending with
  | none => simp
  | some pending => simp [validatePending_eq_ok]

theorem inFlightPart_eq_ok {schedule : STHAnchorSchedule} : ((match schedule.inFlight with
    | some attempt => validateInFlight schedule.key attempt
    | none => .ok () : Outcome Unit) = .ok ()) ↔
    ∀ attempt, schedule.inFlight = some attempt → AttemptOk schedule.key attempt := by
  cases schedule.inFlight with
  | none => simp
  | some attempt => simp [validateInFlight_eq_ok]

theorem orderPart_eq_ok {schedule : STHAnchorSchedule} : ((match schedule.pending, schedule.inFlight with
    | some pending, some attempt => validateOrder pending attempt
    | _, _ => .ok () : Outcome Unit) = .ok ()) ↔
    ∀ pending attempt, schedule.pending = some pending → schedule.inFlight = some attempt →
      attempt.generation < pending.generation ∧ attempt.target.treeSize < pending.target.treeSize := by
  cases schedule.pending with
  | none => simp
  | some pending =>
    cases schedule.inFlight with
    | none => simp
    | some attempt => simp [validateOrder_eq_ok]

theorem validateSchedule_eq_ok {schedule} : validateSchedule schedule = .ok done ↔ Valid schedule := by
  have suitePart : (∃ suite, lookup schedule.cryptoSuite = some suite) ↔ Known schedule.cryptoSuite :=
    Option.isSome_iff_exists.symm
  simp only [validateSchedule, bind_eq_ok, reject_eq_ok, mapError_eq_ok, not_not,
    requireAvailable_eq_ok, validateKey_eq_ok, Nat.not_le]
  constructor
  · rintro ⟨_, schemaVersion, suite, known, _, keyed, _, nonzero, _, revision, _, pending, _, inFlight, _, order,
      above⟩
    obtain ⟨abovePending, aboveInFlight⟩ := (highestGeneration_lt nonzero).mp above
    exact ⟨schemaVersion, suitePart.mp ⟨suite, known⟩, keyed, nonzero, revision, pendingPart_eq_ok.mp pending,
      inFlightPart_eq_ok.mp inFlight, orderPart_eq_ok.mp order, abovePending, aboveInFlight⟩
  · intro valid
    obtain ⟨suite, known⟩ := suitePart.mpr valid.suite
    exact ⟨(), valid.schemaVersion, suite, known, (), valid.key, (), valid.nextGeneration, (), valid.revision, (),
      pendingPart_eq_ok.mpr valid.pending, (), inFlightPart_eq_ok.mpr valid.inFlight, (),
      orderPart_eq_ok.mpr valid.follows,
      (highestGeneration_lt valid.nextGeneration).mpr ⟨valid.abovePending, valid.aboveInFlight⟩⟩

theorem validateTarget_suite {sth} (valid : validateTarget key sth = .ok ()) : Known sth.cryptoSuite := by
  simp only [validateTarget, bind_eq_ok, mapError_eq_ok, requireAvailable_eq_ok] at valid
  obtain ⟨suite, found, _⟩ := valid
  exact Option.isSome_iff_exists.mpr ⟨suite, found⟩

theorem validateResult_binds {library result} (valid : validateResult library key result = .ok done) :
    streamOf result = key ∧
      result.sth.treeSize = result.treeSize ∧ result.sth.rootHash = result.rootHash := by
  simp only [validateResult, bind_eq_ok, reject_eq_ok, not_or, not_not] at valid
  obtain ⟨_, _, _, _, _, _, _, _, _, ⟨node, log, sink⟩, _, _, _, _, _, ⟨size, root⟩, _⟩ := valid
  refine ⟨?_, size.symm, root.symm⟩
  cases key
  simp_all [streamOf, scheduleKey, resultKey]

theorem validateCandidate_eq_ok {candidate} :
    validateCandidate candidate = .ok done ↔
      candidate.key.sinkName ≠ "" ∧ validateTarget candidate.key candidate.sth = .ok () ∧
      0 < candidate.observedAtUnixN ∧ candidate.observedAtUnixN ≤ candidate.dueAtUnixN := by
  simp only [validateCandidate, bind_eq_ok, validateKey_eq_ok, reject_eq_ok, Int.not_le, Int.not_lt]
  constructor
  · rintro ⟨_, keyed, _, target, _, observed, due⟩
    exact ⟨keyed, target, observed, due⟩
  · rintro ⟨keyed, target, observed, due⟩
    exact ⟨(), keyed, (), target, (), observed, due⟩

end

theorem next64_of_lt {counter : Nat} (below : counter < 2 ^ 64 - 1) : next64 counter = counter + 1 := by
  unfold next64
  omega

theorem next64_ne (counter : Nat) : next64 counter ≠ counter := by
  unfold next64
  omega

section

variable {library : Library} {current next : STHAnchorSchedule} {candidate : STHAnchorCandidate}
  {changed : Bool} {generation : Nat} {leaseToken : String} {result : STHAnchorResult}

theorem coveredByTargets_eq_ok {sth targets covered} (checked : coveredByTargets sth targets = .ok covered) :
    (covered = true ∧ ∃ target ∈ targets, sth.treeSize ≤ target.treeSize) ∨
      (covered = false ∧ ∀ target ∈ targets, target.treeSize < sth.treeSize) := by
  induction targets with
  | nil => exact .inr ⟨(Except.ok.inj checked).symm, by simp⟩
  | cons target rest ih =>
    simp only [coveredByTargets, bind_eq_ok] at checked
    obtain ⟨_, _, checked⟩ := checked
    split at checked
    · rename_i within
      exact .inl ⟨(Except.ok.inj checked).symm, target, List.mem_cons_self, within⟩
    · rename_i beyond
      rcases ih checked with ⟨yes, other, member, within⟩ | ⟨no, all⟩
      · exact .inl ⟨yes, other, List.mem_cons_of_mem _ member, within⟩
      · refine .inr ⟨no, fun other member => ?_⟩
        rcases List.mem_cons.mp member with rfl | later
        · omega
        · exact all other later

theorem mem_scheduleTargets {target} : target ∈ scheduleTargets current ↔
    (∃ attempt, current.inFlight = some attempt ∧ attempt.target = target) ∨
      ∃ pending, current.pending = some pending ∧ pending.target = target := by
  simp [scheduleTargets]

theorem mergeTargets_eq_ok (merged : mergeTargets current candidate = .ok (next, changed)) :
    (next = current ∧ changed = false ∧ ∃ target ∈ scheduleTargets current,
      candidate.sth.treeSize ≤ target.treeSize) ∨
    (next = openWindow current candidate ∧ changed = true ∧ ∀ target ∈ scheduleTargets current,
      target.treeSize < candidate.sth.treeSize) := by
  simp only [mergeTargets, bind_eq_ok] at merged
  obtain ⟨covered, checked, merged⟩ := merged
  rcases coveredByTargets_eq_ok checked with ⟨rfl, covers⟩ | ⟨rfl, beyond⟩
  · cases merged
    exact .inl ⟨rfl, rfl, covers⟩
  · cases merged
    exact .inr ⟨rfl, rfl, beyond⟩

def base (current : Option STHAnchorSchedule) (candidate : STHAnchorCandidate) : STHAnchorSchedule :=
  current.getD (createdFor candidate)

structure Mergeable (current : Option STHAnchorSchedule) (candidate : STHAnchorCandidate) : Prop where
  sinkName : candidate.key.sinkName ≠ ""
  target : validateTarget candidate.key candidate.sth = .ok ()
  observed : 0 < candidate.observedAtUnixN
  due : candidate.observedAtUnixN ≤ candidate.dueAtUnixN
  existing : ∀ schedule, current = some schedule → Valid schedule ∧ schedule.key = candidate.key ∧
    schedule.cryptoSuite = candidate.sth.cryptoSuite

theorem mergeCandidate_eq_ok {current : Option STHAnchorSchedule} {latest}
    (merged : mergeCandidate library current candidate latest = .ok (next, changed)) :
    Mergeable current candidate ∧
      ((current = some next ∧ changed = false ∧ ∃ target ∈ scheduleTargets next,
          candidate.sth.treeSize ≤ target.treeSize) ∨
        (current = some next ∧ changed = false ∧ ∃ result, latest = some result ∧
          candidate.sth.treeSize ≤ result.treeSize) ∨
        (current = none ∧ changed = true ∧ next = { createdFor candidate with revision := 1 } ∧
          ∃ result, latest = some result ∧ candidate.sth.treeSize ≤ result.treeSize) ∨
        (next = openWindow (base current candidate) candidate ∧ changed = true ∧
          (∀ target ∈ scheduleTargets (base current candidate), target.treeSize < candidate.sth.treeSize) ∧
          ∀ result, latest = some result → result.treeSize < candidate.sth.treeSize)) := by
  simp only [mergeCandidate, bind_eq_ok, validateCandidate_eq_ok] at merged
  obtain ⟨_, ⟨sinkName, target, observed, due⟩, schedule, checked, merged⟩ := merged
  have mergeable : Mergeable current candidate ∧ schedule = base current candidate := by
    cases current with
    | none =>
      cases checked
      exact ⟨⟨sinkName, target, observed, due, by simp⟩, rfl⟩
    | some existing =>
      simp only [bind_eq_ok, validateSchedule_eq_ok, reject_eq_ok, mapError_eq_ok,
        return_eq_ok, sameKey, decide_eq_false_iff_not, not_not] at checked
      obtain ⟨_, valid, _, sameKey, _, sameSuite, rfl⟩ := checked
      have suites := (requireSame_eq_ok.mp sameSuite).2
      refine ⟨⟨sinkName, target, observed, due, ?_⟩, rfl⟩
      intro schedule same
      cases same
      exact ⟨valid, sameKey, (suites _ (List.mem_singleton_self _)).symm⟩
  obtain ⟨mergeable, rfl⟩ := mergeable
  refine ⟨mergeable, ?_⟩
  by_cases newer : ∀ result, latest = some result → result.treeSize < candidate.sth.treeSize
  · -- Behind the check of the latest result, the targets decide.
    have decided : mergeTargets (base current candidate) candidate = .ok (next, changed) := by
      cases latest with
      | none => exact merged
      | some result =>
        simp only [bind_eq_ok, if_neg (Nat.not_le.mpr (newer result rfl))] at merged
        obtain ⟨_, _, _, _, merged⟩ := merged
        exact merged
    rcases mergeTargets_eq_ok decided with ⟨rfl, unchanged, covers⟩ | ⟨rfl, opened, beyond⟩
    · cases current with
      | none =>
        obtain ⟨target, member, _⟩ := covers
        simp [base, createdFor, scheduleTargets] at member
      | some existing => exact .inl ⟨rfl, unchanged, covers⟩
    · exact .inr (.inr (.inr ⟨rfl, opened, beyond, newer⟩))
  · simp only [not_forall, Nat.not_lt] at newer
    obtain ⟨result, rfl, within⟩ := newer
    simp only [bind_eq_ok, if_pos within] at merged
    obtain ⟨_, _, _, _, merged⟩ := merged
    cases current with
    | none =>
      cases merged
      exact .inr (.inr (.inl ⟨rfl, rfl, rfl, result, rfl, within⟩))
    | some existing =>
      cases merged
      exact .inr (.inl ⟨rfl, rfl, result, rfl, within⟩)

theorem fenced_eq_ok {attempt} :
    fenced current generation leaseToken = .ok attempt ↔ Valid current ∧ current.inFlight = some attempt ∧
      generation ≠ 0 ∧ attempt.generation = generation ∧ leaseToken ≠ "" ∧ attempt.leaseToken = leaseToken := by
  simp only [fenced, bind_eq_ok, validateSchedule_eq_ok]
  cases current.inFlight with
  | none => simp
  | some existing =>
    simp only [bind_eq_ok, reject_eq_ok, return_eq_ok, not_or, not_not, Option.some.injEq]
    constructor
    · rintro ⟨_, valid, _, ⟨nonzero, generation, filled, token⟩, rfl⟩
      exact ⟨valid, rfl, nonzero, generation, filled, token⟩
    · rintro ⟨valid, rfl, nonzero, generation, filled, token⟩
      exact ⟨(), valid, (), ⟨nonzero, generation, filled, token⟩, rfl⟩

theorem claim_eq_ok {nowUnixN leaseUntilUnixN leaseOwner claimed}
    (done : claim current nowUnixN leaseUntilUnixN leaseOwner leaseToken = .ok (next, claimed)) :
    Valid current ∧ 0 < nowUnixN ∧ nowUnixN < leaseUntilUnixN ∧ leaseOwner ≠ "" ∧ leaseToken ≠ "" ∧
      ((next = current ∧ claimed = none) ∨
        (∃ attempt, current.inFlight = some attempt ∧ attempt.terminalFailure = false ∧
          attempt.nextAttemptUnixN ≤ nowUnixN ∧ attempt.leaseUntilUnixN ≤ nowUnixN ∧
          claimed = some (leased attempt nowUnixN leaseUntilUnixN leaseOwner leaseToken) ∧
          next = withAttempt current (leased attempt nowUnixN leaseUntilUnixN leaseOwner leaseToken)) ∨
        (∃ pending, current.inFlight = none ∧ current.pending = some pending ∧ pending.dueAtUnixN ≤ nowUnixN ∧
          claimed = some (promoted pending nowUnixN leaseUntilUnixN leaseOwner leaseToken) ∧
          next = { current with
            pending := none
            inFlight := some (promoted pending nowUnixN leaseUntilUnixN leaseOwner leaseToken)
            revision := next64 current.revision })) := by
  simp only [claim, bind_eq_ok, validateSchedule_eq_ok, reject_eq_ok, not_or, Int.not_le] at done
  obtain ⟨_, valid, _, ⟨now, lease, owner, token⟩, done⟩ := done
  refine ⟨valid, now, lease, owner, token, ?_⟩
  split at done
  · rename_i attempt inFlight
    split at done
    · cases done
      exact .inl ⟨rfl, rfl⟩
    · rename_i due
      simp only [not_or, Bool.not_eq_true, gt_iff_lt, Int.not_lt] at due
      cases done
      exact .inr (.inl ⟨attempt, inFlight, due.1, due.2.1, due.2.2, rfl, rfl⟩)
  · rename_i idle
    split at done
    · cases done
      exact .inl ⟨rfl, rfl⟩
    · rename_i pending open_
      split at done
      · cases done
        exact .inl ⟨rfl, rfl⟩
      · rename_i due
        cases done
        exact .inr (.inr ⟨pending, idle, open_, Int.not_lt.mp due, rfl, rfl⟩)

theorem resultMatchesTarget_eq_true {target} : resultMatchesTarget result target = true ↔
      result.treeSize = target.treeSize ∧ result.rootHash = target.rootHash ∧ result.sth = target := by
  simp [resultMatchesTarget, sameTarget, and_assoc]

/-- What a stored result does to a schedule: it takes the attempt with its tree out of flight and
drops a window that it covers. -/
structure Settles (current : STHAnchorSchedule) (result : STHAnchorResult) (next : STHAnchorSchedule) : Prop where
  inFlight : (next.inFlight = current.inFlight ∧ ∀ attempt, current.inFlight = some attempt →
      attempt.target.treeSize ≠ result.treeSize) ∨
    (next.inFlight = none ∧ ∃ attempt, current.inFlight = some attempt ∧
      resultMatchesTarget result attempt.target = true)
  pending : (next.pending = current.pending ∧ ∀ pending, current.pending = some pending →
      result.treeSize < pending.target.treeSize) ∨
    (next.pending = none ∧ ∃ pending, current.pending = some pending ∧
      pending.target.treeSize ≤ result.treeSize)
  rest : next = current ∨ (next ≠ current ∧ next = { current with
    inFlight := next.inFlight
    pending := next.pending
    revision := next64 current.revision })
  moved : next.inFlight = current.inFlight → next.pending = current.pending → next = current

theorem settle_eq_ok (settled : settle current result = .ok next) :
    Settles current result next := by
  simp only [settle, bind_eq_ok] at settled
  obtain ⟨inFlight, first, pending, second, settled⟩ := settled
  have flight : (inFlight = current.inFlight ∧ ∀ attempt, current.inFlight = some attempt →
      attempt.target.treeSize ≠ result.treeSize) ∨
      (inFlight = none ∧ ∃ attempt, current.inFlight = some attempt ∧
        resultMatchesTarget result attempt.target = true) := by
    unfold settleInFlight at first
    cases found : current.inFlight with
    | none =>
      rw [found] at first
      exact .inl ⟨(Except.ok.inj first).symm, by simp⟩
    | some attempt =>
      rw [found] at first
      simp only at first
      split at first
      · simp only [bind_eq_ok, reject_eq_ok, Bool.not_eq_false, return_eq_ok] at first
        obtain ⟨_, matched, rfl⟩ := first
        exact .inr ⟨rfl, attempt, rfl, matched⟩
      · rename_i apart
        exact .inl ⟨(Except.ok.inj first).symm, by simpa using apart⟩
  have window : (pending = current.pending ∧ ∀ window, current.pending = some window →
      result.treeSize < window.target.treeSize) ∨
      (pending = none ∧ ∃ window, current.pending = some window ∧ window.target.treeSize ≤ result.treeSize) := by
    unfold settlePending at second
    cases found : current.pending with
    | none =>
      rw [found] at second
      exact .inl ⟨(Except.ok.inj second).symm, by simp⟩
    | some existing =>
      rw [found] at second
      simp only at second
      split at second
      · rename_i within
        simp only [bind_eq_ok, return_eq_ok] at second
        obtain ⟨_, _, rfl⟩ := second
        exact .inr ⟨rfl, existing, rfl, within⟩
      · rename_i beyond
        exact .inl ⟨(Except.ok.inj second).symm, by simpa using beyond⟩
  split at settled
  · rename_i same
    cases settled
    refine ⟨?_, ?_, .inl rfl, fun _ _ => rfl⟩
    · rcases flight with kept | ⟨rfl, attempt, found, _⟩
      · exact .inl ⟨rfl, kept.2⟩
      · simp [found] at same
    · rcases window with kept | ⟨rfl, existing, found, _⟩
      · exact .inl ⟨rfl, kept.2⟩
      · simp [found] at same
  · rename_i apart
    cases settled
    refine ⟨flight, window, .inr ⟨fun same => next64_ne _ (congrArg STHAnchorSchedule.revision same), rfl⟩, ?_⟩
    · intro sameFlight samePending
      refine absurd ?_ apart
      dsimp only at sameFlight samePending
      rw [sameFlight, samePending]
      exact ⟨rfl, rfl⟩

theorem compareAndSwapProviderState_eq_ok {nowUnixN expected state}
    (swapped : compareAndSwapProviderState current generation leaseToken nowUnixN expected state = .ok next) :
    ∃ attempt, fenced current generation leaseToken = .ok attempt ∧ state.length ≠ 0 ∧
      state.length ≤ maxProviderStateBytes ∧
      next = withAttempt current { attempt with providerState := some state } := by
  simp only [compareAndSwapProviderState, bind_eq_ok, reject_eq_ok, not_or, Nat.not_lt, return_eq_ok] at swapped
  obtain ⟨attempt, owned, _, _, _, _, _, ⟨filled, bounded⟩, _, _, rfl⟩ := swapped
  exact ⟨attempt, owned, filled, bounded, rfl⟩

theorem reschedule_eq_ok {lastError attempts nextAttemptUnixN}
    (rescheduled : reschedule current generation leaseToken attempts nextAttemptUnixN lastError = .ok next) :
    ∃ attempt, fenced current generation leaseToken = .ok attempt ∧ attempt.attempts < attempts ∧
      attempt.lastAttemptUnixN ≤ nextAttemptUnixN ∧ lastError ≠ "" ∧ lastError.utf8ByteSize ≤ maxLastErrorBytes ∧
      next = withAttempt current (unleased { attempt with
        attempts, nextAttemptUnixN
        lastErrorMessage := lastError
        terminalFailure := false }) := by
  simp only [reschedule, bind_eq_ok, reject_eq_ok, not_or, Nat.not_lt, Int.not_le, Int.not_lt,
    return_eq_ok] at rescheduled
  obtain ⟨attempt, owned, _, ⟨more, later, filled, bounded⟩, rfl⟩ := rescheduled
  exact ⟨attempt, owned, more, later, filled, bounded, rfl⟩

theorem fail_eq_ok {lastError attempts}
    (failed : fail current generation leaseToken attempts lastError = .ok next) :
    ∃ attempt, fenced current generation leaseToken = .ok attempt ∧ attempt.attempts < attempts ∧ lastError ≠ "" ∧
      lastError.utf8ByteSize ≤ maxLastErrorBytes ∧
      next = withAttempt current (unleased { attempt with
        attempts
        nextAttemptUnixN := 0
        lastErrorMessage := lastError
        terminalFailure := true }) := by
  simp only [fail, bind_eq_ok, reject_eq_ok, not_or, Nat.not_lt, Int.not_le, return_eq_ok] at failed
  obtain ⟨attempt, owned, _, ⟨more, filled, bounded⟩, rfl⟩ := failed
  exact ⟨attempt, owned, more, filled, bounded, rfl⟩

theorem complete_eq_ok (completed : complete library current generation leaseToken result = .ok next) :
    ∃ attempt, fenced current generation leaseToken = .ok attempt ∧
      validateResult library current.key result = .ok () ∧ resultMatchesTarget result attempt.target = true ∧
      Settles current result next := by
  simp only [complete, bind_eq_ok, reject_eq_ok, Bool.not_eq_false] at completed
  obtain ⟨attempt, owned, _, valid, _, matched, settled⟩ := completed
  exact ⟨attempt, owned, valid, matched, settle_eq_ok settled⟩

theorem reconcileCompleted_eq_ok
    (reconciled : reconcileCompleted library current result = .ok (next, changed)) :
    Valid current ∧ validateResult library current.key result = .ok () ∧ Settles current result next ∧
      (changed = false → next = current) := by
  simp only [reconcileCompleted, bind_eq_ok, validateSchedule_eq_ok, return_eq_ok, Prod.mk.injEq] at reconciled
  obtain ⟨_, valid, _, checked, settled, done, rfl, rfl⟩ := reconciled
  have settles := settle_eq_ok done
  refine ⟨valid, checked, settles, fun unchanged => ?_⟩
  rcases settles.rest with same | ⟨_, same⟩
  · exact same
  · have revision : settled.revision = current.revision := by simpa using unchanged
    rw [same] at revision
    exact absurd revision (next64_ne _)

theorem clearLeaseForRestore_eq_ok (cleared : clearLeaseForRestore current = .ok next) :
    Valid current ∧ ((next = current ∧ ∀ attempt, current.inFlight = some attempt → hasLease attempt = false) ∨
      ∃ attempt, current.inFlight = some attempt ∧ hasLease attempt = true ∧
        next = withAttempt current (unleased attempt)) := by
  simp only [clearLeaseForRestore, bind_eq_ok, validateSchedule_eq_ok] at cleared
  obtain ⟨_, valid, cleared⟩ := cleared
  refine ⟨valid, ?_⟩
  cases found : current.inFlight with
  | none =>
    rw [found] at cleared
    exact .inl ⟨(Except.ok.inj cleared).symm, by simp⟩
  | some attempt =>
    rw [found] at cleared
    simp only at cleared
    split at cleared
    · rename_i bare
      refine .inl ⟨(Except.ok.inj cleared).symm, fun other same => ?_⟩
      cases same
      simp [hasLease, bare]
    · rename_i held
      refine .inr ⟨attempt, rfl, ?_, (Except.ok.inj cleared).symm⟩
      simp only [not_and_or] at held
      simp only [hasLease, Bool.or_eq_true, decide_eq_true_eq, or_assoc]
      exact held

end

section

variable {current next : STHAnchorSchedule} {generation : Nat} {leaseToken : String} {result : STHAnchorResult}
  {target : SignedTreeHead} {candidate : STHAnchorCandidate}

def Retains (current next : STHAnchorSchedule) : Prop :=
  scheduleTargets next = scheduleTargets current ∧ next.key = current.key

/-- What a worker that holds the lease does short of completing: it changes the attempt in flight, but
not what that is for, and leaves its own lease or none. -/
def Revises (current : STHAnchorSchedule) (generation : Nat) (leaseToken : String) (next : STHAnchorSchedule) : Prop :=
  ∃ attempt changed, fenced current generation leaseToken = .ok attempt ∧ next = withAttempt current changed ∧
    changed.generation = attempt.generation ∧ changed.target = attempt.target ∧
    (changed.leaseToken = attempt.leaseToken ∨ changed.leaseToken = "")

theorem compareAndSwapProviderState_revises {nowUnixN expected state}
    (swapped : compareAndSwapProviderState current generation leaseToken nowUnixN expected state = .ok next) :
    Revises current generation leaseToken next := by
  obtain ⟨attempt, owned, _, _, rfl⟩ := compareAndSwapProviderState_eq_ok swapped
  exact ⟨attempt, _, owned, rfl, rfl, rfl, .inl rfl⟩

theorem reschedule_revises {lastError attempts nextAttemptUnixN}
    (rescheduled : reschedule current generation leaseToken attempts nextAttemptUnixN lastError = .ok next) :
    Revises current generation leaseToken next := by
  obtain ⟨attempt, owned, _, _, _, _, rfl⟩ := reschedule_eq_ok rescheduled
  exact ⟨attempt, _, owned, rfl, rfl, rfl, .inr rfl⟩

theorem fail_revises {lastError attempts}
    (failed : fail current generation leaseToken attempts lastError = .ok next) :
    Revises current generation leaseToken next := by
  obtain ⟨attempt, owned, _, _, _, rfl⟩ := fail_eq_ok failed
  exact ⟨attempt, _, owned, rfl, rfl, rfl, .inr rfl⟩

theorem Revises.retains (revises : Revises current generation leaseToken next) : Retains current next := by
  obtain ⟨attempt, changed, owned, rfl, _, target, _⟩ := revises
  obtain ⟨_, inFlight, _⟩ := fenced_eq_ok.mp owned
  exact ⟨by simp [scheduleTargets, withAttempt, inFlight, target], rfl⟩

theorem claim_retains {nowUnixN leaseUntilUnixN leaseOwner claimed}
    (done : claim current nowUnixN leaseUntilUnixN leaseOwner leaseToken = .ok (next, claimed)) :
    Retains current next := by
  obtain ⟨_, _, _, _, _, outcome⟩ := claim_eq_ok done
  rcases outcome with ⟨rfl, _⟩ | ⟨attempt, inFlight, _, _, _, _, rfl⟩ | ⟨pending, idle, open_, _, _, rfl⟩
  · exact ⟨rfl, rfl⟩
  · exact ⟨by simp [scheduleTargets, withAttempt, inFlight, leased], rfl⟩
  · exact ⟨by simp [scheduleTargets, idle, open_, promoted], rfl⟩

section

variable (settles : Settles current result next)
include settles

theorem Settles.key : next.key = current.key := by
  rcases settles.rest with same | ⟨_, same⟩ <;> rw [same]

theorem Settles.covers (scheduled : target ∈ scheduleTargets current) :
    target ∈ scheduleTargets next ∨ target.treeSize ≤ result.treeSize := by
  rw [mem_scheduleTargets] at scheduled ⊢
  rcases scheduled with ⟨attempt, inFlight, rfl⟩ | ⟨pending, open_, rfl⟩
  · rcases settles.inFlight with ⟨kept, _⟩ | ⟨_, other, found, matched⟩
    · exact .inl (.inl ⟨attempt, kept.trans inFlight, rfl⟩)
    · cases inFlight.symm.trans found
      have sizes := (resultMatchesTarget_eq_true.mp matched).1
      omega
  · rcases settles.pending with ⟨kept, _⟩ | ⟨_, other, found, within⟩
    · exact .inl (.inr ⟨pending, kept.trans open_, rfl⟩)
    · cases open_.symm.trans found
      exact .inr within

theorem Settles.targets (scheduled : target ∈ scheduleTargets next) : target ∈ scheduleTargets current := by
  rw [mem_scheduleTargets] at scheduled ⊢
  rcases scheduled with ⟨attempt, inFlight, rfl⟩ | ⟨pending, open_, rfl⟩
  · rcases settles.inFlight with ⟨kept, _⟩ | ⟨gone, _⟩
    · exact .inl ⟨attempt, kept.symm.trans inFlight, rfl⟩
    · rw [gone] at inFlight
      cases inFlight
  · rcases settles.pending with ⟨kept, _⟩ | ⟨gone, _⟩
    · exact .inr ⟨pending, kept.symm.trans open_, rfl⟩
    · rw [gone] at open_
      cases open_

end

theorem mem_openWindow :
    target ∈ scheduleTargets (openWindow current candidate) ↔
      (∃ attempt, current.inFlight = some attempt ∧ attempt.target = target) ∨ target = candidate.sth := by
  rw [mem_scheduleTargets, openWindow]
  cases current.pending with
  | none => simp [eq_comm]
  | some pending => simp [eq_comm]

theorem Mergeable.base_key {current : Option STHAnchorSchedule}
    (mergeable : Mergeable current candidate) : (base current candidate).key = candidate.key := by
  cases found : current with
  | none => rfl
  | some schedule => exact (mergeable.existing schedule found).2.1

theorem openWindow_none (valid : Valid current) (closed : current.pending = none) :
    openWindow current candidate = { current with
      pending := some {
        generation := current.nextGeneration
        target := candidate.sth
        openedAtUnixN := candidate.observedAtUnixN
        dueAtUnixN := candidate.dueAtUnixN
        updatedAtUnixN := candidate.observedAtUnixN }
      nextGeneration := next64 current.nextGeneration
      revision := next64 current.revision } := by
  simp only [openWindow, closed, valid.nextGeneration, if_false]

theorem openWindow_some {pending} (open_ : current.pending = some pending) :
    openWindow current candidate = { current with
      pending := some { pending with
        target := candidate.sth
        updatedAtUnixN := if candidate.observedAtUnixN > pending.updatedAtUnixN
          then candidate.observedAtUnixN else pending.updatedAtUnixN }
      revision := next64 current.revision } := by
  simp only [openWindow, open_]

theorem openWindow_key : (openWindow current candidate).key = current.key := by
  unfold openWindow
  cases current.pending <;> rfl

theorem openWindow_inFlight :
    (openWindow current candidate).inFlight = current.inFlight := by
  unfold openWindow
  cases current.pending <;> rfl

theorem mergeCandidate_key {library} {current : Option STHAnchorSchedule} {latest changed}
    (merged : mergeCandidate library current candidate latest = .ok (next, changed)) :
    next.key = candidate.key := by
  obtain ⟨mergeable, outcome⟩ := mergeCandidate_eq_ok merged
  rcases outcome with ⟨found, _⟩ | ⟨found, _⟩ | ⟨_, _, rfl, _⟩ | ⟨rfl, _⟩
  · exact (mergeable.existing next found).2.1
  · exact (mergeable.existing next found).2.1
  · rfl
  · exact openWindow_key.trans mergeable.base_key

theorem mergeCandidate_inFlight {library} {current : Option STHAnchorSchedule} {latest changed}
    (merged : mergeCandidate library current candidate latest = .ok (next, changed)) {attempt}
    (found : next.inFlight = some attempt) :
    ∃ schedule, current = some schedule ∧ schedule.inFlight = some attempt := by
  obtain ⟨_, outcome⟩ := mergeCandidate_eq_ok merged
  rcases outcome with ⟨same, _⟩ | ⟨same, _⟩ | ⟨_, _, rfl, _⟩ | ⟨rfl, _⟩
  · exact ⟨next, same, found⟩
  · exact ⟨next, same, found⟩
  · cases found
  · rw [openWindow_inFlight] at found
    cases current with
    | none => cases found
    | some schedule => exact ⟨schedule, rfl, found⟩

end

end TrustDB.AnchorSchedule
