import TrustDB.AnchorSchedule.Spec

/-!
Whole histories of a schedule: which work an operation can change, and what therefore holds
between any two moments. A schedule whose counters have run over refuses everything from then
on, so nothing is assumed about their size.
-/

namespace TrustDB.AnchorSchedule

open Result Option CryptoSuite Model

inductive Moves : Option STHAnchorSchedule → STHAnchorSchedule → Prop
  | kept {schedule} : Valid schedule → Moves (some schedule) schedule
  | registered (candidate) : Moves none { createdFor candidate with revision := 1 }
  | first (candidate) : Moves none (openWindow (createdFor candidate) candidate)
  | opened {schedule candidate} : Valid schedule → schedule.pending = none →
      Moves (some schedule) (openWindow schedule candidate)
  | moved {schedule candidate pending} : Valid schedule → schedule.pending = some pending →
      pending.target.treeSize < candidate.sth.treeSize → Moves (some schedule) (openWindow schedule candidate)
  | attempted {schedule before after} : Valid schedule → schedule.inFlight = some before →
      after.generation = before.generation → after.target = before.target →
      Moves (some schedule) (withAttempt schedule after)
  | promotion {schedule pending attempt revision} : Valid schedule → schedule.pending = some pending →
      attempt.generation = pending.generation → attempt.target = pending.target →
      Moves (some schedule) { schedule with pending := none, inFlight := some attempt, revision }
  | settled {schedule inFlight pending revision} : Valid schedule →
      (inFlight = schedule.inFlight ∨ inFlight = none) → (pending = schedule.pending ∨ pending = none) →
      Moves (some schedule) { schedule with inFlight, pending, revision }

section

variable {library : Library} {current next : STHAnchorSchedule} {result : STHAnchorResult} {generation : Nat}
  {leaseToken : String}

theorem mergeCandidate_moves {current : Option STHAnchorSchedule} {candidate latest changed}
    (merged : mergeCandidate library current candidate latest = .ok (next, changed)) : Moves current next := by
  obtain ⟨mergeable, outcome⟩ := mergeCandidate_eq_ok merged
  rcases outcome with ⟨rfl, _⟩ | ⟨rfl, _⟩ | ⟨rfl, _, rfl, _⟩ | ⟨rfl, _, beyond, _⟩
  · exact .kept (mergeable.existing next rfl).1
  · exact .kept (mergeable.existing next rfl).1
  · exact .registered candidate
  · cases current with
    | none => exact .first candidate
    | some schedule =>
      have valid := (mergeable.existing schedule rfl).1
      cases open_ : schedule.pending with
      | none => exact .opened valid open_
      | some pending =>
        exact .moved valid open_ (beyond _ (mem_scheduleTargets.mpr (.inr ⟨pending, open_, rfl⟩)))

theorem claim_moves {now lease owner token claimed}
    (done : claim current now lease owner token = .ok (next, claimed)) : Moves (some current) next := by
  obtain ⟨valid, _, _, _, _, outcome⟩ := claim_eq_ok done
  rcases outcome with ⟨rfl, _⟩ | ⟨attempt, found, _, _, _, _, rfl⟩ | ⟨pending, _, open_, _, _, rfl⟩
  · exact .kept valid
  · exact .attempted valid found rfl rfl
  · exact .promotion valid open_ rfl rfl

theorem Settles.moves (settles : Settles current result next) (valid : Valid current) :
    Moves (some current) next := by
  rcases settles.rest with rfl | ⟨_, same⟩
  · exact .kept valid
  · rw [same]
    refine .settled valid ?_ ?_
    · rcases settles.inFlight with ⟨kept, _⟩ | ⟨gone, _⟩
      · exact .inl kept
      · exact .inr gone
    · rcases settles.pending with ⟨kept, _⟩ | ⟨gone, _⟩
      · exact .inl kept
      · exact .inr gone

theorem Revises.moves (revises : Revises current generation leaseToken next) : Moves (some current) next := by
  obtain ⟨attempt, changed, owned, rfl, same, target, _⟩ := revises
  obtain ⟨valid, found, _⟩ := fenced_eq_ok.mp owned
  exact .attempted valid found same target

theorem complete_moves
    (completed : complete library current generation leaseToken result = .ok next) : Moves (some current) next := by
  obtain ⟨attempt, owned, _, _, settles⟩ := complete_eq_ok completed
  exact settles.moves (fenced_eq_ok.mp owned).1

theorem reconcileCompleted_moves {changed : Bool}
    (reconciled : reconcileCompleted library current result = .ok (next, changed)) : Moves (some current) next := by
  obtain ⟨valid, _, settles, _⟩ := reconcileCompleted_eq_ok reconciled
  exact settles.moves valid

theorem clearLeaseForRestore_moves (cleared : clearLeaseForRestore current = .ok next) : Moves (some current) next := by
  obtain ⟨valid, ⟨rfl, _⟩ | ⟨attempt, found, _, rfl⟩⟩ := clearLeaseForRestore_eq_ok cleared
  · exact .kept valid
  · exact .attempted valid found rfl rfl

theorem Moves.valid (moves : Moves (some current) next) : Valid current := by
  cases moves <;> assumption

end

/-- What an earlier schedule says about a later one. Work in flight has an older generation than
what is pending or still to come, and the same target where the generation is the same; a window
that is still open has kept its times. -/
structure Precedes (old now : STHAnchorSchedule) : Prop where
  flightNext : ∀ attempt, old.inFlight = some attempt → Valid now → attempt.generation < now.nextGeneration
  flightPending : ∀ attempt pending, old.inFlight = some attempt → now.pending = some pending →
    attempt.generation < pending.generation
  flight : ∀ attempt later, old.inFlight = some attempt → now.inFlight = some later →
    attempt.generation < later.generation ∨
      (attempt.generation = later.generation ∧ attempt.target = later.target)
  windowNext : ∀ window, old.pending = some window → Valid now → window.generation < now.nextGeneration
  window : ∀ window later, old.pending = some window → now.pending = some later →
    window.generation < later.generation ∨
      (window.generation = later.generation ∧ window.openedAtUnixN = later.openedAtUnixN ∧
        window.dueAtUnixN = later.dueAtUnixN ∧
        (later.target = window.target ∨ window.target.treeSize < later.target.treeSize))

def Ordered (schedule : STHAnchorSchedule) : Prop :=
  ∀ attempt pending, schedule.inFlight = some attempt → schedule.pending = some pending →
    attempt.generation < pending.generation

section

variable {old now schedule next : STHAnchorSchedule} {candidate : STHAnchorCandidate}

theorem Precedes.refl (ordered : Ordered schedule) : Precedes schedule schedule where
  flightNext := fun attempt found valid => valid.aboveInFlight attempt found
  flightPending := ordered
  flight := fun attempt later found same => by
    cases found.symm.trans same
    exact .inr ⟨rfl, rfl⟩
  windowNext := fun window found valid => valid.abovePending window found
  window := fun window later found same => by
    cases found.symm.trans same
    exact .inr ⟨rfl, rfl, rfl, .inl rfl⟩

theorem Ordered.moves {current} (moves : Moves current next)
    (ordered : ∀ schedule, current = some schedule → Ordered schedule) : Ordered next := by
  cases moves with
  | kept => exact ordered _ rfl
  | registered candidate =>
    intro attempt pending found
    cases found
  | first candidate =>
    intro attempt pending found
    cases found
  | @opened schedule candidate valid closed =>
    rw [openWindow_none valid closed]
    intro attempt pending found same
    cases same
    exact valid.aboveInFlight attempt found
  | @moved schedule candidate pending valid open_ _ =>
    rw [openWindow_some open_]
    intro attempt later found same
    cases same
    exact (valid.follows pending attempt open_ found).1
  | @attempted schedule before after valid found generation target =>
    intro attempt pending same open_
    cases same
    rw [generation]
    exact (valid.follows pending before open_ found).1
  | promotion valid open_ generation target =>
    intro attempt pending _ same
    cases same
  | @settled schedule inFlight pending revision valid flight window =>
    intro attempt later found open_
    rcases flight with rfl | rfl
    · rcases window with rfl | rfl
      · exact (valid.follows later attempt open_ found).1
      · cases open_
    · cases found

section

variable (precedes : Precedes old schedule) (valid : Valid schedule)
include precedes valid

theorem Precedes.attempted {before after : STHAnchorAttempt} (found : schedule.inFlight = some before)
    (generation : after.generation = before.generation) (target : after.target = before.target) :
    Precedes old (withAttempt schedule after) where
  flightNext := fun attempt was _ => precedes.flightNext attempt was valid
  flightPending := precedes.flightPending
  flight := fun attempt later was same => by
    cases same
    rw [generation, target]
    exact precedes.flight attempt before was found
  windowNext := fun window was _ => precedes.windowNext window was valid
  window := precedes.window

theorem Precedes.opened (closed : schedule.pending = none) :
    Precedes old (openWindow schedule candidate) := by
  rw [openWindow_none valid closed]
  constructor
  · intro attempt was after
    have above := after.abovePending _ rfl
    have below := precedes.flightNext attempt was valid
    exact Nat.lt_trans below above
  · intro attempt pending was same
    cases same
    exact precedes.flightNext attempt was valid
  · exact precedes.flight
  · intro window was after
    have above := after.abovePending _ rfl
    exact Nat.lt_trans (precedes.windowNext window was valid) above
  · intro window later was same
    cases same
    exact .inl (precedes.windowNext window was valid)

theorem Precedes.moved {pending : STHAnchorWindow} (open_ : schedule.pending = some pending)
    (larger : pending.target.treeSize < candidate.sth.treeSize) :
    Precedes old (openWindow schedule candidate) := by
  rw [openWindow_some open_]
  constructor
  · exact fun attempt was _ => precedes.flightNext attempt was valid
  · intro attempt later was same
    cases same
    exact precedes.flightPending attempt pending was open_
  · exact precedes.flight
  · exact fun window was _ => precedes.windowNext window was valid
  · intro window later was same
    cases same
    rcases precedes.window window pending was open_ with older | ⟨equal, opened, due, target⟩
    · exact .inl older
    · refine .inr ⟨equal, opened, due, .inr ?_⟩
      rcases target with sameTarget | grown
      · exact sameTarget ▸ larger
      · exact Nat.lt_trans grown larger

theorem Precedes.promotion {pending : STHAnchorWindow} {attempt : STHAnchorAttempt} {revision : Nat}
    (open_ : schedule.pending = some pending) (generation : attempt.generation = pending.generation) :
    Precedes old { schedule with pending := none, inFlight := some attempt, revision } where
  flightNext := fun other was _ => precedes.flightNext other was valid
  flightPending := fun other later _ same => by cases same
  flight := fun other later was same => by
    cases same
    rw [generation]
    exact .inl (precedes.flightPending other pending was open_)
  windowNext := fun window was _ => precedes.windowNext window was valid
  window := fun window later _ same => by cases same

theorem Precedes.settled {inFlight : Option STHAnchorAttempt} {pending : Option STHAnchorWindow}
    {revision : Nat} (flight : inFlight = schedule.inFlight ∨ inFlight = none)
    (window : pending = schedule.pending ∨ pending = none) :
    Precedes old { schedule with inFlight, pending, revision } where
  flightNext := fun attempt was _ => precedes.flightNext attempt was valid
  flightPending := fun attempt later was same => by
    rcases window with rfl | rfl
    · exact precedes.flightPending attempt later was same
    · cases same
  flight := fun attempt later was same => by
    rcases flight with rfl | rfl
    · exact precedes.flight attempt later was same
    · cases same
  windowNext := fun attempt was _ => precedes.windowNext attempt was valid
  window := fun earlier later was same => by
    rcases window with rfl | rfl
    · exact precedes.window earlier later was same
    · cases same

end

theorem Moves.inFlight (moves : Moves (some schedule) next) {attempt} (found : next.inFlight = some attempt) :
    (∃ before, schedule.inFlight = some before ∧ before.generation = attempt.generation) ∨
      ∃ pending, schedule.pending = some pending ∧ pending.generation = attempt.generation := by
  cases moves with
  | kept => exact .inl ⟨attempt, found, rfl⟩
  | opened valid closed =>
    rw [openWindow_none valid closed] at found
    exact .inl ⟨attempt, found, rfl⟩
  | moved valid open_ larger =>
    rw [openWindow_some open_] at found
    exact .inl ⟨attempt, found, rfl⟩
  | @attempted _ before after valid was generation target =>
    cases found
    exact .inl ⟨before, was, generation.symm⟩
  | @promotion _ pending after revision valid open_ generation target =>
    cases found
    exact .inr ⟨pending, open_, generation.symm⟩
  | settled valid flight window =>
    rcases flight with rfl | rfl
    · exact .inl ⟨attempt, found, rfl⟩
    · cases found

theorem Precedes.moves (precedes : Precedes old schedule) (moves : Moves (some schedule) next) : Precedes old next := by
  cases moves with
  | kept => exact precedes
  | opened valid closed => exact precedes.opened valid closed
  | moved valid open_ larger => exact precedes.moved valid open_ larger
  | attempted valid found generation target => exact precedes.attempted valid found generation target
  | promotion valid open_ generation target => exact precedes.promotion valid open_ generation
  | settled valid flight window => exact precedes.settled valid flight window

end

def step (library : Library) (current : Option STHAnchorSchedule) (op : Operation) : Option STHAnchorSchedule :=
  match op.apply library current with
  | .ok next => some next
  | .error _ => current

def after (library : Library) (ops : List Operation) (count : Nat) : Option STHAnchorSchedule :=
  (ops.take count).foldl (step library) none

section

variable {library : Library}

theorem apply_moves {current : Option STHAnchorSchedule} {next : STHAnchorSchedule} {op : Operation}
    (applied : op.apply library current = .ok next) : Moves current next := by
  -- Operations other than the merge see the zero schedule where there is none, and refuse it.
  have existing : Moves (some (current.getD default)) next → Moves current next := by
    intro moves
    cases current with
    | none => exact absurd rfl moves.valid.revision
    | some schedule => exact moves
  cases op with
  | mergeCandidate candidate latest =>
    simp only [Operation.apply, bind_eq_ok, Prod.exists, return_eq_ok] at applied
    obtain ⟨_, _, merged, rfl⟩ := applied
    exact mergeCandidate_moves merged
  | claim now lease owner token =>
    simp only [Operation.apply, bind_eq_ok, Prod.exists, return_eq_ok] at applied
    obtain ⟨_, _, claimed, rfl⟩ := applied
    exact existing (claim_moves claimed)
  | compareAndSwapProviderState generation token now expected state =>
    exact existing (compareAndSwapProviderState_revises applied).moves
  | reschedule generation token attempts nextAttempt lastError =>
    exact existing (reschedule_revises applied).moves
  | fail generation token attempts lastError => exact existing (fail_revises applied).moves
  | complete generation token result => exact existing (complete_moves applied)
  | reconcileCompleted result =>
    simp only [Operation.apply, bind_eq_ok, Prod.exists, return_eq_ok] at applied
    obtain ⟨_, _, reconciled, rfl⟩ := applied
    exact existing (reconcileCompleted_moves reconciled)
  | clearLeaseForRestore => exact existing (clearLeaseForRestore_moves applied)

theorem step_cases (current : Option STHAnchorSchedule) (op : Operation) :
    step library current op = current ∨ ∃ next, step library current op = some next ∧ Moves current next := by
  unfold step
  cases applied : op.apply library current with
  | error err => exact .inl rfl
  | ok next => exact .inr ⟨next, rfl, apply_moves applied⟩

section

variable (ops : List Operation)
include ops

theorem after_succ (count : Nat) : after library ops (count + 1) =
    match ops[count]? with
    | some op => step library (after library ops count) op
    | none => after library ops count := by
  unfold after
  rw [List.take_add_one, List.foldl_append]
  cases ops[count]? with
  | none => rfl
  | some op => rfl

theorem after_succ_cases (count : Nat) : after library ops (count + 1) = after library ops count ∨
      ∃ next, after library ops (count + 1) = some next ∧ Moves (after library ops count) next := by
  rw [after_succ]
  cases ops[count]? with
  | none => exact .inl rfl
  | some op => exact step_cases _ op

theorem after_ordered (count : Nat) :
    ∀ schedule, after library ops count = some schedule → Ordered schedule := by
  induction count with
  | zero =>
    intro schedule found
    cases found
  | succ count ih =>
    intro schedule found
    rcases after_succ_cases ops count with same | ⟨next, moved, moves⟩
    · exact ih schedule (same ▸ found)
    · cases moved.symm.trans found
      exact Ordered.moves moves ih

theorem after_precedes {first old} (was : after library ops first = some old) (more : Nat) :
    ∃ now, after library ops (first + more) = some now ∧ Precedes old now := by
  induction more with
  | zero => exact ⟨old, was, .refl (after_ordered ops first old was)⟩
  | succ more ih =>
    obtain ⟨now, found, precedes⟩ := ih
    rcases after_succ_cases ops (first + more) with same | ⟨next, moved, moves⟩
    · exact ⟨now, same.trans found, precedes⟩
    · rw [found] at moves
      exact ⟨next, moved, precedes.moves moves⟩

theorem precedes_of_le {first second old now} (inOrder : first ≤ second)
    (was : after library ops first = some old) (found : after library ops second = some now) :
    Precedes old now := by
  obtain ⟨other, same, precedes⟩ := after_precedes ops was (second - first)
  rw [Nat.add_sub_cancel' inOrder] at same
  cases same.symm.trans found
  exact precedes

end

end

/-- Over every list of operations: attempts of one generation have one target, an attempt that was
not in flight before has a larger generation than all that ever were, and a pending window keeps
its first-observed time and its due time for as long as it is open, while its target only moves
to larger trees; a merge never closes it. -/
theorem generations_and_windows_are_stable (library : Library) (ops : List Operation) :
    (∀ (i j : Nat) (first second : STHAnchorSchedule) (earlier later : STHAnchorAttempt),
      after library ops i = some first → after library ops j = some second →
      first.inFlight = some earlier → second.inFlight = some later →
      earlier.generation = later.generation → earlier.target = later.target) ∧
    (∀ (i j : Nat) (first second : STHAnchorSchedule) (earlier fresh : STHAnchorAttempt), i ≤ j →
      after library ops i = some first → first.inFlight = some earlier →
      after library ops (j + 1) = some second → second.inFlight = some fresh →
      (∀ before attempt, after library ops j = some before → before.inFlight = some attempt →
        attempt.generation ≠ fresh.generation) →
      earlier.generation < fresh.generation) ∧
    (∀ (i j : Nat) (first second : STHAnchorSchedule) (window later : STHAnchorWindow), i ≤ j →
      after library ops i = some first → after library ops j = some second →
      first.pending = some window → second.pending = some later → window.generation = later.generation →
      window.openedAtUnixN = later.openedAtUnixN ∧ window.dueAtUnixN = later.dueAtUnixN ∧
        (later.target = window.target ∨ window.target.treeSize < later.target.treeSize)) ∧
    (∀ (i : Nat) (candidate : STHAnchorCandidate) (latest : Option STHAnchorResult) (first : STHAnchorSchedule)
      (window : STHAnchorWindow), ops[i]? = some (.mergeCandidate candidate latest) →
      after library ops i = some first → first.pending = some window →
      ∃ second later, after library ops (i + 1) = some second ∧ second.pending = some later ∧
        later.generation = window.generation ∧ later.openedAtUnixN = window.openedAtUnixN ∧
        later.dueAtUnixN = window.dueAtUnixN) := by
  refine ⟨?_, ?_, ?_, ?_⟩
  · intro i j first second earlier later was found inFlight flying same
    rcases Nat.le_total i j with inOrder | inOrder
    · rcases (precedes_of_le ops inOrder was found).flight earlier later inFlight flying with older | ⟨_, target⟩
      · omega
      · exact target
    · rcases (precedes_of_le ops inOrder found was).flight later earlier flying inFlight with older | ⟨_, target⟩
      · omega
      · exact target.symm
  · intro i j first second earlier fresh inOrder was inFlight found flying promoted
    obtain ⟨before, between, precedes⟩ := after_precedes ops was (j - i)
    rw [Nat.add_sub_cancel' inOrder] at between
    rcases after_succ_cases ops j with same | ⟨next, moved, moves⟩
    · exact absurd rfl (promoted second fresh (same.symm.trans found) flying)
    · obtain rfl : next = second := Option.some.inj (moved.symm.trans found)
      rw [between] at moves
      rcases moves.inFlight flying with ⟨attempt, was, equal⟩ | ⟨pending, open_, equal⟩
      · exact absurd equal (promoted before attempt between was)
      · rw [← equal]
        exact precedes.flightPending earlier pending inFlight open_
  · intro i j first second window later inOrder was found open_ opened same
    rcases (precedes_of_le ops inOrder was found).window window later open_ opened with older | ⟨_, rest⟩
    · omega
    · exact rest
  · intro i candidate latest first window op was open_
    have stepped := @after_succ library ops i
    rw [op, was] at stepped
    simp only [step] at stepped
    cases applied : (Operation.mergeCandidate candidate latest).apply library (some first) with
    | error err =>
      rw [applied] at stepped
      exact ⟨first, window, stepped, open_, rfl, rfl, rfl⟩
    | ok next =>
      rw [applied] at stepped
      simp only [Operation.apply, bind_eq_ok, Prod.exists, pure_eq_ok, Except.ok.injEq] at applied
      obtain ⟨_, _, merged, rfl⟩ := applied
      obtain ⟨_, outcome⟩ := mergeCandidate_eq_ok merged
      rcases outcome with ⟨same, _⟩ | ⟨same, _⟩ | ⟨absent, _⟩ | ⟨rfl, _⟩
      · exact ⟨first, window, stepped.trans same.symm, open_, rfl, rfl, rfl⟩
      · exact ⟨first, window, stepped.trans same.symm, open_, rfl, rfl, rfl⟩
      · cases absent
      · refine ⟨_, _, stepped, congrArg STHAnchorSchedule.pending (openWindow_some open_), rfl, rfl, rfl⟩

end TrustDB.AnchorSchedule
