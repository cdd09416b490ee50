import TrustDB.AnchorSchedule.History
import TrustDB.AnchorSchedule.Validity
import TrustDB.ProofStore.AnchorEffects

/-!
Leases as fences. A worker that has lost its attempt to a later claim can no longer change the
schedule: its token is never in the lease again, and generations only grow. Only a completion for a
result that the store has already needs no lease.
-/

namespace TrustDB.ProofStore

open Result List Option CryptoSuite Model AnchorSchedule Pebble

def Pebble.AnchorCall.claimToken (key : STHAnchorScheduleKey) : AnchorCall → Option String
  | .claim other _ _ _ leaseToken => if other = key then some leaseToken else none
  | _ => none

def Fresh (key : STHAnchorScheduleKey) (steps : List AnchorStep) : Prop :=
  (steps.filterMap fun step => step.1.claimToken key).Nodup

def Hands (library : Library) (suite : ID) (key : STHAnchorScheduleKey) (tables : AnchorTables) (step : AnchorStep)
    (attempt : STHAnchorAttempt) : Prop :=
  (step.1.claimToken key).isSome = true ∧ (step.1.run library suite step.2 tables).1 = .ok (some attempt)

def Known (library : Library) (tables : AnchorTables) (call : AnchorCall) : Prop :=
  ∃ key generation leaseToken result existing, call = .complete key generation leaseToken result ∧
    tables.results.lookup (resultKey result) = some existing ∧ sameStoredResult library existing result = true

section

variable {library : Library} {suite : ID} {tables next : AnchorTables} {key : STHAnchorScheduleKey}
  {call : AnchorCall} {handed : Option STHAnchorAttempt} {generation : Nat} {leaseToken token : String}
  {old current made : STHAnchorSchedule} {step : AnchorStep} {steps : List AnchorStep} {faults : AnchorFaults}

def Leased (key : STHAnchorScheduleKey) (generation : Nat) (leaseToken : String) (tables : AnchorTables) : Prop :=
  ∃ current attempt, tables.schedules.lookup key = some current ∧ current.inFlight = some attempt ∧
    attempt.generation = generation ∧ attempt.leaseToken = leaseToken

theorem Leased.fenced {attempt} (found : tables.schedules.lookup key = some current)
    (owned : AnchorSchedule.fenced current generation leaseToken = .ok attempt) :
    Leased key generation leaseToken tables := by
  obtain ⟨_, inFlight, _, same, _, token⟩ := fenced_eq_ok.mp owned
  exact ⟨current, attempt, found, inFlight, same, token⟩

theorem Change.needs_lease (change : Change library tables next call handed)
    (carries : call.credentials = some (key, generation, leaseToken)) :
    next.schedules.lookup key = tables.schedules.lookup key ∨ Known library tables call ∨
      Leased key generation leaseToken tables := by
  cases change with
  | idle _ frame => exact .inl (congrArg _ frame.schedules)
  | revise carried _ found _ revises _ =>
    cases carried.symm.trans carries
    obtain ⟨attempt, _, owned, _⟩ := revises
    exact .inr (.inr (.fenced found owned))
  | complete found _ _ done _ _ =>
    cases carries
    obtain ⟨attempt, owned, _⟩ := complete_eq_ok done
    exact .inr (.inr (.fenced found owned))
  | known _ _ found same _ _ _ _ => exact .inr (.inl ⟨_, _, _, _, _, rfl, found, same⟩)
  | put => cases carries
  | update => cases carries
  | upsert => cases carries
  | claim => cases carries
  | restore => cases carries

theorem AnchorCall.run_needs_lease (carries : call.credentials = some (key, generation, leaseToken)) :
    (call.run library suite faults tables).2.schedules.lookup key = tables.schedules.lookup key ∨
      Known library tables call ∨ Leased key generation leaseToken tables := by
  rcases AnchorCall.run_cases call with ⟨_, change⟩ | frame
  · exact Change.needs_lease change carries
  · exact .inl (congrArg _ frame.schedules)

def Follows (key : STHAnchorScheduleKey) (old : STHAnchorSchedule) (tables : AnchorTables) : Prop :=
  ∃ schedule, tables.schedules.lookup key = some schedule ∧ Precedes old schedule

def Lost (key : STHAnchorScheduleKey) (token : String) (tables : AnchorTables) : Prop :=
  ∀ schedule attempt, tables.schedules.lookup key = some schedule → schedule.inFlight = some attempt →
    attempt.leaseToken ≠ token

theorem Reconciled.precedes {settled} (precedes : Precedes old current)
    (reconciled : Reconciled library tables current settled) : Precedes old settled := by
  induction reconciled with
  | unchanged => exact precedes
  | settled _ _ valid settles ih => exact ih.moves (settles.moves valid)

theorem Settles.still_inFlight {result} (settles : Settles current result made) {attempt}
    (found : made.inFlight = some attempt) : current.inFlight = some attempt := by
  rcases settles.inFlight with ⟨kept, _⟩ | ⟨gone, _⟩
  · exact kept.symm.trans found
  · rw [gone] at found
    cases found

/-- What becomes of a schedule that was there, and where the lease of the new one comes from. -/
structure Succeeds (call : AnchorCall) (key : STHAnchorScheduleKey) (current : Option STHAnchorSchedule)
    (made : STHAnchorSchedule) : Prop where
  moves : ∀ old known, current = some known → Precedes old known → Precedes old made
  leases : ∀ attempt, made.inFlight = some attempt →
    (∃ known before, current = some known ∧ known.inFlight = some before ∧
      before.leaseToken = attempt.leaseToken) ∨
    attempt.leaseToken = "" ∨ call.claimToken key = some attempt.leaseToken

theorem Applies.succeeds {result roots} (applies : Applies (some made) result roots tables next)
    (key : STHAnchorScheduleKey) (succeeds : Succeeds call made.key (tables.schedules.lookup made.key) made) :
    next.schedules.lookup key = tables.schedules.lookup key ∨ ∃ made, next.schedules.lookup key = some made ∧
      Succeeds call key (tables.schedules.lookup key) made := by
  rcases Applies.schedule_cases applies key with unchanged | ⟨other, same, rfl, written⟩
  · exact .inl unchanged
  · cases same
    exact .inr ⟨made, written, succeeds⟩

theorem Succeeds.of_found (found : tables.schedules.lookup current.key = some current)
    (sameKey : made.key = current.key) (moves : ∀ old, Precedes old current → Precedes old made)
    (leases : ∀ attempt, made.inFlight = some attempt →
      (∃ before, current.inFlight = some before ∧ before.leaseToken = attempt.leaseToken) ∨
      attempt.leaseToken = "" ∨ call.claimToken current.key = some attempt.leaseToken) :
    Succeeds call made.key (tables.schedules.lookup made.key) made := by
  rw [sameKey, found]
  refine ⟨fun old known present => some.inj present ▸ moves old, fun attempt inFlight => ?_⟩
  exact (leases attempt inFlight).imp_left fun ⟨before, was, token⟩ => ⟨current, before, rfl, was, token⟩

section

variable (change : Change library tables next call handed)
  (live : ∀ schedule replace, call ≠ .restore schedule replace)
include change live

theorem Change.moves (key : STHAnchorScheduleKey) :
    next.schedules.lookup key = tables.schedules.lookup key ∨ ∃ made, next.schedules.lookup key = some made ∧
      Succeeds call key (tables.schedules.lookup key) made := by
  cases change with
  | idle _ frame => exact .inl (congrArg _ frame.schedules)
  | put _ _ _ applies => exact .inl (congrArg _ applies.schedules)
  | update _ _ _ _ applies => exact .inl (congrArg _ applies.schedules)
  | upsert merged _ _ _ applies =>
    split at applies
    · refine Applies.succeeds applies key ?_
      rw [mergeCandidate_key merged]
      refine ⟨fun old known present earlier => ?_, fun attempt inFlight => ?_⟩
      · have moves := mergeCandidate_moves merged
        rw [present] at moves
        exact earlier.moves moves
      · obtain ⟨current, found, was⟩ := mergeCandidate_inFlight merged inFlight
        exact .inl ⟨current, attempt, found, was, rfl⟩
    · exact .inl (congrArg _ applies.schedules)
  | claim found keyed reconciled claimed applies =>
    obtain ⟨_, _, _, _, _, outcome⟩ := claim_eq_ok claimed
    subst keyed
    refine Applies.succeeds applies key (.of_found found ((claim_retains claimed).2.trans reconciled.key)
      (fun old earlier => (Reconciled.precedes earlier reconciled).moves (claim_moves claimed))
      fun attempt inFlight => ?_)
    rcases outcome with ⟨rfl, _⟩ | ⟨before, was, _, _, _, _, rfl⟩ | ⟨pending, _, _, _, _, rfl⟩
    · exact .inl ⟨attempt, reconciled.parts.1 attempt inFlight, rfl⟩
    · cases inFlight
      exact .inr (.inr (if_pos rfl))
    · cases inFlight
      exact .inr (.inr (if_pos rfl))
  | revise _ _ found keyed revises applies =>
    subst keyed
    refine Applies.succeeds applies key (.of_found found revises.retains.2
      (fun old earlier => earlier.moves revises.moves) fun attempt inFlight => ?_)
    obtain ⟨before, changed, owned, rfl, _, _, token | token⟩ := revises
    · cases inFlight
      exact .inl ⟨before, (fenced_eq_ok.mp owned).2.1, token.symm⟩
    · cases inFlight
      exact .inr (.inl token)
  | known found keyed _ _ _ valid settles applies =>
    subst keyed
    exact Applies.succeeds applies key (.of_found found settles.key
      (fun old earlier => earlier.moves (settles.moves valid))
      fun attempt inFlight => .inl ⟨attempt, Settles.still_inFlight settles inFlight, rfl⟩)
  | complete found keyed _ done _ applies =>
    subst keyed
    obtain ⟨_, owned, _, _, settles⟩ := complete_eq_ok done
    exact Applies.succeeds applies key (.of_found found settles.key
      (fun old earlier => earlier.moves (complete_moves done))
      fun attempt inFlight => .inl ⟨attempt, Settles.still_inFlight settles inFlight, rfl⟩)
  | restore => exact absurd rfl (live _ _)

theorem Change.keeps_follows (follows : Follows key old tables) : Follows key old next := by
  obtain ⟨current, found, precedes⟩ := follows
  rcases Change.moves change live key with same | ⟨made, written, succeeds⟩
  · exact ⟨current, same.trans found, precedes⟩
  · exact ⟨made, written, succeeds.moves old current found precedes⟩

theorem Change.keeps_lost (filled : token ≠ "") (other : call.claimToken key ≠ some token)
    (lost : Lost key token tables) : Lost key token next := by
  intro schedule attempt found inFlight
  rcases Change.moves change live key with same | ⟨made, written, succeeds⟩
  · exact lost schedule attempt (same.symm.trans found) inFlight
  · cases written.symm.trans found
    rcases succeeds.leases attempt inFlight with ⟨current, before, known, was, token⟩ | empty | claimed
    · exact token ▸ lost current before known was
    · rw [empty]
      exact filled.symm
    · rintro rfl
      exact other claimed

end

theorem hands_inFlight {attempt} (hands : Hands library suite key tables step attempt) :
    step.1.claimToken key = some attempt.leaseToken ∧ attempt.leaseToken ≠ "" ∧
      ∃ made, (step.1.run library suite step.2 tables).2.schedules.lookup key = some made ∧
        made.inFlight = some attempt ∧ Ordered made := by
  obtain ⟨claims, ran⟩ := hands
  have change := (Ensures.of_ok (AnchorCall.run_ensures step.1) ran).1
  generalize (step.1.run library suite step.2 tables).2 = next at change
  obtain ⟨call, faults⟩ := step
  cases change with
  | claim found keyed reconciled claimed applies =>
    rename_i other nowUnixN leaseUntilUnixN leaseOwner leaseToken current settled made
    have same : other = key := by
      by_contra apart
      simp [AnchorCall.claimToken, apart] at claims
    subst same
    obtain ⟨valid, _, _, _, filled, outcome⟩ := claim_eq_ok claimed
    have written := applies.found
    rw [(claim_retains claimed).2, reconciled.key, keyed] at written
    have ordered : Ordered made := Ordered.moves (claim_moves claimed) fun schedule same =>
      some.inj same ▸ fun attempt pending inFlight open_ => (valid.follows pending attempt open_ inFlight).1
    rcases outcome with ⟨_, nothing⟩ | ⟨before, _, _, _, _, handed, rfl⟩ | ⟨pending, _, _, _, handed, rfl⟩
    · cases nothing
    · cases handed
      exact ⟨if_pos rfl, filled, _, written, rfl, ordered⟩
    · cases handed
      exact ⟨if_pos rfl, filled, _, written, rfl, ordered⟩

section

variable (live : ∀ step ∈ steps, ∀ schedule replace, step.1 ≠ .restore schedule replace)
include live

theorem after_keeps_follows (follows : Follows key old tables) :
    Follows key old (tables.after library suite steps) := by
  refine foldlRecOn steps _ follows fun tables follows step member => ?_
  rcases AnchorCall.run_cases step.1 with ⟨_, change⟩ | frame
  · exact Change.keeps_follows change (live step member) follows
  · obtain ⟨current, found, precedes⟩ := follows
    exact ⟨current, (congrArg _ frame.schedules).trans found, precedes⟩

theorem after_keeps_lost (filled : token ≠ "") (others : ∀ step ∈ steps, step.1.claimToken key ≠ some token)
    (lost : Lost key token tables) : Lost key token (tables.after library suite steps) := by
  refine foldlRecOn steps _ lost fun tables lost step member => ?_
  rcases AnchorCall.run_cases step.1 with ⟨_, change⟩ | frame
  · exact Change.keeps_lost change (live step member) filled (others step member) lost
  · intro schedule attempt found inFlight
    exact lost schedule attempt ((congrArg _ frame.schedules).symm.trans found) inFlight

end

theorem Fresh.others {before rest} (fresh : Fresh key (before ++ step :: rest))
    (claims : step.1.claimToken key = some token) : ∀ other ∈ rest, other.1.claimToken key ≠ some token := by
  intro other member same
  have cut : (step :: rest).filterMap (fun step => step.1.claimToken key) =
      token :: rest.filterMap fun step => step.1.claimToken key := filterMap_cons_some claims
  rw [Fresh, filterMap_append, cut] at fresh
  have alone := (nodup_cons.mp (nodup_append.mp fresh).2.1).1
  exact alone (mem_filterMap.mpr ⟨other, member, same⟩)

theorem after_append (first second : List AnchorStep) :
    tables.after library suite (first ++ second) = (tables.after library suite first).after library suite second :=
  foldl_append

theorem stale_unchanged {before between rest earlier later lostAttempt newAttempt}
    (live : ∀ step ∈ before ++ earlier :: (between ++ later :: rest), ∀ schedule replace,
      step.1 ≠ .restore schedule replace) (fresh : Fresh key (before ++ earlier :: (between ++ later :: rest)))
    (first : Hands library suite key (tables.after library suite before) earlier lostAttempt)
    (second : Hands library suite key (tables.after library suite (before ++ earlier :: between)) later newAttempt)
    (carries : call.credentials = some (key, generation, leaseToken))
    (stale : leaseToken = lostAttempt.leaseToken ∨
      (generation = lostAttempt.generation ∧ generation ≠ newAttempt.generation)) :
    let now := tables.after library suite (before ++ earlier :: (between ++ later :: rest))
    (call.run library suite faults now).2.schedules.lookup key = now.schedules.lookup key ∨
      Known library now call := by
  intro now
  obtain ⟨claimed, filled, old, oldFound, oldFlight, oldOrdered⟩ := hands_inFlight first
  obtain ⟨claimedLater, _, new, newFound, newFlight, newOrdered⟩ := hands_inFlight second
  have liveBetween : ∀ step ∈ between, ∀ schedule replace, step.1 ≠ .restore schedule replace :=
    fun step member => live step (by simp [member])
  have liveRest : ∀ step ∈ rest, ∀ schedule replace, step.1 ≠ .restore schedule replace :=
    fun step member => live step (by simp [member])
  have liveLater : ∀ schedule replace, later.1 ≠ .restore schedule replace := live later (by simp)
  have others := fresh.others claimed
  -- From the earlier claim to the later one.
  have sinceEarlier : Follows key old
      ((tables.after library suite (before ++ earlier :: between)).after library suite [later]) := by
    refine after_keeps_follows (by simpa using liveLater) ?_
    rw [after_append]
    change Follows key old (AnchorTables.after library suite _ between)
    exact after_keeps_follows liveBetween ⟨old, oldFound, .refl oldOrdered⟩
  obtain ⟨made, madeFound, precedes⟩ := sinceEarlier
  cases newFound.symm.trans madeFound
  have generations := precedes.flight lostAttempt newAttempt oldFlight newFlight
  -- And from there on.
  have atNow : now = ((tables.after library suite (before ++ earlier :: between)).after library suite [later]).after
      library suite rest := by
    rw [← after_append, ← after_append]
    simp [now]
  have sinceLater : Follows key new now := by
    rw [atNow]
    exact after_keeps_follows liveRest ⟨new, madeFound, .refl newOrdered⟩
  have lost : Lost key lostAttempt.leaseToken now := by
    rw [atNow]
    refine after_keeps_lost liveRest filled (fun step member => others step (by simp [member])) ?_
    intro schedule attempt found inFlight
    cases madeFound.symm.trans found
    cases newFlight.symm.trans inFlight
    intro same
    exact others later (by simp) (same ▸ claimedLater)
  rcases AnchorCall.run_needs_lease carries with same | known | ⟨current, attempt, found, inFlight, sameGeneration,
    sameToken⟩
  · exact .inl same
  · exact .inr known
  · obtain ⟨other, foundOther, precedesLater⟩ := sinceLater
    obtain rfl := some.inj (foundOther.symm.trans found)
    rcases stale with sameLost | ⟨sameLost, apart⟩
    · exact absurd (sameToken.trans sameLost) (lost other attempt found inFlight)
    · have later := precedesLater.flight newAttempt attempt newFlight inFlight
      omega

theorem accepted_token
    (carries : call.credentials = some (key, generation, leaseToken)) (unknown : ¬Known library tables call)
    (changed : (call.run library suite faults tables).2.schedules.lookup key ≠ tables.schedules.lookup key) :
    Leased key generation leaseToken tables :=
  ((AnchorCall.run_needs_lease carries).resolve_left changed).resolve_left unknown

def Ahead (key : STHAnchorScheduleKey) (tables : AnchorTables) : Prop :=
  ∀ schedule target result, tables.schedules.lookup key = some schedule → target ∈ scheduleTargets schedule →
    Holds tables (some key) result → result.treeSize < target.treeSize

theorem Ahead.applies {schedule result roots} (ahead : Ahead key tables)
    (applies : Applies schedule result roots tables next)
    (targets : ∀ made, schedule = some made → made.key = key → ∀ target ∈ scheduleTargets made,
      ∃ current, tables.schedules.lookup key = some current ∧ target ∈ scheduleTargets current)
    (added : ∀ new, result = some new → streamOf new = key → ∀ schedule target,
      next.schedules.lookup key = some schedule → target ∈ scheduleTargets schedule →
      new.treeSize < target.treeSize) : Ahead key next := by
  intro scheduled target stored found member held
  have held' : result = some stored ∨ Holds tables (some key) stored := by
    rcases applies.result_cases (resultKey stored) with same | ⟨added, isNew, _, written⟩
    · exact .inr ⟨same.symm.trans held.1, held.2⟩
    · exact .inl (isNew.trans (written.symm.trans held.1))
  rcases held' with new | before
  · exact added stored new (held.2 key rfl) scheduled target found member
  · rcases Applies.schedule_cases applies key with same | ⟨made, known, keyed, written⟩
    · exact ahead scheduled target stored (same.symm.trans found) member before
    · obtain rfl := some.inj (written.symm.trans found)
      obtain ⟨current, present, member⟩ := targets made known keyed target member
      exact ahead current target stored present member before

theorem Ahead.retaining (ahead : Ahead key tables) (found : tables.schedules.lookup current.key = some current)
    (retains : Retains current made) (applies : Applies (some made) none [] tables next) : Ahead key next := by
  refine ahead.applies applies (fun new same keyed target member => ?_) (by simp)
  cases same
  rw [retains.2] at keyed
  subst keyed
  exact ⟨current, found, retains.1 ▸ member⟩

theorem complete_beyond {result}
    (done : AnchorSchedule.complete library current generation leaseToken result = .ok made) {target}
    (member : target ∈ scheduleTargets made) : result.treeSize < target.treeSize := by
  obtain ⟨attempt, owned, _, matched, settles⟩ := complete_eq_ok done
  have inFlight := (fenced_eq_ok.mp owned).2.1
  have size := (resultMatchesTarget_eq_true.mp matched).1
  rcases mem_scheduleTargets.mp member with ⟨other, found, rfl⟩ | ⟨pending, open_, rfl⟩
  · rcases settles.inFlight with ⟨_, apart⟩ | ⟨gone, _⟩
    · exact absurd size.symm (apart attempt inFlight)
    · rw [gone] at found
      cases found
  · rcases settles.pending with ⟨kept, beyond⟩ | ⟨gone, _⟩
    · exact beyond pending (kept.symm.trans open_)
    · rw [gone] at open_
      cases open_

theorem Change.keeps_ahead (change : Change library tables next call handed)
    (live : ∀ schedule replace, call ≠ .restore schedule replace) (noPut : ∀ result, call ≠ .put result)
    (references : References tables) (ahead : Ahead key tables) : Ahead key next := by
  cases change with
  | idle _ frame => exact ahead.applies frame.applies (by simp) (by simp)
  | put => exact absurd rfl (noPut _)
  | @update expected result roots found _ unchanged _ applies =>
    refine ahead.applies applies (by simp) fun new same stream schedule target present member => ?_
    cases same
    rw [applies.schedules] at present
    rw [← unchanged] at found stream ⊢
    exact ahead schedule target expected present member
      ⟨found, fun key known => stream.trans (some.inj known)⟩
  | upsert merged _ newest _ applies =>
    intro schedule target stored found member held
    rw [holds_of_same applies.results] at held
    rcases Applies.schedule_cases applies key with same | ⟨made, known, keyed, written⟩
    · exact ahead schedule target stored (same.symm.trans found) member held
    · split at known
      · cases known
        cases written.symm.trans found
        rw [mergeCandidate_key merged] at keyed
        subst keyed
        obtain ⟨_, outcome⟩ := mergeCandidate_eq_ok merged
        rcases outcome with ⟨same, _⟩ | ⟨same, _⟩ | ⟨_, _, rfl, _⟩ | ⟨rfl, _, _, beyond⟩
        · exact ahead _ target stored same member held
        · exact ahead _ target stored same member held
        · simp [scheduleTargets, createdFor] at member
        · rcases mem_openWindow.mp member with ⟨attempt, inFlight, rfl⟩ | rfl
          · obtain ⟨current, present, was⟩ := mergeCandidate_inFlight merged (openWindow_inFlight.trans inFlight)
            exact ahead current _ stored present (mem_scheduleTargets.mpr (.inl ⟨attempt, was, rfl⟩)) held
          · obtain ⟨last, rfl, within⟩ := newest references stored held
            exact Nat.lt_of_le_of_lt within (beyond last rfl)
      · cases known
  | claim found keyed reconciled claimed applies =>
    refine ahead.applies applies (fun made same sameKey target member => ?_) (by simp)
    cases same
    obtain ⟨targets, key⟩ := claim_retains claimed
    rw [key, reconciled.key, keyed] at sameKey
    subst sameKey
    rw [targets] at member
    exact ⟨_, found, reconciled.targets member⟩
  | revise _ _ found keyed revises applies => exact ahead.retaining (keyed ▸ found) revises.retains applies
  | known found keyed _ _ _ _ settles applies =>
    refine ahead.applies applies (fun made same sameKey target member => ?_) (by simp)
    cases same
    rw [settles.key, keyed] at sameKey
    subst sameKey
    exact ⟨_, found, settles.targets member⟩
  | complete found keyed _ done _ applies =>
    obtain ⟨_, _, valid, _, settles⟩ := complete_eq_ok done
    refine ahead.applies applies (fun made same sameKey target member => ?_)
      fun new same stream schedule target present member => ?_
    · cases same
      rw [settles.key, keyed] at sameKey
      subst sameKey
      exact ⟨_, found, settles.targets member⟩
    · cases same
      have written := applies.found
      rw [settles.key, ← (validateResult_binds valid).1, stream] at written
      cases written.symm.trans present
      exact complete_beyond done member
  | restore => exact absurd rfl (live _ _)

theorem after_keeps_ahead (live : ∀ step ∈ steps, ∀ schedule replace, step.1 ≠ .restore schedule replace)
    (noPut : ∀ step ∈ steps, ∀ result, step.1 ≠ .put result) (references : References tables)
    (ahead : Ahead key tables) : Ahead key (tables.after library suite steps) := by
  refine And.right (foldlRecOn steps (motive := fun tables => References tables ∧ Ahead key tables) _
    ⟨references, ahead⟩ ?_)
  rintro tables ⟨references, ahead⟩ step member
  refine ⟨AnchorCall.run_references references step.1, ?_⟩
  rcases AnchorCall.run_cases step.1 with ⟨_, change⟩ | frame
  · exact Change.keeps_ahead change (live step member) (noPut step member) references ahead
  · exact ahead.applies frame.applies (by simp) (by simp)

theorem known_unchanged (carries : call.credentials = some (key, generation, leaseToken))
    (known : Known library tables call) (ahead : Ahead key tables) :
    (call.run library suite faults tables).2.schedules.lookup key = tables.schedules.lookup key := by
  obtain ⟨other, _, _, result, existing, rfl, found, _⟩ := known
  cases carries
  rcases AnchorCall.run_cases (.complete key generation leaseToken result) with ⟨_, change⟩ | frame
  swap
  · exact congrArg _ frame.schedules
  cases change with
  | idle _ frame => exact congrArg _ frame.schedules
  | revise carried other =>
    cases carried
    exact absurd rfl (other result)
  | complete _ _ absent _ _ _ =>
    rw [absent] at found
    cases found
  | known present keyed _ _ stored _ settles applies =>
    have smaller := fun target member => ahead _ target _ present member ⟨stored.found, stored.stream⟩
    have same := settles.moved ?_ ?_
    · have written := applies.found
      rw [settles.key, keyed, same] at written
      exact written.trans present.symm
    · rcases settles.inFlight with ⟨kept, _⟩ | ⟨_, attempt, inFlight, matched⟩
      · exact kept
      · have size := (resultMatchesTarget_eq_true.mp matched).1
        have beyond := smaller attempt.target (mem_scheduleTargets.mpr (.inl ⟨attempt, inFlight, rfl⟩))
        omega
    · rcases settles.pending with ⟨kept, _⟩ | ⟨_, pending, open_, within⟩
      · exact kept
      · have beyond := smaller pending.target (mem_scheduleTargets.mpr (.inr ⟨pending, open_, rfl⟩))
        omega

end

/-- Claims, checkpoints, reschedules, failures and completions in any order and with any failures,
the claims on a schedule with tokens of their own. Once a later claim has handed out an attempt, a
call with the earlier worker's token, or with its generation where the later attempt has another,
leaves the schedule as it is, unless it completes with a result that is stored already. At any
moment only one token and generation can change the schedule otherwise. And where results come in
through completions alone, one that is stored already changes nothing. -/
theorem stale_workers_are_fenced (library : Library) (suite : ID) (key : STHAnchorScheduleKey) :
    (∀ (tables : AnchorTables) (before between rest : List AnchorStep) (earlier later : AnchorStep)
      (lostAttempt newAttempt : STHAnchorAttempt) (call : AnchorCall) (faults : AnchorFaults) (generation : Nat)
      (leaseToken : String),
      (∀ step ∈ before ++ earlier :: (between ++ later :: rest), ∀ schedule replace,
        step.1 ≠ .restore schedule replace) →
      Fresh key (before ++ earlier :: (between ++ later :: rest)) →
      Hands library suite key (tables.after library suite before) earlier lostAttempt →
      Hands library suite key (tables.after library suite (before ++ earlier :: between)) later newAttempt →
      call.credentials = some (key, generation, leaseToken) →
      (leaseToken = lostAttempt.leaseToken ∨
        (generation = lostAttempt.generation ∧ generation ≠ newAttempt.generation)) →
      let now := tables.after library suite (before ++ earlier :: (between ++ later :: rest))
      (call.run library suite faults now).2.schedules.lookup key = now.schedules.lookup key ∨
        Known library now call) ∧
    (∀ (tables : AnchorTables) (one two : AnchorCall) (oneFaults twoFaults : AnchorFaults)
      (oneGeneration twoGeneration : Nat) (oneToken twoToken : String),
      one.credentials = some (key, oneGeneration, oneToken) → two.credentials = some (key, twoGeneration, twoToken) →
      ¬Known library tables one → ¬Known library tables two →
      (one.run library suite oneFaults tables).2.schedules.lookup key ≠ tables.schedules.lookup key →
      (two.run library suite twoFaults tables).2.schedules.lookup key ≠ tables.schedules.lookup key →
      oneToken = twoToken ∧ oneGeneration = twoGeneration) ∧
    ∀ (steps : List AnchorStep) (call : AnchorCall) (faults : AnchorFaults) (generation : Nat) (leaseToken : String),
      (∀ step ∈ steps, ∀ schedule replace, step.1 ≠ .restore schedule replace) →
      (∀ step ∈ steps, ∀ result, step.1 ≠ .put result) →
      call.credentials = some (key, generation, leaseToken) →
      Known library (AnchorTables.empty.after library suite steps) call →
      (call.run library suite faults (AnchorTables.empty.after library suite steps)).2.schedules.lookup key =
        (AnchorTables.empty.after library suite steps).schedules.lookup key := by
  refine ⟨?_, ?_, ?_⟩
  · intro tables before between rest earlier later lostAttempt newAttempt call faults generation leaseToken live fresh
      first second carries stale
    exact stale_unchanged live fresh first second carries stale
  · intro tables one two oneFaults twoFaults oneGeneration twoGeneration oneToken twoToken oneCarries twoCarries
      oneUnknown twoUnknown oneChanged twoChanged
    obtain ⟨current, attempt, found, inFlight, rfl, rfl⟩ := accepted_token oneCarries oneUnknown oneChanged
    obtain ⟨other, same, known, flying, rfl, rfl⟩ := accepted_token twoCarries twoUnknown twoChanged
    obtain rfl := Option.some.inj (found.symm.trans known)
    obtain rfl := Option.some.inj (inFlight.symm.trans flying)
    exact ⟨rfl, rfl⟩
  · intro steps call faults generation leaseToken live noPut carries known
    exact known_unchanged carries known
      (after_keeps_ahead live noPut references_empty fun _ _ _ found => (nomatch found))

namespace Takeover

open Sample

def upserted : AnchorTables := AnchorTables.empty.after Sample.library intlV1
  [(.upsert { key := Sample.key, sth := Sample.head 5, observedAtUnixN := 1, dueAtUnixN := 2 }, fun _ => none)]

def first : AnchorStep := (.claim Sample.key 3 10 "worker" "token", fun _ => none)

def second : AnchorStep := (.claim Sample.key 10 20 "other" "next", fun _ => none)

def claimed : AnchorTables := upserted.after Sample.library intlV1 [first, second]

def checkpoint : AnchorCall := .compareAndSwap Sample.key 1 "next" 11 [] [1]

/-- The attempt that a claim hands out. -/
def handed (step : AnchorStep) (tables : AnchorTables) : STHAnchorAttempt :=
  (step.1.run Sample.library intlV1 step.2 tables).1.toOption.join.getD Sample.attempt

theorem first_hands : Hands Sample.library intlV1 Sample.key upserted first (handed first upserted) :=
  ⟨by decide, toOption_eq_some.mp (by decide +kernel)⟩

theorem second_hands : Hands Sample.library intlV1 Sample.key (upserted.after Sample.library intlV1 [first]) second
    (handed second (upserted.after Sample.library intlV1 [first])) :=
  ⟨by decide, toOption_eq_some.mp (by decide +kernel)⟩

end Takeover

/-- The first worker's checkpoint after the second has taken over. -/
theorem stale_workers_are_fenced_sample :
    ((AnchorCall.compareAndSwap Sample.key 1 "token" 5 [] [1]).run Sample.library intlV1 (fun _ => none)
      Takeover.claimed).2.schedules.lookup Sample.key = Takeover.claimed.schedules.lookup Sample.key := by
  refine ((stale_workers_are_fenced Sample.library intlV1 Sample.key).1 Takeover.upserted [] [] [] Takeover.first
    Takeover.second _ _ (.compareAndSwap Sample.key 1 "token" 5 [] [1]) (fun _ => none) 1 "token" ?_ ?_
    Takeover.first_hands Takeover.second_hands rfl (.inl ?_)).resolve_right ?_
  · simp [Takeover.first, Takeover.second]
  · unfold Fresh
    decide
  · decide +kernel
  · rintro ⟨_, _, _, _, _, other, _⟩
    cases other

/-- The first worker's attempt has generation 1, and a call that carries this generation changes the
schedule after the second worker has taken over: the attempt has kept its generation. -/
theorem generation_survives_takeover :
    (Takeover.first.1.run Sample.library intlV1 Takeover.first.2 Takeover.upserted).1.toOption.map
        (Option.map fun attempt => (attempt.generation, attempt.leaseToken)) = some (some (1, "token")) ∧
    (Takeover.second.1.run Sample.library intlV1 Takeover.second.2
        (Takeover.upserted.after Sample.library intlV1 [Takeover.first])).1.toOption.map
        (Option.map fun attempt => (attempt.generation, attempt.leaseToken)) = some (some (1, "next")) ∧
    Takeover.checkpoint.credentials = some (Sample.key, 1, "next") ∧
    (Takeover.checkpoint.run Sample.library intlV1 (fun _ => none) Takeover.claimed).2.schedules.lookup Sample.key ≠
      Takeover.claimed.schedules.lookup Sample.key := by
  decide +kernel

end TrustDB.ProofStore
