import TrustDB.AnchorSchedule.Validity
import TrustDB.ProofStore.AnchorEffects

/-!
No tree head that was accepted as a candidate is lost: from then on, one that is at least as large
is scheduled for its stream or has been anchored there.
-/

namespace TrustDB.ProofStore

open Result CryptoSuite Model AnchorSchedule

/-- A tree head of at least this size is the pending target, the target in flight, or the one of a
stored result. -/
def Covered (key : STHAnchorScheduleKey) (treeSize : Nat) (tables : AnchorTables) : Prop :=
  (∃ schedule, tables.schedules.lookup key = some schedule ∧
    ((∃ pending, schedule.pending = some pending ∧ treeSize ≤ pending.target.treeSize) ∨
      ∃ attempt, schedule.inFlight = some attempt ∧ treeSize ≤ attempt.target.treeSize)) ∨
    ∃ result, tables.results.lookup (resultKey result) = some result ∧ streamOf result = key ∧
      treeSize ≤ result.sth.treeSize

section

variable {library : Library} {suite : ID} {tables next : AnchorTables} {key : STHAnchorScheduleKey}
  {treeSize : Nat} {result : Option STHAnchorResult} {roots : List ((String × String × Nat) × Bytes)}

theorem covered_of_target {schedule target} (found : tables.schedules.lookup key = some schedule)
    (scheduled : target ∈ scheduleTargets schedule) (within : treeSize ≤ target.treeSize) :
    Covered key treeSize tables := by
  rcases mem_scheduleTargets.mp scheduled with ⟨attempt, inFlight, rfl⟩ | ⟨pending, open_, rfl⟩
  · exact .inl ⟨schedule, found, .inr ⟨attempt, inFlight, within⟩⟩
  · exact .inl ⟨schedule, found, .inl ⟨pending, open_, within⟩⟩

theorem covered_of_stored {result : STHAnchorResult} (stored : Stored library tables (some key) result)
    (within : treeSize ≤ result.treeSize) : Covered key treeSize tables :=
  .inr ⟨result, stored.found, stored.stream key rfl, (validateResult_binds stored.valid).2.1 ▸ within⟩

theorem covered_iff : Covered key treeSize tables ↔
    (∃ schedule target, tables.schedules.lookup key = some schedule ∧ target ∈ scheduleTargets schedule ∧
      treeSize ≤ target.treeSize) ∨
    ∃ result, tables.results.lookup (resultKey result) = some result ∧ streamOf result = key ∧
      treeSize ≤ result.sth.treeSize := by
  constructor
  · rintro (⟨schedule, found, ⟨pending, open_, within⟩ | ⟨attempt, inFlight, within⟩⟩ | stored)
    · exact .inl ⟨schedule, _, found, mem_scheduleTargets.mpr (.inr ⟨pending, open_, rfl⟩), within⟩
    · exact .inl ⟨schedule, _, found, mem_scheduleTargets.mpr (.inl ⟨attempt, inFlight, rfl⟩), within⟩
    · exact .inr stored
  · rintro (⟨schedule, target, found, scheduled, within⟩ | stored)
    · exact covered_of_target found scheduled within
    · exact .inr stored

def Keeps (tables next : AnchorTables) : Prop :=
  ∀ key old, tables.results.lookup key = some old →
    ∃ kept, next.results.lookup key = some kept ∧ { old with proof := kept.proof } = kept

theorem Applies.covered {schedule} (applies : Applies schedule result roots tables next) (keeps : Keeps tables next)
    (targets : ∀ made, schedule = some made → ∀ current, tables.schedules.lookup made.key = some current →
      ∀ target ∈ scheduleTargets current, Covered made.key target.treeSize next)
    (covered : Covered key treeSize tables) : Covered key treeSize next := by
  rcases covered_iff.mp covered with ⟨current, target, found, scheduled, within⟩ | ⟨stored, found, stream, within⟩
  · rcases applies.schedule_cases key with same | ⟨made, isNew, rfl, written⟩
    · exact covered_of_target (same.trans found) scheduled within
    · have reached := targets made isNew current found target scheduled
      rcases covered_iff.mp reached with ⟨schedule, other, found, member, larger⟩ | ⟨other, found, stream, larger⟩
      · exact covered_of_target found member (within.trans larger)
      · exact .inr ⟨other, found, stream, within.trans larger⟩
  · obtain ⟨kept, foundKept, same⟩ := keeps _ stored found
    refine .inr ⟨kept, ?_, ?_, ?_⟩ <;> rw [← same]
    · exact same ▸ foundKept
    · exact stream
    · exact within

theorem Applies.covered_replacing (library : Library) {made current}
    (applies : Applies (some made) result roots tables next) (keeps : Keeps tables next)
    (found : tables.schedules.lookup made.key = some current)
    (targets : ∀ target ∈ scheduleTargets current, target ∈ scheduleTargets made ∨
      ∃ stored, Stored library next (some made.key) stored ∧ target.treeSize ≤ stored.treeSize)
    (covered : Covered key treeSize tables) : Covered key treeSize next := by
  refine applies.covered keeps (fun other new known present target scheduled => ?_) covered
  cases new
  cases found.symm.trans present
  rcases targets target scheduled with kept | ⟨stored, known, within⟩
  · exact covered_of_target applies.found kept (le_rfl)
  · exact covered_of_stored known within

theorem Applies.covered_retaining (library : Library) {made current}
    (applies : Applies (some made) none [] tables next) (keeps : Keeps tables next)
    (found : tables.schedules.lookup current.key = some current) (retains : Retains current made)
    (covered : Covered key treeSize tables) : Covered key treeSize next := by
  refine applies.covered_replacing library keeps (retains.2 ▸ found) (fun target scheduled => .inl ?_) covered
  rwa [retains.1]

namespace Pebble

theorem Reconciled.covers {current settled} (reconciled : Reconciled library tables current settled) {target}
    (scheduled : target ∈ scheduleTargets current) : target ∈ scheduleTargets settled ∨
      ∃ result, Stored library tables (some current.key) result ∧ target.treeSize ≤ result.treeSize := by
  induction reconciled with
  | unchanged => exact .inl scheduled
  | settled _ stored _ settles ih =>
    rcases ih with kept | gone
    · rcases settles.covers kept with still | within
      · exact .inl still
      · exact .inr ⟨_, stored, within⟩
    · exact .inr gone

theorem Change.upsert_covers {candidate handed} (change : Change library tables next (.upsert candidate) handed) :
    Covered candidate.key candidate.sth.treeSize next := by
  cases change with
  | idle apart => exact absurd rfl (apart candidate)
  | revise carried => cases carried
  | upsert merged stored _ _ applies =>
    rename_i made latest changed roots
    obtain ⟨mergeable, outcome⟩ := mergeCandidate_eq_ok merged
    rcases outcome with ⟨found, rfl, target, scheduled, within⟩ | ⟨found, rfl, result, named, within⟩ |
      ⟨_, rfl, rfl, result, named, within⟩ | ⟨rfl, rfl, _⟩
    · refine covered_of_target ?_ scheduled within
      rw [applies.schedules]
      exact found
    · exact covered_of_stored (applies.stored (stored result named)) within
    · exact covered_of_stored (applies.stored (stored result named)) within
    · have found := applies.found
      rw [openWindow_key, mergeable.base_key] at found
      exact covered_of_target found (mem_openWindow.mpr (.inr rfl)) (le_rfl)

theorem Change.keeps_covered {call handed} (change : Change library tables next call handed)
    (live : ∀ schedule replace, call ≠ .restore schedule replace) (covered : Covered key treeSize tables) :
    Covered key treeSize next := by
  have keeps : Keeps tables next := fun _ _ => change.keeps_result
  cases change with
  | idle _ frame => exact frame.applies.covered keeps (by simp) covered
  | put _ _ _ applies => exact applies.covered keeps (by simp) covered
  | update _ _ _ _ applies => exact applies.covered keeps (by simp) covered
  | upsert merged stored _ _ applies =>
    refine applies.covered keeps (fun other new current found target scheduled => ?_) covered
    split at new
    · rename_i changed
      rw [if_pos changed] at applies
      cases new
      rw [mergeCandidate_key merged] at found
      obtain ⟨mergeable, outcome⟩ := mergeCandidate_eq_ok merged
      rcases outcome with ⟨same, _⟩ | ⟨same, _⟩ | ⟨absent, _⟩ | ⟨rfl, _, beyond, _⟩
      · cases same.symm.trans found
        exact covered_of_target applies.found scheduled (le_rfl)
      · cases same.symm.trans found
        exact covered_of_target applies.found scheduled (le_rfl)
      · rw [absent] at found
        cases found
      · rw [found] at beyond
        exact covered_of_target applies.found (mem_openWindow.mpr (.inr rfl)) (beyond target scheduled).le
    · cases new
  | claim found keyed reconciled claimed applies =>
    obtain ⟨targets, key⟩ := claim_retains claimed
    have sameKey := key.trans (reconciled.key.trans keyed)
    refine applies.covered_replacing library keeps (sameKey ▸ found) (fun target scheduled => ?_) covered
    rw [targets, key, reconciled.key]
    rcases reconciled.covers scheduled with kept | ⟨result, stored, within⟩
    · exact .inl kept
    · exact .inr ⟨result, applies.stored stored, within⟩
  | revise _ _ found keyed revises applies =>
    exact applies.covered_retaining library keeps (keyed ▸ found) revises.retains covered
  | known found keyed _ _ stored _ settles applies =>
    have sameKey := settles.key.trans keyed
    refine applies.covered_replacing library keeps (sameKey ▸ found) (fun target scheduled => ?_) covered
    rcases settles.covers scheduled with kept | within
    · exact .inl kept
    · exact .inr ⟨_, applies.stored (sameKey ▸ stored), within⟩
  | complete found keyed absent done _ applies =>
    obtain ⟨attempt, owned, valid, matched, settles⟩ := complete_eq_ok done
    have sameKey := settles.key.trans keyed
    refine applies.covered_replacing library keeps (sameKey ▸ found) (fun target scheduled => ?_) covered
    rcases settles.covers scheduled with kept | within
    · exact .inl kept
    · refine .inr ⟨_, ⟨?_, ?_, ?_⟩, within⟩
      · rw [applies.results]
        exact AList.lookup_insert _
      · rw [(validateResult_binds valid).1]
        exact valid
      · intro key same
        exact (validateResult_binds valid).1.trans (settles.key.symm.trans (Option.some.inj same))
  | restore => exact absurd rfl (live _ _)

theorem AnchorCall.run_keeps_covered {call : AnchorCall} {faults : AnchorFaults}
    (live : ∀ schedule replace, call ≠ .restore schedule replace) (covered : Covered key treeSize tables) :
    Covered key treeSize (call.run library suite faults tables).2 := by
  rcases run_cases call with ⟨_, change⟩ | frame
  · exact change.keeps_covered live covered
  · exact frame.applies.covered (fun _ old found => ⟨old, by rwa [frame.results], rfl⟩) (by simp) covered

end Pebble

/-- Whatever calls follow on an accepted candidate, on any stream and with any failures, it stays
covered. -/
theorem accepted_candidate_stays_covered (candidate : STHAnchorCandidate) (faults : AnchorFaults)
    (later : List AnchorStep) {answer : Option STHAnchorAttempt}
    (accepted : ((Pebble.AnchorCall.upsert candidate).run library suite faults tables).1 = .ok answer)
    (live : ∀ step ∈ later, ∀ schedule replace, step.1 ≠ .restore schedule replace) :
    Covered candidate.key candidate.sth.treeSize
      (tables.after library suite ((.upsert candidate, faults) :: later)) := by
  have change := Ensures.of_ok (Pebble.AnchorCall.run_ensures (.upsert candidate)) accepted
  exact List.foldlRecOn later _ change.1.upsert_covers fun _ covered step member =>
    Pebble.AnchorCall.run_keeps_covered (live step member) covered

end

open Sample

theorem sample_candidate_stays_covered :
    Covered Sample.key 5 (AnchorTables.empty.after Sample.library intlV1
      [(.upsert { key := Sample.key, sth := Sample.head 5, observedAtUnixN := 1, dueAtUnixN := 2 }, fun _ => none),
        (.claim Sample.key 3 10 "worker" "token", fun _ => none)]) := by
  have accepted : ((Pebble.AnchorCall.upsert {
      key := Sample.key
      sth := Sample.head 5
      observedAtUnixN := 1
      dueAtUnixN := 2 }).run Sample.library intlV1 (fun _ => none) AnchorTables.empty).1.toOption = some none := by
    decide +kernel
  exact accepted_candidate_stays_covered _ _ _ (toOption_eq_some.mp accepted) (by simp)

end TrustDB.ProofStore
