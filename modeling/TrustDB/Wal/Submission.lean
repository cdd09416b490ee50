import TrustDB.Wal.Reservation

/-!
What holds of the queue of reservations over every run. A step pushes a reservation, marks one
as ready, cuts the queue or writes its head; everything else follows from these four moves.
-/

namespace TrustDB.Wal

open CryptoSuite TrustCrypto Model List

namespace Shared

variable {id index : Nat} {answer : WALPosition × Digest} {log : Log} {head : Pending} {rest : List Pending}
  {faults : Faults} {ctxErr : Option Err} {err : Err}

def successes (shared : Shared) : List (Nat × WALPosition × Digest) :=
  shared.results.filterMap fun (id, result) => result.toOption.map (id, ·)

def push (shared : Shared) (reservation : Reservation) : Shared := { shared with
  issued := shared.issued ++ [reservation]
  reservations := shared.reservations ++ [{ id := shared.issued.length, reservation, ready := false }] }

def setReady (shared : Shared) (id : Nat) : Shared :=
  { shared with reservations := shared.reservations.map (Pending.complete id) }

def cut (shared : Shared) (index : Nat) (failed : List (Nat × Answer)) (log : Log) : Shared := { shared with
  log := log
  reservations := shared.reservations.take index
  results := shared.results ++ failed }

def pop (shared : Shared) (answer : WALPosition × Digest) (log : Log) (head : Pending) (rest : List Pending) :
    Shared := { shared with
  log := log
  reservations := rest
  results := shared.results ++ [(head.id, .ok answer)] }

inductive Move (sums : Sums) (shared : Shared) : Shared → Prop
  | push (reservation : Reservation) : Move sums shared (shared.push reservation)
  | setReady (id : Nat) : Move sums shared (shared.setReady id)
  | cut (index : Nat) (failed : List (Nat × Answer)) (log : Log)
      (ids : failed.map Prod.fst = (shared.reservations.drop index).map (·.id))
      (errors : ∀ entry ∈ failed, entry.2.toOption = none) (halts : shared.log.Halts log) :
      Move sums shared (shared.cut index failed log)
  | pop (head : Pending) (rest : List Pending) (faults : Faults) (ctxErr : Option Err)
      (answer : WALPosition × Digest) (log : Log) (queue : shared.reservations = head :: rest)
      (committed : shared.log.commitAtExpected sums faults ctxErr head.reservation.payload
        head.reservation.unixNano head.reservation.position = (.ok answer, log)) :
      Move sums shared (shared.pop answer log head rest)

/-- What is between the reservations, the queue and the results: every reservation is in one of
the last two, once, and the successes are what stands in front of the queue. -/
structure Consistent (sums : Sums) (suiteID : ID) (base : Nat) (shared : Shared) : Prop where
  partition : (shared.results.map Prod.fst ++ shared.reservations.map (·.id)).Perm
    (range shared.issued.length)
  known : ∀ pending ∈ shared.reservations, shared.issued[pending.id]? = some pending.reservation
  ascending : (shared.successes.map Prod.fst ++ shared.reservations.map (·.id)).Pairwise (· < ·)
  sequences : shared.successes.map (·.2.1.sequence) = range' (base + 1) shared.successes.length
  sequence : shared.log.writer.sequence = base + shared.successes.length
  written : ∀ id position hash, (id, position, hash) ∈ shared.successes →
    ∃ reservation, shared.issued[id]? = some reservation ∧ reservation.position = position ∧
      WrittenAt sums suiteID shared.log.dir reservation hash
  positioned : shared.log.Stopped ∨ shared.log.Positioned
  suite : shared.log.writer.suiteID = suiteID

variable {sums : Sums} {suiteID : ID} {base : Nat} {shared next : Shared}

theorem successes_id (member : (id, answer) ∈ shared.successes) :
    id ∈ shared.results.map Prod.fst := by
  obtain ⟨⟨other, result⟩, found, kept⟩ := mem_filterMap.mp member
  obtain ⟨_, _, same⟩ := Option.map_eq_some_iff.mp kept
  cases same
  exact mem_map_of_mem found

theorem successes_cut {failed} (errors : ∀ entry ∈ failed, entry.2.toOption = none) :
    (shared.cut index failed log).successes = shared.successes := by
  have none : failed.filterMap (fun (id, result) => result.toOption.map (id, ·)) = [] := by
    rw [filterMap_eq_nil_iff]
    intro entry member
    change entry.2.toOption.map (entry.1, ·) = none
    rw [errors entry member, Option.map_none]
  rw [successes, cut, filterMap_append, none, append_nil]
  rfl

theorem successes_pop :
    (shared.pop answer log head rest).successes = shared.successes ++ [(head.id, answer)] := by
  rw [successes, pop, filterMap_append]
  rfl

theorem Consistent.id_lt (consistent : Consistent sums suiteID base shared) :
    id < shared.issued.length ↔
      id ∈ shared.results.map Prod.fst ∨ id ∈ shared.reservations.map (·.id) := by
  rw [← mem_append, consistent.partition.mem_iff, mem_range]

theorem Consistent.push (consistent : Consistent sums suiteID base shared) (reservation : Reservation) :
    Consistent sums suiteID base (shared.push reservation) where
  partition := by
    rw [Shared.push, map_append, ← append_assoc, length_append, length_singleton, range_succ]
    exact consistent.partition.append_right _
  known := by
    intro pending member
    rcases mem_append.mp member with old | new
    · have found := consistent.known pending old
      rw [Shared.push, List.getElem?_append_left (List.getElem?_eq_some_iff.mp found).1, found]
    · cases List.mem_singleton.mp new
      exact List.getElem?_concat_length
  ascending := by
    rw [Shared.push, map_append, ← append_assoc, pairwise_append]
    refine ⟨consistent.ascending, pairwise_singleton _ _, ?_⟩
    intro id member last isLast
    cases mem_singleton.mp isLast
    apply consistent.id_lt.mpr
    rcases mem_append.mp member with success | queued
    · obtain ⟨entry, found, rfl⟩ := mem_map.mp success
      exact .inl (successes_id found)
    · exact .inr queued
  sequences := consistent.sequences
  sequence := consistent.sequence
  written := by
    intro id position hash member
    obtain ⟨found, issued, rest⟩ := consistent.written id position hash member
    refine ⟨found, ?_, rest⟩
    rw [Shared.push, List.getElem?_append_left (List.getElem?_eq_some_iff.mp issued).1, issued]
  positioned := consistent.positioned
  suite := consistent.suite

theorem setReady_ids (id : Nat) :
    (shared.setReady id).reservations.map (·.id) = shared.reservations.map (·.id) := by
  rw [setReady, map_map]
  rfl

theorem Consistent.setReady (consistent : Consistent sums suiteID base shared) (id : Nat) :
    Consistent sums suiteID base (shared.setReady id) :=
  { consistent with
    partition := by
      rw [setReady_ids]
      exact consistent.partition
    known := by
      intro pending member
      obtain ⟨other, found, rfl⟩ := mem_map.mp member
      exact consistent.known other found
    ascending := by
      rw [setReady_ids]
      exact consistent.ascending }

theorem Consistent.cut (consistent : Consistent sums suiteID base shared) {index : Nat}
    {failed : List (Nat × Answer)} {log : Log}
    (ids : failed.map Prod.fst = (shared.reservations.drop index).map (·.id))
    (errors : ∀ entry ∈ failed, entry.2.toOption = none) (halts : shared.log.Halts log) :
    Consistent sums suiteID base (shared.cut index failed log) where
  partition := by
    rw [Shared.cut, map_append, ids, append_assoc]
    apply (Perm.append_left _ perm_append_comm).trans
    rw [← map_append, take_append_drop]
    exact consistent.partition
  known := fun pending member => consistent.known pending (mem_of_mem_take member)
  ascending := by
    rw [successes_cut errors]
    exact consistent.ascending.sublist ((Sublist.refl _).append ((take_sublist _ _).map _))
  sequences := by
    rw [successes_cut errors]
    exact consistent.sequences
  sequence := by
    rw [successes_cut errors, ← consistent.sequence]
    exact halts.sequence
  written := by
    intro id position hash member
    rw [successes_cut errors] at member
    obtain ⟨found, issued, position, written⟩ := consistent.written id position hash member
    exact ⟨found, issued, position, written.grows halts.grows⟩
  positioned := by
    rcases halts.halted with rfl | stopped
    · exact consistent.positioned
    · exact .inl stopped
  suite := halts.suite.trans consistent.suite

theorem not_stopped {next : Log} {payload unixNano expected}
    (committed : log.commitAtExpected sums faults ctxErr payload unixNano expected = (.ok answer, next)) :
    ¬log.Stopped := by
  obtain ⟨opened, healthy, _⟩ :=
    Writer.readyToAppendLocked_eq_ok.mp (Log.commitAtExpected_eq_ok committed).2.2.1
  rintro (poisoned | closed)
  · exact poisoned healthy
  · rw [opened] at closed
    cases closed

theorem Consistent.pop (consistent : Consistent sums suiteID base shared)
    (queue : shared.reservations = head :: rest)
    (committed : shared.log.commitAtExpected sums faults ctxErr head.reservation.payload
      head.reservation.unixNano head.reservation.position = (.ok answer, log)) :
    Consistent sums suiteID base (shared.pop answer log head rest) := by
  have positioned := consistent.positioned.resolve_left (not_stopped committed)
  obtain ⟨answered, ends, sequence, expected, suite, grows, written⟩ :=
    positioned.commit head.reservation.after committed
  exact {
    partition := by
      have all := consistent.partition
      rw [queue] at all
      rw [Shared.pop, map_append, append_assoc]
      exact all
    known := fun pending member => consistent.known pending (queue ▸ mem_cons_of_mem head member)
    ascending := by
      have all := consistent.ascending
      rw [queue] at all
      rw [successes_pop, map_append, append_assoc]
      exact all
    sequences := by
      rw [successes_pop, map_append, consistent.sequences, length_append, length_singleton,
        range'_concat, map_singleton, answered, expected, consistent.sequence, Nat.one_mul,
        Nat.add_right_comm]
    sequence := by
      rw [successes_pop, length_append, length_singleton]
      exact sequence.trans (congrArg (· + 1) consistent.sequence)
    written := by
      intro id position hash member
      rw [successes_pop] at member
      rcases mem_append.mp member with old | new
      · obtain ⟨found, issued, position, written⟩ := consistent.written id position hash old
        exact ⟨found, issued, position, written.grows grows⟩
      · cases mem_singleton.mp new
        exact ⟨head.reservation, consistent.known head (queue ▸ mem_cons_self), answered.symm,
          consistent.suite ▸ written⟩
    positioned := .inr ends
    suite := suite.trans consistent.suite }

theorem Consistent.move (consistent : Consistent sums suiteID base shared)
    (move : Move sums shared next) : Consistent sums suiteID base next := by
  cases move with
  | push reservation => exact consistent.push reservation
  | setReady id => exact consistent.setReady id
  | cut index failed log ids errors halts => exact consistent.cut ids errors halts
  | pop head rest faults ctxErr answer log queue committed => exact consistent.pop queue committed

theorem Move.stopped (move : Move sums shared next) (stopped : shared.log.Stopped) :
    next.log.Stopped ∧ next.successes = shared.successes := by
  cases move with
  | push reservation => exact ⟨stopped, rfl⟩
  | setReady id => exact ⟨stopped, rfl⟩
  | cut index failed log ids errors halts =>
    refine ⟨?_, successes_cut errors⟩
    rcases halts.halted with same | after
    · exact same ▸ stopped
    · exact after
  | pop head rest faults ctxErr answer log queue committed => exact absurd stopped (not_stopped committed)

theorem finished_eq_false : shared.finished id = false ↔ id ∉ shared.results.map Prod.fst :=
  decide_eq_false_iff_not

theorem finishReservationLocked_open (open_ : shared.finished id = false) (result : Answer) :
    shared.finishReservationLocked id result = { shared with results := shared.results ++ [(id, result)] } := by
  rw [finishReservationLocked, open_, if_neg Bool.false_ne_true]

theorem foldl_finish {queue : List Pending} (err : Err)
    (fresh : (shared.results.map Prod.fst ++ queue.map (·.id)).Nodup) :
    queue.foldl (fun shared pending => shared.finishReservationLocked pending.id (.error err)) shared =
      { shared with results := shared.results ++ queue.map fun pending => (pending.id, .error err) } := by
  induction queue generalizing shared with
  | nil => simp
  | cons head rest ih =>
    have open_ : shared.finished head.id = false := by
      rw [finished_eq_false]
      intro member
      exact (nodup_append.mp fresh).2.2 _ member _ mem_cons_self rfl
    rw [foldl_cons, finishReservationLocked_open open_, ih]
    · simp
    · simpa using fresh

theorem errors_of_map {queue : List Pending} :
    ∀ entry ∈ queue.map (fun pending => (pending.id, (.error err : Answer))), entry.2.toOption = none := by
  intro entry member
  obtain ⟨_, _, rfl⟩ := mem_map.mp member
  rfl

theorem errors_of_cons {failed : List (Nat × Answer)} (errors : ∀ entry ∈ failed, entry.2.toOption = none) :
    ∀ entry ∈ (id, .error err) :: failed, entry.2.toOption = none := by
  intro entry member
  rcases mem_cons.mp member with rfl | later
  · rfl
  · exact errors entry later

theorem Consistent.fresh (consistent : Consistent sums suiteID base shared) :
    (shared.results.map Prod.fst ++ shared.reservations.map (·.id)).Nodup :=
  consistent.partition.nodup_iff.mpr nodup_range

theorem reservations_drop (found : shared.reservationIndexLocked id = some index) :
    ∃ pending, pending.id = id ∧ shared.reservations.drop index = pending :: shared.reservations.drop (index + 1) := by
  obtain ⟨bound, isID, _⟩ := findIdx?_eq_some_iff_getElem.mp found
  exact ⟨_, of_decide_eq_true isID, drop_eq_getElem_cons bound⟩

section

variable (consistent : Consistent sums suiteID base shared)

include consistent

section

variable (open_ : shared.finished id = false) (found : shared.reservationIndexLocked id = some index)
include open_ found

theorem Consistent.failReservation (err : Err) :
    shared.failReservation id index err = shared.cut index ((id, .error err) ::
      (shared.reservations.drop (index + 1)).map fun pending => (pending.id, .error errAppendReservationInvalidated))
      shared.log := by
  obtain ⟨pending, rfl, split⟩ := reservations_drop found
  have fresh := consistent.fresh.sublist
    ((Sublist.refl _).append ((drop_sublist index shared.reservations).map _))
  rw [split] at fresh
  rw [Shared.failReservation, finishReservationLocked_open open_, invalidateReservationsLocked, foldl_finish]
  · simp [clearReservationsFromLocked, Shared.cut]
  · simpa using fresh

theorem Consistent.fails : Move sums shared (shared.failReservation id index err) := by
  obtain ⟨pending, isID, split⟩ := reservations_drop found
  rw [consistent.failReservation open_ found err]
  apply Move.cut
  · rw [split, map_cons, map_cons, map_map, isID]
    rfl
  · exact errors_of_cons errors_of_map
  · exact .refl _

end

theorem Consistent.invalidate (err : Err) (log : Log) :
    { (shared.invalidateReservationsLocked 0 err).clearReservationsFromLocked 0 with log } =
      shared.cut 0 (shared.reservations.map fun pending => (pending.id, .error err)) log := by
  rw [invalidateReservationsLocked, drop_zero, foldl_finish err consistent.fresh]
  rfl

theorem Consistent.completeReservation (id : Nat) (prepareErr : Option Err) :
    shared.completeReservation id prepareErr = shared ∨
      Move sums shared (shared.completeReservation id prepareErr) := by
  rw [Shared.completeReservation]
  split
  · exact .inl rfl
  · rename_i open_
    rw [Bool.not_eq_true] at open_
    split
    · exact .inl rfl
    · rename_i index found
      right
      cases prepareErr with
      | some err => exact consistent.fails open_ found
      | none => exact Move.setReady id

theorem Consistent.cancelReservation (id : Nat) (err : Err) :
    shared.cancelReservation id err = shared ∨ Move sums shared (shared.cancelReservation id err) := by
  rw [Shared.cancelReservation]
  split
  · exact .inl rfl
  · rename_i open_
    rw [Bool.not_eq_true] at open_
    split
    · exact .inl rfl
    · rename_i index found
      exact .inr (consistent.fails open_ found)

end

theorem reserveAppend_cases (shared : Shared) (payload : Bytes) (unixNano : Int) :
    (shared.reserveAppend payload unixNano).2 = shared ∨
      ∃ reservation, (shared.reserveAppend payload unixNano).2 = shared.push reservation := by
  simp only [reserveAppend, Result.chain]
  split
  all_goals
    rename_i same
    cases (Prod.mk.inj same).2
  · exact .inr ⟨_, rfl⟩
  · exact .inl rfl

section

variable (consistent : Consistent sums suiteID base shared)

include consistent

section

variable (queue : shared.reservations = head :: rest)
include queue

theorem Consistent.head_open : shared.finished head.id = false := by
  rw [finished_eq_false]
  intro member
  have apart := (nodup_append.mp consistent.fresh).2.2
  rw [queue] at apart
  exact apart _ member _ mem_cons_self rfl

theorem Consistent.commitHead_ok
    (committed : shared.log.commitAtExpected sums faults ctxErr head.reservation.payload head.reservation.unixNano
      head.reservation.position = (.ok answer, log)) :
    shared.commitHead sums faults ctxErr = shared.pop answer log head rest := by
  rw [Shared.commitHead, queue]
  simp only [committed, finishReservationLocked_open (consistent.head_open queue)]
  rfl

theorem Consistent.commitHead_error
    (failed : shared.log.commitAtExpected sums faults ctxErr head.reservation.payload head.reservation.unixNano
      head.reservation.position = (.error err, log)) :
    shared.commitHead sums faults ctxErr = shared.cut 0 ((head.id, .error err) ::
      rest.map fun pending => (pending.id, .error errAppendReservationInvalidated)) log := by
  have fresh := consistent.fresh
  rw [queue] at fresh
  rw [Shared.commitHead, queue]
  simp only [failed, finishReservationLocked_open (consistent.head_open queue), invalidateReservationsLocked,
    drop_zero]
  rw [foldl_finish]
  · simp [clearReservationsFromLocked, Shared.cut]
  · simpa using fresh

end

theorem Consistent.commitHead (faults : Faults) (ctxErr : Option Err) :
    shared.commitHead sums faults ctxErr = shared ∨
      Move sums shared (shared.commitHead sums faults ctxErr) := by
  cases queue : shared.reservations with
  | nil =>
    left
    rw [Shared.commitHead, queue]
  | cons head rest =>
    right
    cases attempt : shared.log.commitAtExpected sums faults ctxErr head.reservation.payload
      head.reservation.unixNano head.reservation.position with
    | mk result log =>
      cases result with
      | ok answer =>
        rw [consistent.commitHead_ok queue attempt]
        exact Move.pop head rest faults ctxErr answer log queue attempt
      | error err =>
        rw [consistent.commitHead_error queue attempt]
        apply Move.cut
        · rw [queue, drop_zero, map_cons, map_cons, map_map]
          rfl
        · exact errors_of_cons errors_of_map
        · exact (Log.commitAtExpected_error attempt).1

end

theorem Move.halted (halts : shared.log.Halts log) : Move sums shared { shared with log } := by
  have whole : { shared with log } = shared.cut shared.reservations.length [] log := by
    simp [Shared.cut]
  rw [whole]
  apply Move.cut
  · simp
  · simp
  · exact halts

theorem Consistent.close (consistent : Consistent sums suiteID base shared) :
    shared.close = shared ∨ Move sums shared shared.close := by
  rw [Shared.close]
  split
  · exact .inl rfl
  · right
    rw [consistent.invalidate]
    apply Move.cut
    · rw [map_map, drop_zero]
      rfl
    · exact errors_of_map
    · exact ⟨rfl, rfl, .refl _, .inr (.inr rfl)⟩

theorem flushGroupTimer_cases (shared : Shared) (cause : Err) :
    shared.flushGroupTimer cause = shared ∨ Move sums shared (shared.flushGroupTimer cause) := by
  rw [flushGroupTimer]
  split
  · exact .inl rfl
  · exact .inr (Move.halted ⟨rfl, rfl, .refl _, .inr (.inl nofun)⟩)

section

variable (consistent : Consistent sums suiteID base shared)
include consistent

theorem Consistent.step {op : Op} (stepped : shared.step sums op = some next) :
    next = shared ∨ Move sums shared next := by
  cases op
  all_goals
    simp only [Shared.step, Option.ite_none_left_eq_some, Option.ite_none_right_eq_some, Option.some.injEq] at stepped
  case reserve payload unixNano =>
    obtain ⟨_, rfl⟩ := stepped
    rcases shared.reserveAppend_cases payload unixNano with same | ⟨reservation, pushed⟩
    · exact .inl same
    · exact .inr (pushed ▸ Move.push reservation)
  case complete id prepareErr =>
    obtain ⟨_, rfl⟩ := stepped
    exact consistent.completeReservation id prepareErr
  case wait id done =>
    obtain ⟨_, received⟩ := stepped
    split at received
    · rename_i after answer waited
      cases received
      obtain ⟨rfl, _⟩ := Prod.mk.inj waited
      cases done with
      | none => exact .inl rfl
      | some err => exact consistent.cancelReservation id err
    · cases received
  case close =>
    obtain ⟨_, rfl⟩ := stepped
    exact consistent.close
  case commit faults ctxErr =>
    obtain ⟨_, rfl⟩ := stepped
    exact consistent.commitHead faults ctxErr
  case flush cause =>
    cases stepped
    exact shared.flushGroupTimer_cases cause

theorem Consistent.stepped {op : Op} (stepped : shared.step sums op = some next) :
    Consistent sums suiteID base next := by
  rcases consistent.step stepped with rfl | move
  · exact consistent
  · exact consistent.move move

theorem Consistent.run {ops : List Op} (ran : Machine.run (Shared.step sums) shared ops = some next) :
    Consistent sums suiteID base next :=
  Machine.run_keeps (fun _ _ _ consistent stepped => consistent.stepped stepped) ran consistent

theorem Consistent.run_stopped {ops} (stopped : shared.log.Stopped)
    (ran : Machine.run (Shared.step sums) shared ops = some next) :
    next.successes = shared.successes := by
  suffices kept : Consistent sums suiteID base next ∧ next.log.Stopped ∧ next.successes = shared.successes from
    kept.2.2
  refine @Machine.run_keeps _ _ _ _ _ _ (fun after => Consistent sums suiteID base after ∧ after.log.Stopped ∧
    after.successes = shared.successes) ?_ ran ⟨consistent, stopped, rfl⟩
  rintro before op after ⟨consistentBefore, stoppedBefore, same⟩ stepped
  refine ⟨consistentBefore.stepped stepped, ?_⟩
  rcases consistentBefore.step stepped with rfl | move
  · exact ⟨stoppedBefore, same⟩
  · obtain ⟨stoppedAfter, sameAfter⟩ := move.stopped stoppedBefore
    exact ⟨stoppedAfter, sameAfter.trans same⟩

end

def Done (shared : Shared) (id : Nat) : Prop :=
  id ∈ shared.results.map Prod.fst ∨ ∃ pending ∈ shared.reservations, pending.id = id ∧ pending.ready = true

theorem Move.done (move : Move sums shared next) (done : shared.Done id) : next.Done id := by
  rcases done with finished | ⟨pending, member, rfl, ready⟩
  · left
    cases move with
    | push reservation => exact finished
    | setReady other => exact finished
    | cut index failed log ids errors halts =>
      rw [Shared.cut, map_append]
      exact mem_append_left _ finished
    | pop head rest faults ctxErr answer log queue committed =>
      rw [Shared.pop, map_append]
      exact mem_append_left _ finished
  · cases move with
    | push reservation => exact .inr ⟨pending, mem_append_left _ member, rfl, ready⟩
    | setReady other =>
      refine .inr ⟨pending.complete other, mem_map_of_mem member, rfl, ?_⟩
      rw [Pending.complete, ready, Bool.true_or]
    | cut index failed log ids errors halts =>
      rw [← take_append_drop index shared.reservations] at member
      rcases mem_append.mp member with kept | lost
      · exact .inr ⟨pending, kept, rfl, ready⟩
      · left
        rw [Shared.cut, map_append, ids]
        exact mem_append_right _ (mem_map_of_mem lost)
    | pop head rest faults ctxErr answer log queue committed =>
      rw [queue] at member
      rcases mem_cons.mp member with rfl | later
      · left
        rw [Shared.pop, map_append]
        exact mem_append_right _ mem_cons_self
      · exact .inr ⟨pending, later, rfl, ready⟩

theorem reservationIndexLocked_none (missing : shared.reservationIndexLocked id = none) :
    id ∉ shared.reservations.map (·.id) := by
  rw [reservationIndexLocked, findIdx?_eq_none_iff] at missing
  intro member
  obtain ⟨pending, queued, rfl⟩ := mem_map.mp member
  simpa using missing pending queued

section

variable (consistent : Consistent sums suiteID base shared)

include consistent

theorem Consistent.index_some (made : id < shared.issued.length) (open_ : shared.finished id = false) :
    ∃ index, shared.reservationIndexLocked id = some index := by
  cases found : shared.reservationIndexLocked id with
  | some index => exact ⟨index, rfl⟩
  | none =>
    rcases consistent.id_lt.mp made with finished | queued
    · exact absurd finished (finished_eq_false.mp open_)
    · exact absurd queued (reservationIndexLocked_none found)

theorem Consistent.failed_done
    (open_ : shared.finished id = false) (found : shared.reservationIndexLocked id = some index) :
    id ∈ (shared.failReservation id index err).results.map Prod.fst := by
  rw [consistent.failReservation open_ found err, Shared.cut, map_append]
  exact mem_append_right _ mem_cons_self

theorem Consistent.complete_done {prepareErr} (made : id < shared.issued.length) :
    (shared.completeReservation id prepareErr).Done id := by
  rw [Shared.completeReservation]
  by_cases finished : shared.finished id
  · rw [if_pos finished]
    exact .inl (of_decide_eq_true finished)
  · rw [if_neg finished]
    rw [Bool.not_eq_true] at finished
    obtain ⟨index, found⟩ := consistent.index_some made finished
    simp only [found]
    cases prepareErr with
    | some err => exact .inl (consistent.failed_done finished found)
    | none =>
      obtain ⟨pending, isID, split⟩ := reservations_drop found
      have member : pending ∈ shared.reservations := by
        apply mem_of_mem_drop
        rw [split]
        exact mem_cons_self
      refine .inr ⟨pending.complete id, mem_map_of_mem member, isID, ?_⟩
      simp [Pending.complete, isID]

theorem Consistent.wait_done
    (made : id < shared.issued.length) : (shared.waitReservation id (some err)).2 ≠ none := by
  have finished : id ∈ (shared.cancelReservation id err).results.map Prod.fst := by
    rw [Shared.cancelReservation]
    by_cases finished : shared.finished id
    · rw [if_pos finished]
      exact of_decide_eq_true finished
    · rw [if_neg finished]
      rw [Bool.not_eq_true] at finished
      obtain ⟨index, found⟩ := consistent.index_some made finished
      simp only [found]
      exact consistent.failed_done finished found
  obtain ⟨entry, member, isID⟩ := mem_map.mp finished
  have found : ((shared.cancelReservation id err).results.find? (·.1 = id)).isSome :=
    find?_isSome.mpr ⟨entry, member, decide_eq_true isID⟩
  rw [waitReservation, ne_eq, Option.map_eq_none_iff, ← Option.not_isSome_iff_eq_none, not_not]
  exact found

end

theorem Consistent.settled (consistent : Consistent sums suiteID base shared) {id : Nat}
    (done : ∀ earlier ≤ id, shared.Done earlier) (resting : shared.draining = false) :
    id ∈ shared.results.map Prod.fst := by
  rcases done id (Nat.le_refl id) with finished | ⟨pending, member, rfl, _⟩
  · exact finished
  exfalso
  obtain ⟨head, rest, queue⟩ := exists_cons_of_ne_nil (ne_nil_of_mem member)
  have ascending := (pairwise_append.mp consistent.ascending).2.1
  rw [queue, map_cons, pairwise_cons] at ascending
  -- the head is in front of the reservation, so it is done, and it cannot have a result
  have first : head.id ≤ pending.id := by
    rw [queue] at member
    rcases mem_cons.mp member with rfl | later
    · exact le_rfl
    · exact Nat.le_of_lt (ascending.1 _ (mem_map_of_mem later))
  rcases done head.id first with finished | ⟨other, queued, same, ready⟩
  · exact finished_eq_false.mp (consistent.head_open queue) finished
  · rw [queue] at queued
    rcases mem_cons.mp queued with rfl | later
    · simp [draining, queue, ready] at resting
    · have before := ascending.1 _ (mem_map_of_mem later)
      omega

theorem draining_cons (busy : shared.draining = true) : ∃ head rest, shared.reservations = head :: rest := by
  cases queue : shared.reservations with
  | nil => simp [draining, queue] at busy
  | cons head rest => exact ⟨head, rest, rfl⟩

section

variable (consistent : Consistent sums suiteID base shared)
include consistent

theorem Consistent.commitHead_length (busy : shared.draining = true) (faults : Faults) (ctxErr : Option Err) :
    (shared.commitHead sums faults ctxErr).reservations.length < shared.reservations.length := by
  obtain ⟨head, rest, queue⟩ := draining_cons busy
  cases attempt : shared.log.commitAtExpected sums faults ctxErr head.reservation.payload
    head.reservation.unixNano head.reservation.position with
  | mk result log =>
    cases result with
    | ok answer =>
      rw [consistent.commitHead_ok queue attempt, queue]
      exact Nat.lt_succ_self _
    | error err =>
      rw [consistent.commitHead_error queue attempt, queue]
      exact Nat.succ_pos _

theorem Consistent.drains (weather : Nat → Faults × Option Err) :
    ∃ count next, count ≤ shared.reservations.length ∧ next.draining = false ∧
      Machine.run (Shared.step sums) shared
        ((range count).map fun round => .commit (weather round).1 (weather round).2) = some next := by
  induction length : shared.reservations.length using Nat.strongRecOn generalizing shared weather with
  | ind length ih =>
    by_cases busy : shared.draining = true
    · have stepped : shared.step sums (.commit (weather 0).1 (weather 0).2) =
          some (shared.commitHead sums (weather 0).1 (weather 0).2) := by
        rw [Shared.step, if_pos busy]
      have shorter := consistent.commitHead_length busy (weather 0).1 (weather 0).2
      obtain ⟨count, next, bound, resting, ran⟩ := ih _ (length ▸ shorter)
        (consistent.stepped stepped) (fun round => weather (round + 1)) rfl
      refine ⟨count + 1, next, by omega, resting, ?_⟩
      rw [range_succ_eq_map, map_cons, map_map]
      exact Machine.run_cons_eq_some.mpr ⟨_, stepped, ran⟩
    · exact ⟨0, shared, Nat.zero_le _, Bool.not_eq_true _ ▸ busy, rfl⟩

theorem Consistent.run_done {ops} (ran : Machine.run (Shared.step sums) shared ops = some next)
    (done : shared.Done id ∨ ∃ prepareErr, Op.complete id prepareErr ∈ ops) : next.Done id := by
  induction ops generalizing shared with
  | nil =>
    cases ran
    rcases done with done | ⟨_, never⟩
    · exact done
    · cases never
  | cons op rest ih =>
    obtain ⟨between, stepped, later⟩ := Machine.run_cons_eq_some.mp ran
    apply ih (consistent.stepped stepped) later
    rcases done with done | ⟨prepareErr, member⟩
    · left
      rcases consistent.step stepped with rfl | move
      · exact done
      · exact move.done done
    · rcases mem_cons.mp member with rfl | later
      · simp only [Shared.step, Option.ite_none_left_eq_some, Option.some.injEq, not_or, Nat.not_le] at stepped
        obtain ⟨⟨_, made⟩, rfl⟩ := stepped
        exact .inl (consistent.complete_done made)
      · exact .inr ⟨prepareErr, later⟩

end

def Stops (shared : Shared) : Op → Prop
  | .commit faults ctxErr => ∃ head rest, shared.reservations = head :: rest ∧
      shared.log.Admits ctxErr head.reservation.payload head.reservation.position ∧
      faults.Strike (shared.log.writer.rotates shared.log.writer.offset head.reservation.payload.length)
  | .flush _ => shared.log.writer.file ≠ none
  | .close => True
  | _ => False

variable {sums : Sums} {suiteID : ID} {base : Nat} {shared next : Shared}

theorem Consistent.stops (consistent : Consistent sums suiteID base shared) {op : Op}
    (stepped : shared.step sums op = some next) (stops : shared.Stops op) :
    next.log.Stopped ∧ next.successes = shared.successes := by
  cases op with
  | commit faults ctxErr =>
    obtain ⟨head, rest, queue, admits, strike⟩ := stops
    simp only [Shared.step, Option.ite_none_right_eq_some, Option.some.injEq] at stepped
    obtain ⟨_, rfl⟩ := stepped
    cases attempt : shared.log.commitAtExpected sums faults ctxErr head.reservation.payload
      head.reservation.unixNano head.reservation.position with
    | mk result log =>
      cases result with
      | ok answer => exact absurd strike (Log.commitAtExpected_clean attempt)
      | error err =>
        rw [consistent.commitHead_error queue attempt]
        exact ⟨(Log.commitAtExpected_error attempt).2 admits, successes_cut (errors_of_cons errors_of_map)⟩
  | flush cause =>
    cases stepped
    rw [flushGroupTimer]
    split
    · rename_i already
      refine ⟨?_, rfl⟩
      rcases already with closed | detached | poisoned
      · exact .inr closed
      · exact absurd detached stops
      · exact .inl poisoned
    · exact ⟨.inl nofun, rfl⟩
  | close =>
    simp only [Shared.step, Option.ite_none_left_eq_some, Option.some.injEq] at stepped
    obtain ⟨_, rfl⟩ := stepped
    rw [Shared.close]
    split
    · rename_i closed
      exact ⟨.inr closed, rfl⟩
    · rw [consistent.invalidate]
      exact ⟨.inr rfl, successes_cut errors_of_map⟩
  | reserve payload unixNano => cases stops
  | complete id prepareErr => cases stops
  | wait id done => cases stops

theorem Consistent.start {env opts dir opened writer}
    (opening : openDirWriterWithOps env dir opts = (.ok writer, opened)) :
    Consistent env.sums writer.suiteID writer.sequence (.start { writer, dir := opened }) where
  partition := Perm.refl _
  known := nofun
  ascending := Pairwise.nil
  sequences := rfl
  sequence := rfl
  written := nofun
  positioned := .inr (Log.Positioned.start opening)
  suite := rfl

end Shared

/-- The appends of any number of submitters, in any order of their critical sections and whatever
the file system answers: a reservation has at most one result, and gets it as soon as all
reservations up to it have been completed or its context is done; a record that was reported
stands where its reservation said; the records that were reported continue the sequence of the
log, in the order of the reservations; and after a failed write or sync, none is reported. -/
theorem reservations_settle {env : Env} {opts : Options} {dir opened : Directory} {writer : Writer}
    (opening : openDirWriterWithOps env dir opts = (.ok writer, opened)) {ops : List Op} {final : Shared}
    (ran : Machine.run (Shared.step env.sums) (.start { writer, dir := opened }) ops = some final) :
    ((final.results.map Prod.fst).Nodup ∧
      (∀ id ∈ final.results.map Prod.fst, id < final.issued.length) ∧
      (∀ id, (∀ earlier ≤ id, ∃ prepareErr, Op.complete earlier prepareErr ∈ ops) →
        ∀ weather : Nat → Faults × Option Err, ∃ count next, count ≤ final.reservations.length ∧
          Machine.run (Shared.step env.sums) final
            ((range count).map fun round => .commit (weather round).1 (weather round).2) = some next ∧
          id ∈ next.results.map Prod.fst) ∧
      ∀ id err, id < final.issued.length → (final.waitReservation id (some err)).2 ≠ none) ∧
    (∀ id position hash, (id, .ok (position, hash)) ∈ final.results →
      ∃ reservation, final.issued[id]? = some reservation ∧ reservation.position = position ∧
        WrittenAt env.sums writer.suiteID final.log.dir reservation hash) ∧
    ((final.successes.map Prod.fst).Pairwise (· < ·) ∧
      final.successes.map (·.2.1.sequence) = range' (writer.sequence + 1) final.successes.length) ∧
    ∀ before op after middle, ops = before ++ op :: after →
      Machine.run (Shared.step env.sums) (.start { writer, dir := opened }) before = some middle →
      middle.Stops op → final.successes = middle.successes := by
  have started := Shared.Consistent.start opening
  have consistent := started.run ran
  refine ⟨⟨(nodup_append.mp consistent.fresh).1, fun id member => consistent.id_lt.mpr (Or.inl member),
    ?_, fun id err made => consistent.wait_done made⟩, ?_, ⟨?_, consistent.sequences⟩, ?_⟩
  · intro id completed weather
    obtain ⟨count, next, bound, resting, rounds⟩ := consistent.drains weather
    refine ⟨count, next, bound, rounds, (consistent.run rounds).settled ?_ resting⟩
    intro earlier before
    exact consistent.run_done rounds (Or.inl (started.run_done ran (Or.inr (completed earlier before))))
  · intro id position hash member
    apply consistent.written id position hash
    exact mem_filterMap.mpr ⟨_, member, rfl⟩
  · exact (pairwise_append.mp consistent.ascending).1
  · rintro before op after middle rfl reached stops
    obtain ⟨between, ranBefore, rest⟩ := Machine.run_append_eq_some.mp ran
    obtain rfl := Option.some.inj (reached.symm.trans ranBefore)
    obtain ⟨next, stepped, later⟩ := Machine.run_cons_eq_some.mp rest
    have consistentBetween := started.run ranBefore
    obtain ⟨stopped, same⟩ := consistentBetween.stops stepped stops
    rw [(consistentBetween.stepped stepped).run_stopped stopped later, same]

/-- Three submitters: the second is ready first, the third gives up, and then a sync in the
background fails. -/
def Sample.submissions : List Op := [
  .reserve [1, 2] 5, .reserve [3] 6, .reserve [4] 7, .complete 1 none, .complete 0 none,
  .commit .none none, .commit .none none, .complete 2 (some (.text "signer")), .flush (.text "disk"),
  .reserve [5] 8]

open Sample

theorem reservations_settle_sample :
    ∃ writer opened final,
      openDirWriterWithOps (Sample.env "n") ∅ (Sample.opts "n") = (.ok writer, opened) ∧
      Machine.run (Shared.step (Sample.env "n").sums) (.start { writer, dir := opened }) Sample.submissions =
        some final ∧
      final.successes.map Prod.fst = [0, 1] ∧ final.successes.map (·.2.1.sequence) = [1, 2] ∧
      (final.results.map Prod.fst).Nodup := by
  have computed : ((openDirWriterWithOps (Sample.env "n") ∅ (Sample.opts "n")).1.toOption.bind fun writer =>
      (Machine.run (Shared.step (Sample.env "n").sums)
        (.start { writer, dir := (openDirWriterWithOps (Sample.env "n") ∅ (Sample.opts "n")).2 })
        Sample.submissions).map fun final => (writer.sequence, final.successes.map Prod.fst)) =
      some (0, [0, 1]) := by decide +kernel
  obtain ⟨writer, opened, rest⟩ := Option.bind_eq_some_iff.mp computed
  obtain ⟨final, ran, seen⟩ := Option.map_eq_some_iff.mp rest
  obtain ⟨first, ids⟩ := Prod.mk.inj seen
  have opening : openDirWriterWithOps (Sample.env "n") ∅ (Sample.opts "n") =
      (.ok writer, (openDirWriterWithOps (Sample.env "n") ∅ (Sample.opts "n")).2) := by
    generalize openDirWriterWithOps (Sample.env "n") ∅ (Sample.opts "n") = outcome at opened
    obtain ⟨_ | _, _⟩ := outcome
    · cases opened
    · cases opened
      rfl
  obtain ⟨⟨once, _⟩, _, ⟨_, sequences⟩, _⟩ := reservations_settle opening ran
  have count : final.successes.length = 2 := by simpa using congrArg length ids
  refine ⟨writer, _, final, opening, ran, ids, ?_, once⟩
  rw [sequences, first, count]
  rfl

end TrustDB.Wal
