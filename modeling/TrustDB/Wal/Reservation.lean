import TrustDB.Wal.RoundTrip

/-!
Package `wal`, concurrent appends. An append reserves the position of its record, prepares the
record without any lock, and completes the reservation; the head of the queue is written as
soon as it is ready. A reservation that fails takes the later ones with it, because their
positions were computed from its own.

Every step is one critical section. While the loop that writes the head of the queue is under
way, the lock of the reservations is held, and only the sync in the background comes between.
-/

namespace TrustDB.Wal

open Result CryptoSuite TrustCrypto Model Slice

structure Reservation where
  position : WALPosition
  after : AppendState
  payload : Bytes
  unixNano : Int

structure Pending where
  id : Nat
  reservation : Reservation
  ready : Bool

def Pending.complete (id : Nat) (pending : Pending) : Pending :=
  { pending with ready := pending.ready || pending.id = id }

abbrev Answer := Outcome (WALPosition × Digest)

/-- The writer with its queue. The reservations that were ever made are numbered in `issued`;
`results` lists what was sent to their channels, in the order of the sends. -/
structure Shared where
  log : Log
  issued : List Reservation
  reservations : List Pending
  results : List (Nat × Answer)

namespace Shared

variable (shared : Shared)

def start (log : Log) : Shared where
  log := log
  issued := []
  reservations := []
  results := []

def finished (id : Nat) : Bool := id ∈ shared.results.map Prod.fst

def finishReservationLocked (id : Nat) (result : Answer) : Shared :=
  if shared.finished id then shared
  else { shared with results := shared.results ++ [(id, result)] }

def invalidateReservationsLocked (first : Nat) (err : Err) : Shared :=
  (shared.reservations.drop first).foldl
    (fun shared pending => shared.finishReservationLocked pending.id (.error err)) shared

def clearReservationsFromLocked (first : Nat) : Shared :=
  { shared with reservations := shared.reservations.take first }

def reservationIndexLocked (id : Nat) : Option Nat :=
  shared.reservations.findIdx? (·.id = id)

def reserveAppend (payload : Bytes) (unixNano : Int) : Outcome Nat × Shared :=
  let reserved := do
    shared.log.writer.readyToAppendLocked
    let base := match shared.reservations.getLast? with
      | some last => last.reservation.after
      | none => shared.log.writer.appendState
    shared.log.writer.positionAfter base payload.length
  Result.chain (reserved, shared) fun (position, after) shared =>
    let id := shared.issued.length
    let reservation : Reservation := { position, after, payload, unixNano }
    (.ok id, { shared with
      issued := shared.issued ++ [reservation]
      reservations := shared.reservations ++ [{ id, reservation, ready := false }] })

def failReservation (id index : Nat) (err : Err) : Shared :=
  ((shared.finishReservationLocked id (.error err)).invalidateReservationsLocked (index + 1)
    errAppendReservationInvalidated).clearReservationsFromLocked index

def completeReservation (id : Nat) (prepareErr : Option Err) : Shared :=
  if shared.finished id then shared
  else
    match shared.reservationIndexLocked id with
    | none => shared
    | some index =>
      match prepareErr with
      | some err => shared.failReservation id index err
      | none => { shared with reservations := shared.reservations.map (Pending.complete id) }

def cancelReservation (id : Nat) (err : Err) : Shared :=
  if shared.finished id then shared
  else
    match shared.reservationIndexLocked id with
    | none => shared
    | some index => shared.failReservation id index err

/-- `done` is the error of the request's context, once it is done. No result means that the
submitter goes on waiting. -/
def waitReservation (id : Nat) (done : Option Err) : Shared × Option Answer :=
  let shared := match done with
    | some err => shared.cancelReservation id err
    | none => shared
  (shared, (shared.results.find? (·.1 = id)).map Prod.snd)

/-- The condition of the loop in `drainReservationsLocked`. -/
def draining : Bool := shared.reservations.head?.any (·.ready)

/-- One round of `drainReservationsLocked`. -/
def commitHead (sums : Sums) (faults : Faults) (ctxErr : Option Err) : Shared :=
  match shared.reservations with
  | [] => shared
  | head :: rest =>
    let (result, log) := shared.log.commitAtExpected sums faults ctxErr head.reservation.payload
      head.reservation.unixNano head.reservation.position
    let popped := { shared.finishReservationLocked head.id result with log, reservations := rest }
    match result with
    | .ok _ => popped
    | .error _ =>
      (popped.invalidateReservationsLocked 0 errAppendReservationInvalidated).clearReservationsFromLocked 0

def close : Shared :=
  if shared.log.writer.closed then shared
  else
    { (shared.invalidateReservationsLocked 0 errWriterClosed).clearReservationsFromLocked 0 with
      log := shared.log.close.2 }

/-- `flushGroupTimer` with a sync that fails. -/
def flushGroupTimer (cause : Err) : Shared :=
  if shared.log.writer.closed = true ∨ shared.log.writer.file = none ∨ shared.log.writer.stickyErr ≠ none then
    shared
  else
    { shared with log := (shared.log.poison (α := Unit) (.textOf "wal: background group sync" cause)).2 }

end Shared

inductive Op
  | reserve (payload : Bytes) (unixNano : Int)
  | complete (id : Nat) (prepareErr : Option Err)
  | wait (id : Nat) (done : Option Err)
  | close
  | commit (faults : Faults) (ctxErr : Option Err)
  | flush (cause : Err)

/-- A step is not possible while the lock that it needs is held, before the reservation that it
is about, or as long as there is nothing to receive. -/
def Shared.step (sums : Sums) (shared : Shared) : Op → Option Shared
  | .reserve payload unixNano =>
    if shared.draining then none else some (shared.reserveAppend payload unixNano).2
  | .complete id prepareErr =>
    if shared.draining ∨ shared.issued.length ≤ id then none
    else some (shared.completeReservation id prepareErr)
  | .wait id done =>
    if shared.draining ∧ done ≠ none ∨ shared.issued.length ≤ id then none
    else match shared.waitReservation id done with
      | (next, some _) => some next
      | (_, none) => none
  | .close => if shared.draining then none else some shared.close
  | .commit faults ctxErr => if shared.draining then some (shared.commitHead sums faults ctxErr) else none
  | .flush cause => some (shared.flushGroupTimer cause)

def Directory.Grows (dir next : Directory) : Prop :=
  ∀ name data, dir.lookup name = some (.file data) → ∃ more, next.lookup name = some (.file (data ++ more))

section

variable {dir next last : Directory} {name : String} {data more : Bytes}

theorem Directory.Grows.refl (dir : Directory) : dir.Grows dir :=
  fun _ data stored => ⟨[], by rw [List.append_nil]; exact stored⟩

theorem Directory.Grows.trans (first : dir.Grows next) (second : next.Grows last) : dir.Grows last := by
  intro name data stored
  obtain ⟨more, there⟩ := first name data stored
  obtain ⟨rest, here⟩ := second name _ there
  exact ⟨more ++ rest, by rw [← List.append_assoc]; exact here⟩

theorem Directory.Grows.append (stored : dir.lookup name = some (.file data)) :
    dir.Grows (dir.insert name (.file (data ++ more))) := by
  intro other content there
  by_cases same : other = name
  · subst same
    obtain rfl : data = content := by simpa using stored.symm.trans there
    exact ⟨more, AList.lookup_insert _⟩
  · exact ⟨[], by rw [AList.lookup_insert_ne same, there, List.append_nil]⟩

theorem Directory.Grows.create (free : dir.lookup name = none) :
    dir.Grows (dir.insert name (.file data)) := by
  intro other content there
  have differs : other ≠ name := by
    rintro rfl
    rw [free] at there
    cases there
  exact ⟨[], by rw [AList.lookup_insert_ne differs, there, List.append_nil]⟩

end

namespace Log

variable {err : Err}

def Stopped (log : Log) : Prop := log.writer.stickyErr ≠ none ∨ log.writer.closed = true

def Positioned (log : Log) : Prop :=
  log.writer.file = some (segmentName log.writer.segmentID) ∧
    ∃ data, log.dir.lookup (segmentName log.writer.segmentID) = some (.file data) ∧
      data.length = log.writer.offset

structure Halts (log next : Log) : Prop where
  sequence : next.writer.sequence = log.writer.sequence
  suite : next.writer.suiteID = log.writer.suiteID
  grows : log.dir.Grows next.dir
  halted : next = log ∨ next.Stopped

variable {log next : Log} {faults : Faults} {sums : Sums} {payload : Bytes} {unixNano : Int}

theorem Halts.refl (log : Log) : log.Halts log := ⟨rfl, rfl, .refl _, .inl rfl⟩

theorem poison_halts {α : Type} {other : Log} {cause : Err}
    (poisoned : (other.poison cause : Outcome α × Log) = (.error err, next))
    (sequence : other.writer.sequence = log.writer.sequence)
    (suite : other.writer.suiteID = log.writer.suiteID) (grows : log.dir.Grows other.dir) :
    log.Halts next ∧ next.Stopped := by
  obtain ⟨_, rfl⟩ := Prod.mk.inj poisoned
  have stopped : (other.poison cause : Outcome α × Log).2.Stopped := .inl nofun
  exact ⟨⟨sequence, suite, grows, .inr stopped⟩, stopped⟩

theorem rotateLocked_error (notLast : log.writer.segmentID ≠ maxUint64)
    (failed : log.rotateLocked faults = (.error err, next)) : log.Halts next ∧ next.Stopped := by
  rw [rotateLocked, if_neg notLast] at failed
  split at failed
  · exact poison_halts failed rfl rfl (.refl _)
  · dsimp only at failed
    split at failed
    · exact poison_halts failed rfl rfl (.refl _)
    · rename_i dir created
      simp only [bind_eq_ok, mapError_eq_ok, Directory.createFile_eq_ok] at created
      obtain ⟨_, _, _, _, free, rfl⟩ := created
      split at failed
      · exact poison_halts failed rfl rfl (.create free)
      · cases failed

theorem writeLocked_error (failed : log.writeLocked sums faults payload unixNano = (.error err, next)) :
    log.Halts next ∧ next.Stopped := by
  simp only [writeLocked] at failed
  split at failed
  · refine poison_halts failed rfl rfl ?_
    generalize part : log.dir.appendFile _ _ = outcome
    cases outcome with
    | error cause => exact .refl _
    | ok dir =>
      obtain ⟨data, stored, _, rfl⟩ := Directory.appendFile_eq_ok.mp part
      exact .append stored
  · split at failed
    · exact poison_halts failed rfl rfl (.refl _)
    · rename_i dir appended
      obtain ⟨data, stored, _, rfl⟩ := Directory.appendFile_eq_ok.mp appended
      split at failed
      · exact poison_halts failed rfl rfl (.append stored)
      · cases failed

def Admits (log : Log) (ctxErr : Option Err) (payload : Bytes) (expected : WALPosition) : Prop :=
  validatePayloadLength payload.length = .ok () ∧ ctxErr = none ∧
    log.writer.readyToAppendLocked = .ok () ∧ log.writer.nextPositionLocked payload.length = .ok expected

variable {ctxErr : Option Err} {expected : WALPosition} {answer : WALPosition × Digest}

theorem commitAtExpected_admitted (admits : log.Admits ctxErr payload expected) :
    log.commitAtExpected sums faults ctxErr payload unixNano expected =
      if log.writer.rotates log.writer.offset payload.length then
        Result.chain (log.rotateLocked faults) fun _ log => log.writeLocked sums faults payload unixNano
      else log.writeLocked sums faults payload unixNano := by
  obtain ⟨length, rfl, ready, reserved⟩ := admits
  simp only [commitAtExpected, length, raise, ready, reserved, ok_bind, ne_eq,
    not_true_eq_false, reject_of_not, not_false_eq_true, chain_ok]

theorem commitAtExpected_refused (refuses : ¬log.Admits ctxErr payload expected) :
    ∃ err, log.commitAtExpected sums faults ctxErr payload unixNano expected = (.error err, log) := by
  rw [commitAtExpected]
  generalize checks : (do
    validatePayloadLength payload.length
    raise ctxErr
    log.writer.readyToAppendLocked
    let position ← log.writer.nextPositionLocked payload.length
    reject (position ≠ expected) errAppendReservationInvalidated : Outcome Unit) = admitted
  cases admitted with
  | error err => exact ⟨err, rfl⟩
  | ok _ =>
    simp only [bind_eq_ok, raise_eq_ok, reject_eq_ok] at checks
    obtain ⟨_, length, _, alive, _, ready, position, reserved, same⟩ := checks
    exact absurd ⟨length, alive, ready, not_not.mp same ▸ reserved⟩ refuses

theorem rotates_notLast {position} (rotates : log.writer.rotates log.writer.offset payload.length)
    (reserved : log.writer.nextPositionLocked payload.length = .ok position) :
    log.writer.segmentID ≠ maxUint64 := by
  simp only [Writer.nextPositionLocked, Writer.positionAfter, bind_eq_ok, reject_eq_ok] at reserved
  obtain ⟨_, ⟨_, _, _, notLast, _⟩, _⟩ := reserved
  exact fun last => notLast ⟨rotates, last⟩

theorem commitAtExpected_error
    (failed : log.commitAtExpected sums faults ctxErr payload unixNano expected = (.error err, next)) :
    log.Halts next ∧ (log.Admits ctxErr payload expected → next.Stopped) := by
  by_cases admits : log.Admits ctxErr payload expected
  · rw [commitAtExpected_admitted admits] at failed
    suffices halts : log.Halts next ∧ next.Stopped from ⟨halts.1, fun _ => halts.2⟩
    by_cases rotates : log.writer.rotates log.writer.offset payload.length
    · rw [if_pos rotates] at failed
      have notLast := rotates_notLast rotates admits.2.2.2
      generalize rotation : log.rotateLocked faults = outcome at failed
      obtain ⟨outcome, rotated⟩ := outcome
      cases outcome with
      | error cause =>
        obtain ⟨_, rfl⟩ := Prod.mk.inj failed
        exact rotateLocked_error notLast rotation
      | ok _ =>
        obtain ⟨halts, stopped⟩ := writeLocked_error failed
        obtain ⟨_, free, rfl⟩ := rotateLocked_eq_ok rotation
        exact ⟨⟨halts.sequence, halts.suite, (Directory.Grows.create free).trans halts.grows,
          .inr stopped⟩, stopped⟩
    · rw [if_neg rotates] at failed
      exact writeLocked_error failed
  · obtain ⟨other, refused⟩ := @commitAtExpected_refused log faults sums payload unixNano _ _ admits
    rw [refused] at failed
    obtain ⟨_, rfl⟩ := Prod.mk.inj failed
    exact ⟨.refl _, fun admitted => absurd admitted admits⟩

end Log

def WrittenAt (sums : Sums) (suiteID : ID) (dir : Directory) (reservation : Reservation) (hash : Digest) :
    Prop :=
  ∃ data start prev, dir.lookup (segmentName reservation.position.segmentID) = some (.file data) ∧
    reservation.position.offset = (start : Nat) ∧
    let (encoded, recordHash) := encodeRecordIntoForSuite sums (suiteProvider suiteID)
      reservation.position.segmentID reservation.position.sequence reservation.unixNano prev
      reservation.payload
    recordHash = hash ∧ slice start encoded.length data = encoded

theorem WrittenAt.grows {sums suiteID dir next reservation hash}
    (written : WrittenAt sums suiteID dir reservation hash) (grows : dir.Grows next) :
    WrittenAt sums suiteID next reservation hash := by
  obtain ⟨data, start, prev, stored, offset, hashed, found⟩ := written
  obtain ⟨more, there⟩ := grows _ data stored
  refine ⟨data ++ more, start, prev, there, offset, hashed, ?_⟩
  rw [slice_append (congrArg List.length found), found]

namespace Log

variable {log next : Log} {faults : Faults} {sums : Sums} {payload : Bytes} {unixNano : Int}
  {ctxErr : Option Err} {expected : WALPosition} {answer : WALPosition × Digest}

theorem Positioned.write (positioned : log.Positioned)
    (wrote : log.writeLocked sums faults payload unixNano = (.ok answer, next)) :
    answer.1 = log.writer.cursor.position ∧ next.Positioned ∧
      next.writer.sequence = log.writer.sequence + 1 ∧ next.writer.suiteID = log.writer.suiteID ∧
      log.dir.Grows next.dir ∧ WrittenAt sums log.writer.suiteID next.dir
        { position := log.writer.cursor.position, after := next.writer.appendState, payload, unixNano }
        answer.2 := by
  obtain ⟨file, data, stored, length⟩ := positioned
  obtain ⟨rfl, other, same, rfl⟩ := writeLocked_eq_ok wrote
  have name : log.writer.file.getD "" = segmentName log.writer.segmentID := by
    rw [file, Option.getD_some]
  rw [name, stored] at same
  obtain rfl : data = other := by simpa using same
  rw [name]
  refine ⟨rfl, ⟨file, _, AList.lookup_insert _, ?_⟩, rfl, rfl, .append stored, ?_⟩
  · rw [List.length_append, length, Cursor.frame_length]
  · refine ⟨_, log.writer.offset, log.writer.prevHash, AList.lookup_insert _, rfl, rfl, ?_⟩
    rw [← length, slice_skip (le_rfl), Nat.sub_self]
    exact slice_all rfl

theorem Positioned.start {env opts dir opened writer}
    (opening : openDirWriterWithOps env dir opts = (.ok writer, opened)) :
    ({ writer, dir := opened } : Log).Positioned := by
  obtain ⟨⟨binding, segments⟩, between, _, ensuring⟩ := chain_eq_ok.mp opening
  obtain ⟨_, ensured, _, choosing⟩ := chain_eq_ok.mp ensuring
  dsimp only at choosing
  split at choosing
  · split at choosing
    · cases choosing
    · rename_i created creation
      obtain ⟨_, rfl⟩ := Directory.createFile_eq_ok.mp creation
      obtain ⟨rfl, rfl⟩ : _ = writer ∧ _ = opened := by simpa using choosing
      exact ⟨rfl, [], AList.lookup_insert _, rfl⟩
  · obtain ⟨reopened, rfl⟩ := Prod.mk.inj choosing
    simp only [bind_eq_ok, mapError_eq_ok, Directory.readFile_eq_ok, return_eq_ok] at reopened
    obtain ⟨_, _, data, stored, rfl⟩ := reopened
    exact ⟨rfl, data, stored, rfl⟩

theorem Positioned.commit (positioned : log.Positioned) (after : AppendState)
    (committed : log.commitAtExpected sums faults ctxErr payload unixNano expected = (.ok answer, next)) :
    answer.1 = expected ∧ next.Positioned ∧ next.writer.sequence = log.writer.sequence + 1 ∧
      expected.sequence = log.writer.sequence + 1 ∧
      next.writer.suiteID = log.writer.suiteID ∧ log.dir.Grows next.dir ∧
      WrittenAt sums log.writer.suiteID next.dir { position := expected, after, payload, unixNano } answer.2 := by
  obtain ⟨_, _, _, reserved, done⟩ := commitAtExpected_eq_ok committed
  simp only [Writer.nextPositionLocked, Writer.positionAfter, bind_eq_ok, reject_eq_ok,
    return_eq_ok] at reserved
  obtain ⟨_, ⟨_, _, _, _, rfl⟩, rfl⟩ := reserved
  by_cases rotates : log.writer.rotates log.writer.offset payload.length
  · simp only [Writer.appendState, rotates, if_true, true_and] at done ⊢
    obtain ⟨rotated, rotation, wrote⟩ := done
    obtain ⟨_, free, rfl⟩ := rotateLocked_eq_ok rotation
    obtain ⟨answered, ends, sequence, suite, grows, written⟩ :=
      Positioned.write ⟨rfl, _, AList.lookup_insert _, rfl⟩ wrote
    exact ⟨answered, ends, sequence, suite, (Directory.Grows.create free).trans grows, written⟩
  · simp only [Writer.appendState, rotates, if_false, Bool.false_eq_true, true_and] at done ⊢
    obtain ⟨answered, ends, sequence, suite, grows, written⟩ := positioned.write done
    exact ⟨answered, ends, sequence, suite, grows, written⟩

end Log

variable {log next : Log} {faults : Faults}

def Faults.Strike (faults : Faults) (rotates : Bool) : Prop :=
  rotates = true ∧ (faults.syncBefore ≠ .none ∨ faults.closeBefore ≠ .none ∨ faults.openNext ≠ .none ∨
    faults.publish ≠ .none) ∨ faults.write ≠ .none ∨ faults.sync ≠ .none

theorem Log.rotateLocked_clean (rotated : log.rotateLocked faults = (.ok (), next)) :
    faults.syncBefore = none ∧ faults.closeBefore = none ∧ faults.openNext = none ∧ faults.publish = none := by
  simp only [rotateLocked] at rotated
  split at rotated
  · cases rotated
  · split at rotated
    · cases rotated
    · rename_i syncBefore
      split at rotated
      · cases rotated
      · rename_i dir created
        split at rotated
        · cases rotated
        · rename_i publish
          simp only [bind_eq_ok, mapError_eq_ok, raise_eq_ok] at created
          obtain ⟨_, closeBefore, _, openNext, _⟩ := created
          exact ⟨syncBefore, closeBefore, openNext, publish⟩

theorem Log.writeLocked_clean {sums payload unixNano answer}
    (wrote : log.writeLocked sums faults payload unixNano = (.ok answer, next)) :
    faults.write = none ∧ faults.sync = none := by
  simp only [writeLocked] at wrote
  split at wrote
  · cases wrote
  · rename_i write
    split at wrote
    · cases wrote
    · split at wrote
      · cases wrote
      · rename_i sync
        exact ⟨write, sync⟩

theorem Log.commitAtExpected_clean {sums ctxErr payload unixNano expected answer}
    (committed : log.commitAtExpected sums faults ctxErr payload unixNano expected = (.ok answer, next)) :
    ¬faults.Strike (log.writer.rotates log.writer.offset payload.length) := by
  obtain ⟨_, _, _, _, done⟩ := commitAtExpected_eq_ok committed
  by_cases rotates : log.writer.rotates log.writer.offset payload.length
  · rw [if_pos rotates] at done
    obtain ⟨rotated, rotation, wrote⟩ := done
    simp [Faults.Strike, rotateLocked_clean rotation, writeLocked_clean wrote]
  · rw [if_neg rotates] at done
    simp [Faults.Strike, rotates, writeLocked_clean done]

end TrustDB.Wal
