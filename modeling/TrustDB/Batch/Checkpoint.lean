import Mathlib
import TrustDB.ModelSuite
import TrustDB.Search

/-!
Package `batch`, the WAL checkpoint of the service. Committed positions are kept as runs of
adjacent sequences, sorted and apart from each other; the frontier moves over the runs that
join it without a gap, and is written to the store when it has moved.
-/

namespace TrustDB

open Result

namespace Model

structure WALCheckpoint where
  schemaVersion : String
  cryptoSuite : CryptoSuite.ID
  nodeID : String
  walID : String
  segmentID : Nat
  lastSequence : Nat
  lastOffset : Int
  batchID : String
  recordedAtUnixN : Int
  deriving Repr, DecidableEq, Inhabited

def schemaWALCheckpointContiguous : String := "trustdb.wal-checkpoint.v3"

def WALCheckpoint.position (checkpoint : WALCheckpoint) : WALPosition where
  segmentID := checkpoint.segmentID
  offset := checkpoint.lastOffset
  sequence := checkpoint.lastSequence

end Model

namespace Batch

open CryptoSuite (ID)
open Model

def maxCheckpointCoverageRuns : Nat := 4096

def maxSequence : Nat := 2 ^ 64 - 1

structure Accepted where
  signed : SignedClaim
  record : ServerRecord
  accepted : AcceptedReceipt
  deriving Repr, DecidableEq, Inhabited

structure WALCoverageRun where
  fromSeq : Nat
  upTo : WALPosition
  batchID : String
  deriving Repr, DecidableEq, Inhabited

def conflictingPositions : Err := .new .dataLoss "wal sequence maps to conflicting positions"

structure Service where
  suiteID : ID
  configErr : Option Err
  checkpointEnabled : Bool
  checkpointDeferred : Bool
  checkpointLoaded : Bool
  checkpointFrontier : WALCheckpoint
  checkpointPersistedSeq : Nat
  checkpointCoverage : List WALCoverageRun
  deriving Repr, DecidableEq

/-- The checkpoint that the store holds, and the writes that it acknowledged, oldest first. -/
structure CheckpointStore where
  checkpoint : Option WALCheckpoint
  written : List WALCheckpoint
  deriving Repr, DecidableEq

/-- What the store and the clock do in one call. A write that fails may have replaced the
checkpoint all the same. -/
structure CheckpointIO where
  getCheckpoint : Option Err
  putCheckpoint : Option (Err × Bool)
  now : Int
  deriving Repr, DecidableEq

structure System where
  service : Service
  store : CheckpointStore
  deriving Repr, DecidableEq

def walPositionLess (left right : WALPosition) : Bool :=
  if left.sequence ≠ right.sequence then left.sequence < right.sequence
  else if left.segmentID ≠ right.segmentID then left.segmentID < right.segmentID
  else left.offset < right.offset

def appendWALCoveragePosition (runs : List WALCoverageRun) (pos : WALPosition) (batchID : String) :
    Outcome (List WALCoverageRun) :=
  if pos.sequence = 0 then .ok runs
  else
    match runs.getLast? with
    | none => .ok [{ fromSeq := pos.sequence, upTo := pos, batchID }]
    | some current =>
      if pos.sequence = current.upTo.sequence then
        if pos.segmentID ≠ current.upTo.segmentID ∨ pos.offset ≠ current.upTo.offset then
          .error conflictingPositions
        else .ok runs
      else if pos.sequence = current.upTo.sequence + 1 then
        .ok (runs.dropLast ++ [{ current with upTo := pos, batchID }])
      else .ok (runs ++ [{ fromSeq := pos.sequence, upTo := pos, batchID }])

def appendWALCoveragePositions (batchID : String) (runs : List WALCoverageRun)
    (positions : List WALPosition) : Outcome (List WALCoverageRun) :=
  positions.foldlM (fun runs pos => appendWALCoveragePosition runs pos batchID) runs

def walCoverageRuns (positions : List WALPosition) (batchID : String) : Outcome (List WALCoverageRun) :=
  let sorted := positions.IsChain fun before after => ¬walPositionLess after before
  let ordered := if sorted then positions
    else positions.insertionSort fun before after => ¬walPositionLess after before
  appendWALCoveragePositions batchID [] ordered

def validateRecordIDsFrom (seen : List String) : List Accepted → Outcome Unit
  | [] => .ok ()
  | item :: rest =>
    if item.signed.claim.idempotencyKey ≠ "" then validateRecordIDsFrom seen rest
    else if item.record.recordID ∈ seen then
      .error (.new .dataLoss "batch contains a duplicate record id without idempotency protection")
    else validateRecordIDsFrom (item.record.recordID :: seen) rest

def validateCheckpointRecordIDs (items : List Accepted) : Outcome Unit :=
  validateRecordIDsFrom [] items

def sortedFrom (previous : Option WALPosition) : List Accepted → Bool
  | [] => true
  | item :: rest =>
    let position := item.record.wal
    if position.sequence = 0 then sortedFrom previous rest
    else if previous.any (walPositionLess position) then false
    else sortedFrom (some position) rest

def acceptedWALPositionsSorted (items : List Accepted) : Bool := sortedFrom none items

def sequencesTouch (leftEnd rightStart : Nat) : Bool :=
  rightStart ≤ leftEnd || (leftEnd ≠ maxSequence && rightStart ≤ leftEnd + 1)

/-- The body of the loop that takes one more run of the coverage into `run`. -/
def absorb (run existing : WALCoverageRun) : Outcome WALCoverageRun :=
  let run := if existing.fromSeq < run.fromSeq then { run with fromSeq := existing.fromSeq } else run
  if run.upTo.sequence < existing.upTo.sequence then
    .ok { run with upTo := existing.upTo, batchID := existing.batchID }
  else if existing.upTo.sequence = run.upTo.sequence then
    if existing.upTo.segmentID ≠ run.upTo.segmentID ∨ existing.upTo.offset ≠ run.upTo.offset then
      .error conflictingPositions
    else .ok run
  else .ok run

def absorbAll (run : WALCoverageRun) : List WALCoverageRun → Outcome (WALCoverageRun × List WALCoverageRun)
  | [] => .ok (run, [])
  | existing :: rest =>
    if sequencesTouch run.upTo.sequence existing.fromSeq then do
      let run ← absorb run existing
      absorbAll run rest
    else .ok (run, existing :: rest)

def mergeCheckpointCoverageLocked (coverage : List WALCoverageRun) (run : WALCoverageRun) :
    Outcome (List WALCoverageRun) := do
  let first := Search.searchList (fun existing => sequencesTouch existing.upTo.sequence run.fromSeq) coverage
  let (run, rest) ← absorbAll run (coverage.drop first)
  return (coverage.take first ++ run :: rest).take maxCheckpointCoverageRuns

def consume (frontier : WALCheckpoint) : List WALCoverageRun → WALCheckpoint × List WALCoverageRun
  | [] => (frontier, [])
  | run :: rest =>
    if run.upTo.sequence ≤ frontier.lastSequence then consume frontier rest
    else if frontier.lastSequence = maxSequence then (frontier, run :: rest)
    else if frontier.lastSequence + 1 < run.fromSeq then (frontier, run :: rest)
    else consume { frontier with
      segmentID := run.upTo.segmentID
      lastSequence := run.upTo.sequence
      lastOffset := run.upTo.offset
      batchID := run.batchID } rest

def Service.consumeCheckpointCoverageLocked (service : Service) : Service :=
  let (frontier, coverage) := consume service.checkpointFrontier service.checkpointCoverage
  { service with checkpointFrontier := frontier, checkpointCoverage := coverage }

def Service.nextCheckpoint (service : Service) (now : Int) : WALCheckpoint :=
  { service.checkpointFrontier with
    schemaVersion := schemaWALCheckpointContiguous
    cryptoSuite := service.suiteID
    recordedAtUnixN := now }

def validateLoadedCheckpoint (suiteID : ID) (existing : WALCheckpoint) : Outcome Unit := do
  reject (existing.schemaVersion ≠ schemaWALCheckpointContiguous)
    (.new .failedPrecondition ("unsupported wal checkpoint schema: " ++ existing.schemaVersion))
  (CryptoSuite.requireSame suiteID [existing.cryptoSuite]).mapError
    (.wrap .dataLoss "wal checkpoint crypto_suite")
  reject (0 < existing.lastSequence ∧ (existing.segmentID = 0 ∨ existing.lastOffset < 0))
    (.new .dataLoss "contiguous wal checkpoint has an invalid position")

namespace System

/-- The first part of `flushCheckpointLocked`. -/
def loadCheckpoint (io : CheckpointIO) (system : System) : Outcome Unit × System :=
  if system.service.checkpointLoaded then (.ok (), system)
  else
    match io.getCheckpoint with
    | some failure => (.error (.wrap .dataLoss "load wal checkpoint" failure), system)
    | none =>
      match system.store.checkpoint with
      | none => (.ok (), { system with service := { system.service with checkpointLoaded := true } })
      | some existing =>
        chain (validateLoadedCheckpoint system.service.suiteID existing, system) fun _ system =>
          (.ok (), { system with service := { system.service with
            checkpointFrontier := existing
            checkpointPersistedSeq := existing.lastSequence
            checkpointLoaded := true } })

def putCheckpoint (io : CheckpointIO) (checkpoint : WALCheckpoint) (store : CheckpointStore) :
    Outcome Unit × CheckpointStore :=
  match io.putCheckpoint with
  | some (failure, replaced) =>
    (.error failure, if replaced then { store with checkpoint := some checkpoint } else store)
  | none =>
    (.ok (), { checkpoint := some checkpoint, written := store.written ++ [checkpoint] })

/-- The second part of `flushCheckpointLocked`. -/
def writeCheckpoint (io : CheckpointIO) (system : System) : Outcome Unit × System :=
  let service := system.service.consumeCheckpointCoverageLocked
  if service.checkpointDeferred ∨ service.checkpointFrontier.lastSequence ≤ service.checkpointPersistedSeq then
    (.ok (), { system with service })
  else
    let cp := service.nextCheckpoint io.now
    chain (putCheckpoint io cp system.store |>.map id fun store => { service, store }) fun _ system =>
      (.ok (), { system with service := { system.service with
        checkpointFrontier := cp
        checkpointPersistedSeq := cp.lastSequence } })

def flushCheckpointLocked (io : CheckpointIO) (system : System) : Outcome Unit × System :=
  chain (loadCheckpoint io system) fun _ system => writeCheckpoint io system

/-- The loop of `addCheckpointCoverage` under the lock. -/
def mergeRuns (system : System) : List WALCoverageRun → Outcome Unit × System
  | [] => (.ok (), system)
  | run :: rest =>
    if run.fromSeq = 0 ∨ run.upTo.sequence < run.fromSeq then mergeRuns system rest
    else
      match mergeCheckpointCoverageLocked system.service.checkpointCoverage run with
      | .error failure => (.error failure, system)
      | .ok coverage =>
        mergeRuns { system with service := { system.service with checkpointCoverage := coverage } } rest

def addCheckpointCoverage (io : CheckpointIO) (runs : List WALCoverageRun) (system : System) :
    Outcome Unit × System :=
  if runs = [] then (.ok (), system)
  else chain (mergeRuns system runs) fun _ system => flushCheckpointLocked io system

def advanceCheckpoint (io : CheckpointIO) (batchID : String) (items : List Accepted) (system : System) :
    Outcome Unit × System :=
  if ¬system.service.checkpointEnabled then (.ok (), system)
  else
    let runs : Outcome (List WALCoverageRun) := do
      validateCheckpointRecordIDs items
      if acceptedWALPositionsSorted items then
        appendWALCoveragePositions batchID [] (items.map fun item => item.record.wal)
      else
        let positions := (items.map fun item => item.record.wal).filter fun position => 0 < position.sequence
        walCoverageRuns positions batchID
    chain (runs, system) fun runs system => addCheckpointCoverage io runs system

def recordCommittedWALRange (io : CheckpointIO) (start upTo : WALPosition) (batchID : String)
    (system : System) : Outcome Unit × System :=
  match system.service.configErr with
  | some failure => (.error failure, system)
  | none =>
    if ¬system.service.checkpointEnabled then (.ok (), system)
    else if start.sequence = 0 ∨ upTo.sequence = 0 then (.ok (), system)
    else if upTo.sequence < start.sequence then
      (.error (.new .invalidArgument "committed wal range is reversed"), system)
    else addCheckpointCoverage io [{ fromSeq := start.sequence, upTo, batchID }] system

def deferCheckpointAdvance (system : System) : System :=
  if ¬system.service.checkpointEnabled then system
  else { system with service := { system.service with checkpointDeferred := true } }

def startCheckpointAdvance (io : CheckpointIO) (system : System) : Outcome Unit × System :=
  match system.service.configErr with
  | some failure => (.error failure, system)
  | none =>
    if ¬system.service.checkpointEnabled then (.ok (), system)
    else flushCheckpointLocked io
      { system with service := { system.service with checkpointDeferred := false } }

end System

structure Options where
  suiteID : ID
  configErr : Option Err
  checkpointEnabled : Bool
  deferCheckpointAdvance : Bool
  deriving Repr, DecidableEq

def Service.new (options : Options) : Service where
  suiteID := options.suiteID
  configErr := options.configErr
  checkpointEnabled := options.checkpointEnabled
  checkpointDeferred := options.deferCheckpointAdvance
  checkpointLoaded := false
  checkpointFrontier := default
  checkpointPersistedSeq := 0
  checkpointCoverage := []

/-- The calls that move the checkpoint. A restart builds a new service over the same store. -/
inductive Op
  | commit (io : CheckpointIO) (batchID : String) (items : List Accepted)
  | scanned (io : CheckpointIO) (start upTo : WALPosition) (batchID : String)
  | pause
  | resume (io : CheckpointIO)
  | restart (options : Options)
  deriving Repr, DecidableEq

def System.step (system : System) : Op → System
  | .commit io batchID items => (system.advanceCheckpoint io batchID items).2
  | .scanned io start upTo batchID => (system.recordCommittedWALRange io start upTo batchID).2
  | .pause => system.deferCheckpointAdvance
  | .resume io => (system.startCheckpointAdvance io).2
  | .restart options => { system with service := .new options }

def System.start (options : Options) (checkpoint : Option WALCheckpoint) : System where
  service := .new options
  store := { checkpoint, written := [] }

end Batch

end TrustDB
