import Mathlib
import TrustDB.AnchorSchedule.Core
import TrustDB.ProofStore.Pebble

/-!
The anchor tables of the proof store over Pebble: schedules, results, the roots of anchored
trees and the references to the latest results, one over all streams and one per stream. Every
database access may fail; a batch is committed as a whole or not at all, and the rebuilding of a
reference is a write of its own. Results are listed in the order of their keys, which is that of
`CompareResultKeys`: the size first, in a fixed number of digits, then the encoded identity.
-/

namespace TrustDB.ProofStore

open Result CryptoSuite Model AnchorSchedule

structure AnchorTables where
  schedules : Table STHAnchorScheduleKey STHAnchorSchedule
  results : Table STHAnchorResultKey STHAnchorResult
  latest : Table (Option STHAnchorScheduleKey) STHAnchorLatestReference
  roots : Table (String × String × Nat) Bytes

def AnchorTables.empty : AnchorTables where
  schedules := ∅
  results := ∅
  latest := ∅
  roots := ∅

inductive AnchorAccess
  | start
  | schedule (key : STHAnchorScheduleKey)
  | result (key : STHAnchorResultKey)
  | latest (stream : Option STHAnchorScheduleKey)
  | scan
  | setLatest (stream : Option STHAnchorScheduleKey)
  | root (nodeID logID : String) (treeSize : Nat)
  | commit

abbrev AnchorFaults := AnchorAccess → Option Err

inductive AnchorWrite
  | schedule (schedule : STHAnchorSchedule)
  | result (result : STHAnchorResult)
  | latest (stream : Option STHAnchorScheduleKey) (ref : STHAnchorLatestReference)
  | root (nodeID logID : String) (treeSize : Nat) (rootHash : Bytes)

def AnchorTables.write (tables : AnchorTables) : AnchorWrite → AnchorTables
  | .schedule schedule => { tables with schedules := tables.schedules.insert schedule.key schedule }
  | .result result => { tables with results := tables.results.insert (resultKey result) result }
  | .latest stream ref => { tables with latest := tables.latest.insert stream ref }
  | .root nodeID logID treeSize rootHash =>
    { tables with roots := tables.roots.insert (nodeID, logID, treeSize) rootHash }

namespace Pebble

section

variable (library : Library) (suite : ID) (faults : AnchorFaults)

def accessing (access : AnchorAccess) (code : Code) (message : String) : Outcome Unit :=
  raise ((faults access).map (.wrap code message))

def commitBatch (message : String) (writes : List AnchorWrite) (tables : AnchorTables) :
    Outcome Unit × AnchorTables :=
  match faults .commit with
  | some cause => (.error (.wrap .dataLoss message cause), tables)
  | none => (.ok (), writes.foldl AnchorTables.write tables)

def commitSTHAnchorSchedule (schedule : STHAnchorSchedule) (operation : String) (tables : AnchorTables) :
    Outcome Unit × AnchorTables :=
  commitBatch faults operation [.schedule schedule] tables

def readSTHAnchorSchedule (tables : AnchorTables) (key : STHAnchorScheduleKey) :
    Outcome (Option STHAnchorSchedule) := do
  accessing faults (.schedule key) .dataLoss "read sth anchor schedule"
  match tables.schedules.lookup key with
  | none => return none
  | some schedule => do
    (validateSchedule schedule).mapError (.wrap .dataLoss "validate stored sth anchor schedule")
    reject (sameKey schedule.key key = false)
      (.new .dataLoss "stored STH anchor schedule key does not match lookup")
    return some schedule

def validateStoredSTHAnchorResult (result : STHAnchorResult) : Outcome Unit :=
  (validateResult library (streamOf result) result).mapError
    (.wrap .dataLoss "validate stored sth anchor result")

def readSTHAnchorResult (tables : AnchorTables) (key : STHAnchorResultKey) : Outcome (Option STHAnchorResult) := do
  accessing faults (.result key) .dataLoss "read sth anchor result"
  match tables.results.lookup key with
  | none => return none
  | some result => do
    validateStoredSTHAnchorResult library result
    reject (sameResultKey (resultKey result) key = false)
      (.new .dataLoss "stored STH anchor result key does not match item")
    return some result

def findResult (stream : Option STHAnchorScheduleKey) :
    List ((_ : STHAnchorResultKey) × STHAnchorResult) → Outcome (Option STHAnchorResult)
  | [] => .ok none
  | ⟨key, result⟩ :: rest => do
    validateStoredSTHAnchorResult library result
    reject (resultKey result ≠ key) (.new .dataLoss "sth anchor result key does not match item")
    if stream.all fun stream => sameKey (streamOf result) stream then return some result
    else findResult stream rest

def resultsBackwards (tables : AnchorTables) : List ((_ : STHAnchorResultKey) × STHAnchorResult) :=
  tables.results.entries.insertionSort fun first second => compareResultKeys second.1 first.1 ≤ 0

def rebuildLatestSTHAnchorResultLocked (tables : AnchorTables) (stream : Option STHAnchorScheduleKey) :
    Outcome (Option STHAnchorResult) × AnchorTables :=
  let found : Outcome (Option STHAnchorResult) := do
    accessing faults .scan .dataLoss "open latest sth anchor result iterator"
    findResult library stream (resultsBackwards tables)
  chain (found, tables) fun latest tables =>
    match latest with
    | some result =>
      chain (accessing faults (.setLatest stream) .dataLoss "rebuild latest sth anchor reference", tables)
        fun _ tables => (.ok (some result), tables.write (.latest stream (latestReference result)))
    | none =>
      chain (accessing faults (.setLatest stream) .dataLoss "write empty latest sth anchor reference",
        tables) fun _ tables => (.ok none, tables.write (.latest stream (emptyLatestReference stream)))

def followReference (tables : AnchorTables) (stream : Option STHAnchorScheduleKey)
    (ref : STHAnchorLatestReference) : Option (Option STHAnchorResult) :=
  if emptyLatestReferenceMatches ref stream = true then some none
  else
    match validateLatestReference ref, readSTHAnchorResult library faults tables ref.key with
    | .ok _, .ok (some result) =>
      if referenceMatchesResult ref result = true ∧
          (stream.all fun stream => sameKey stream (scheduleKey ref.key)) = true then some (some result)
      else none
    | _, _ => none

def latestSTHAnchorResultLocked (tables : AnchorTables) (stream : Option STHAnchorScheduleKey) :
    Outcome (Option STHAnchorResult) × AnchorTables :=
  let known : Option (Option STHAnchorResult) :=
    match faults (.latest stream), tables.latest.lookup stream with
    | none, some ref => followReference library faults tables stream ref
    | _, _ => none
  match known with
  | some answer => (.ok answer, tables)
  | none => rebuildLatestSTHAnchorResultLocked library faults tables stream

/-- `true` if there is no root for the tree yet. -/
def inspectSTHAnchorTreeRootLocked (tables : AnchorTables) (nodeID logID : String) (treeSize : Nat)
    (rootHash : Bytes) : Outcome Bool := do
  accessing faults (.root nodeID logID treeSize) .dataLoss "read canonical sth anchor tree root"
  match tables.roots.lookup (nodeID, logID, treeSize) with
  | none => return true
  | some value => do
    reject (value ≠ rootHash) (.new .dataLoss "anchor tree size has conflicting root hash")
    return false

def validateOrStageSTHAnchorTreeRootLocked (tables : AnchorTables) (nodeID logID : String) (treeSize : Nat)
    (rootHash : Bytes) : Outcome (List AnchorWrite) := do
  let missing ← inspectSTHAnchorTreeRootLocked faults tables nodeID logID treeSize rootHash
  return if missing = true then [.root nodeID logID treeSize rootHash] else []

def stageLatest (tables : AnchorTables) (stream : Option STHAnchorScheduleKey) (result : STHAnchorResult) :
    Outcome (List AnchorWrite) × AnchorTables :=
  chain (latestSTHAnchorResultLocked library faults tables stream) fun latest tables =>
    let covered := latest.any fun latest => compareResultKeys (resultKey result) (resultKey latest) ≤ 0
    (.ok (if covered then [] else [.latest stream (latestReference result)]), tables)

def stageSTHAnchorResultLocked (tables : AnchorTables) (result : STHAnchorResult) (writeResult : Bool) :
    Outcome (List AnchorWrite) × AnchorTables :=
  chain (validateOrStageSTHAnchorTreeRootLocked faults tables result.nodeID result.logID result.treeSize
      result.rootHash, tables) fun root tables =>
    chain (stageLatest library faults tables none result) fun overall tables =>
      chain (stageLatest library faults tables (some (streamOf result)) result) fun keyed tables =>
        (.ok (root ++ (if writeResult then [.result result] else []) ++ overall ++ keyed), tables)

def putSTHAnchorResult (tables : AnchorTables) (result : STHAnchorResult) : Outcome Unit × AnchorTables :=
  let checks : Outcome (Option STHAnchorResult) := do
    accessing faults .start .deadlineExceeded "proofstore put sth anchor result canceled"
    requireSuite (ModelSuite.requireSTHAnchorResult suite result)
    validateResult library (streamOf result) result
    let existing ← readSTHAnchorResult library faults tables (resultKey result)
    (match existing with
      | some existing =>
        reject (sameStoredResult library existing result = false)
          (.new .dataLoss "stored STH anchor result conflicts with replacement")
      | none => .ok () : Outcome Unit)
    return existing
  chain (checks, tables) fun existing tables =>
    chain (stageSTHAnchorResultLocked library faults tables (existing.getD result) existing.isNone)
      fun writes tables => commitBatch faults "commit sth anchor result" writes tables

def updateSTHAnchorResult (tables : AnchorTables) (expected result : STHAnchorResult) :
    Outcome Unit × AnchorTables :=
  let checks : Outcome Unit := do
    accessing faults .start .deadlineExceeded "proofstore update sth anchor result canceled"
    (requireSuite (ModelSuite.requireSTHAnchorResult suite expected)).mapError
      (.wrap .invalidArgument "expected anchor result")
    requireSuite (ModelSuite.requireSTHAnchorResult suite result)
    validateResult library (streamOf result) result
    validateResult library (streamOf expected) expected
    reject (sameResultBinding expected result = false)
      (.new .dataLoss "sth anchor result update changes immutable binding")
    reject (result.sinkName = fiscoBcosSinkName ∧ sameStoredResult library expected result = false)
      (.new .dataLoss "FISCO BCOS anchor result is byte-immutable")
    reject ({ expected with proof := result.proof } ≠ result)
      (.new .dataLoss "sth anchor result update changes immutable metadata")
    let existing ← readSTHAnchorResult library faults tables (resultKey result)
    match existing with
    | none => .error (.new .notFound "sth anchor result not found")
    | some existing =>
      reject (existing ≠ expected) (.new .failedPrecondition "sth anchor result changed concurrently")
  chain (checks, tables) fun _ tables =>
    chain (stageSTHAnchorResultLocked library faults tables result true)
      fun writes tables => commitBatch faults "commit updated sth anchor result" writes tables

def mergeSTHAnchorCandidateLocked (tables : AnchorTables) (candidate : STHAnchorCandidate) :
    Outcome (STHAnchorSchedule × Bool × Bool) × AnchorTables :=
  let reads : Outcome (Option STHAnchorSchedule × Bool) := do
    let current ← readSTHAnchorSchedule faults tables candidate.key
    let missing ← inspectSTHAnchorTreeRootLocked faults tables candidate.key.nodeID candidate.key.logID
      candidate.sth.treeSize candidate.sth.rootHash
    return (current, missing)
  chain (reads, tables) fun (current, missing) tables =>
    chain (latestSTHAnchorResultLocked library faults tables (some candidate.key)) fun latest tables =>
      let merged : Outcome (STHAnchorSchedule × Bool × Bool) := do
        let exact ← readSTHAnchorResult library faults tables {
          nodeID := candidate.key.nodeID
          logID := candidate.key.logID
          sinkName := candidate.key.sinkName
          treeSize := candidate.sth.treeSize }
        (match exact with
          | some exact => validateCandidateAgainstExactResult library candidate exact
          | none => .ok () : Outcome Unit)
        -- The exact result counts where it is later than the latest one.
        let latest := match exact with
          | some exact => if latest.all fun latest => exact.treeSize > latest.treeSize then some exact else latest
          | none => latest
        let (next, changed) ← mergeCandidate library current candidate latest
        return (next, changed, missing)
      (merged, tables)

def upsertSTHAnchorCandidate (tables : AnchorTables) (candidate : STHAnchorCandidate) :
    Outcome STHAnchorSchedule × AnchorTables :=
  let checks : Outcome Unit := do
    accessing faults .start .deadlineExceeded "proofstore upsert sth anchor candidate canceled"
    requireSuite (ModelSuite.requireSTHAnchorCandidate suite candidate)
    validateCandidate candidate
  chain (checks, tables) fun _ tables =>
    chain (mergeSTHAnchorCandidateLocked library faults tables candidate)
      fun (next, changed, missing) tables =>
        if changed = false ∧ missing = false then (.ok next, tables)
        else
          let writes := (if changed then [AnchorWrite.schedule next] else []) ++
            (if missing then [.root candidate.key.nodeID candidate.key.logID candidate.sth.treeSize
              candidate.sth.rootHash] else [])
          chain (commitBatch faults "commit sth anchor candidate" writes tables)
            fun _ tables => (.ok next, tables)

/-- First the attempt in flight is settled by a result of its own tree, then the window by the latest
one. -/
def reconcileStoredSTHAnchorResultsLocked (tables : AnchorTables) (schedule : STHAnchorSchedule) :
    Outcome (STHAnchorSchedule × Bool) × AnchorTables :=
  let flight : Outcome (STHAnchorSchedule × Bool) :=
    match schedule.inFlight with
    | none => .ok (schedule, false)
    | some attempt => do
      let result ← readSTHAnchorResult library faults tables {
        nodeID := schedule.key.nodeID
        logID := schedule.key.logID
        sinkName := schedule.key.sinkName
        treeSize := attempt.target.treeSize }
      match result with
      | none => .ok (schedule, false)
      | some result =>
        (reconcileCompleted library schedule result).mapError
          (.wrap .dataLoss "reconcile completed STH anchor in-flight target")
  chain (flight, tables) fun (schedule, changed) tables =>
    if schedule.pending.isNone = true then (.ok (schedule, changed), tables)
    else
      chain (latestSTHAnchorResultLocked library faults tables (some schedule.key)) fun latest tables =>
        match latest with
        | none => (.ok (schedule, changed), tables)
        | some latest =>
          chain ((reconcileCompleted library schedule latest).mapError
            (.wrap .dataLoss "reconcile completed STH anchor pending target"), tables)
            fun (next, reconciled) tables => (.ok (next, changed || reconciled), tables)

def claimSTHAnchorAttempt (tables : AnchorTables) (key : STHAnchorScheduleKey) (nowUnixN leaseUntilUnixN : Int)
    (leaseOwner leaseToken : String) : Outcome (Option STHAnchorAttempt) × AnchorTables :=
  let reads : Outcome (Option STHAnchorSchedule) := do
    accessing faults .start .deadlineExceeded "proofstore claim sth anchor attempt canceled"
    validateKey key
    readSTHAnchorSchedule faults tables key
  chain (reads, tables) fun current tables =>
    match current with
    | none => (.ok none, tables)
    | some current =>
      chain (reconcileStoredSTHAnchorResultsLocked library faults tables current)
        fun (current, reconciled) tables =>
          chain (claim current nowUnixN leaseUntilUnixN leaseOwner leaseToken, tables)
            fun (next, attempt) tables =>
              match attempt with
              | none =>
                if reconciled then
                  chain (commitSTHAnchorSchedule faults current "commit reconciled sth anchor attempt"
                    tables) fun _ tables => (.ok none, tables)
                else (.ok none, tables)
              | some attempt =>
                chain (commitSTHAnchorSchedule faults next "commit claimed sth anchor attempt" tables)
                  fun _ tables => (.ok (some attempt), tables)

def replaceSchedule (canceled committed : String) (tables : AnchorTables) (key : STHAnchorScheduleKey)
    (operation : STHAnchorSchedule → Outcome STHAnchorSchedule) : Outcome Unit × AnchorTables :=
  let next : Outcome STHAnchorSchedule := do
    accessing faults .start .deadlineExceeded canceled
    validateKey key
    let current ← readSTHAnchorSchedule faults tables key
    match current with
    | none => .error (.new .notFound "sth anchor schedule not found")
    | some current => operation current
  chain (next, tables) fun next tables => commitSTHAnchorSchedule faults next committed tables

def compareAndSwapSTHAnchorProviderState (tables : AnchorTables) (key : STHAnchorScheduleKey) (generation : Nat)
    (leaseToken : String) (nowUnixN : Int) (expectedProviderState nextProviderState : Bytes) :
    Outcome Unit × AnchorTables :=
  replaceSchedule faults "proofstore update sth anchor provider state canceled" "commit sth anchor provider state"
    tables key fun current =>
      compareAndSwapProviderState current generation leaseToken nowUnixN expectedProviderState nextProviderState

def rescheduleSTHAnchorAttempt (tables : AnchorTables) (key : STHAnchorScheduleKey) (generation : Nat)
    (leaseToken : String) (attempts nextAttemptUnixN : Int) (lastErrorMessage : String) :
    Outcome Unit × AnchorTables :=
  replaceSchedule faults "proofstore reschedule sth anchor attempt canceled" "commit rescheduled sth anchor attempt"
    tables key fun current => reschedule current generation leaseToken attempts nextAttemptUnixN lastErrorMessage

def failSTHAnchorAttempt (tables : AnchorTables) (key : STHAnchorScheduleKey) (generation : Nat)
    (leaseToken : String) (attempts : Int) (lastErrorMessage : String) : Outcome Unit × AnchorTables :=
  replaceSchedule faults "proofstore fail sth anchor attempt canceled" "commit failed sth anchor attempt" tables key
    fun current => fail current generation leaseToken attempts lastErrorMessage

def completeSTHAnchorAttempt (tables : AnchorTables) (key : STHAnchorScheduleKey) (generation : Nat)
    (leaseToken : String) (result : STHAnchorResult) : Outcome Unit × AnchorTables :=
  let reads : Outcome (Option STHAnchorSchedule × Option STHAnchorResult) := do
    accessing faults .start .deadlineExceeded "proofstore complete sth anchor attempt canceled"
    requireSuite (ModelSuite.requireSTHAnchorResult suite result)
    validateResult library key result
    let current ← readSTHAnchorSchedule faults tables key
    let existing ← readSTHAnchorResult library faults tables (resultKey result)
    return (current, existing)
  chain (reads, tables) fun (current, existing) tables =>
    match existing, current with
    | some existing, current =>
      chain (reject (sameStoredResult library existing result = false)
          (.new .dataLoss "stored STH anchor result conflicts with completed attempt"), tables) fun _ tables =>
        match current with
        | none => (.ok (), tables)
        | some current =>
          if current.inFlight.any fun attempt => attempt.target.treeSize ≠ existing.treeSize then (.ok (), tables)
          else
            chain (reconcileCompleted library current existing, tables) fun (next, changed) tables =>
              if changed then commitSTHAnchorSchedule faults next "commit idempotent sth anchor completion" tables
              else (.ok (), tables)
    | none, none => (.error (.new .notFound "sth anchor schedule not found"), tables)
    | none, some current =>
      chain (complete library current generation leaseToken result, tables) fun next tables =>
        chain (stageSTHAnchorResultLocked library faults tables result true) fun writes tables =>
          commitBatch faults "commit sth anchor completion" (writes ++ [.schedule next]) tables

def stageTargets (tables : AnchorTables) (key : STHAnchorScheduleKey) : List SignedTreeHead →
    Outcome (List AnchorWrite)
  | [] => .ok []
  | target :: rest => do
    let first ← validateOrStageSTHAnchorTreeRootLocked faults tables key.nodeID key.logID target.treeSize
      target.rootHash
    let others ← stageTargets tables key rest
    return first ++ others

def restoreSTHAnchorSchedule (tables : AnchorTables) (schedule : STHAnchorSchedule) (replace : Bool) :
    Outcome Unit × AnchorTables :=
  let checks : Outcome Unit := do
    accessing faults .start .deadlineExceeded "proofstore restore sth anchor schedule canceled"
    requireSuite (ModelSuite.requireSTHAnchorSchedule suite schedule)
    validateSchedule schedule
    reject (schedule.inFlight.any hasLease = true)
      (.new .failedPrecondition "restored STH anchor schedule must not retain a process lease")
  chain (checks, tables) fun _ tables =>
    chain (match reconcileStoredSTHAnchorResultsLocked library faults tables schedule with
        | (outcome, tables) => (outcome.mapError (.wrap .dataLoss "reconcile restored STH anchor schedule"), tables))
      fun (schedule, _) tables =>
        chain (readSTHAnchorSchedule faults tables schedule.key, tables) fun existing tables =>
          if existing = some schedule then (.ok (), tables)
          else
            chain (reject (existing.isSome = true ∧ replace = false)
                (.new .dataLoss "stored STH anchor schedule conflicts with restore snapshot"), tables) fun _ tables =>
              chain (stageTargets faults tables schedule.key (scheduleTargets schedule), tables)
                fun writes tables =>
                  commitBatch faults "commit restored sth anchor schedule" (writes ++ [.schedule schedule]) tables

end

inductive AnchorCall
  | put (result : STHAnchorResult)
  | update (expected result : STHAnchorResult)
  | upsert (candidate : STHAnchorCandidate)
  | claim (key : STHAnchorScheduleKey) (nowUnixN leaseUntilUnixN : Int) (leaseOwner leaseToken : String)
  | compareAndSwap (key : STHAnchorScheduleKey) (generation : Nat) (leaseToken : String) (nowUnixN : Int)
      (expectedProviderState nextProviderState : Bytes)
  | reschedule (key : STHAnchorScheduleKey) (generation : Nat) (leaseToken : String)
      (attempts nextAttemptUnixN : Int) (lastErrorMessage : String)
  | fail (key : STHAnchorScheduleKey) (generation : Nat) (leaseToken : String) (attempts : Int)
      (lastErrorMessage : String)
  | complete (key : STHAnchorScheduleKey) (generation : Nat) (leaseToken : String) (result : STHAnchorResult)
  | restore (schedule : STHAnchorSchedule) (replace : Bool)

def AnchorCall.run (library : Library) (suite : ID) (faults : AnchorFaults) (tables : AnchorTables) :
    AnchorCall → Outcome (Option STHAnchorAttempt) × AnchorTables
  | .put result => unit (putSTHAnchorResult library suite faults tables result)
  | .update expected result => unit (updateSTHAnchorResult library suite faults tables expected result)
  | .upsert candidate => unit (upsertSTHAnchorCandidate library suite faults tables candidate)
  | .claim key nowUnixN leaseUntilUnixN leaseOwner leaseToken =>
    claimSTHAnchorAttempt library faults tables key nowUnixN leaseUntilUnixN leaseOwner leaseToken
  | .compareAndSwap key generation leaseToken nowUnixN expected next =>
    unit (compareAndSwapSTHAnchorProviderState faults tables key generation leaseToken nowUnixN expected next)
  | .reschedule key generation leaseToken attempts nextAttemptUnixN lastErrorMessage =>
    unit (rescheduleSTHAnchorAttempt faults tables key generation leaseToken attempts nextAttemptUnixN
      lastErrorMessage)
  | .fail key generation leaseToken attempts lastErrorMessage =>
    unit (failSTHAnchorAttempt faults tables key generation leaseToken attempts lastErrorMessage)
  | .complete key generation leaseToken result =>
    unit (completeSTHAnchorAttempt library suite faults tables key generation leaseToken result)
  | .restore schedule replace => unit (restoreSTHAnchorSchedule library suite faults tables schedule replace)
where
  unit {α : Type} : Outcome α × AnchorTables → Outcome (Option STHAnchorAttempt) × AnchorTables
    | (outcome, tables) => (outcome.map fun _ => none, tables)

end Pebble

abbrev AnchorStep := Pebble.AnchorCall × AnchorFaults

def AnchorTables.after (library : Library) (suite : ID) (tables : AnchorTables) (steps : List AnchorStep) :
    AnchorTables :=
  steps.foldl (fun tables step => (step.1.run library suite step.2 tables).2) tables

end TrustDB.ProofStore
