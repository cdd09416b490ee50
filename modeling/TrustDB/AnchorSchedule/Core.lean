import TrustDB.ModelSuite

/-!
Package `anchorschedule`: one schedule per node, log and sink, with at most one pending window
and one attempt in flight. Generations and revisions are 64-bit counters that wrap; times are
signed nanoseconds that are only compared.
-/

namespace TrustDB

open Result

namespace Model

open CryptoSuite (ID)

def schemaSTHAnchorSchedule : String := "trustdb.sth-anchor-schedule.v2"

def schemaSTHAnchorLatest : String := "trustdb.sth-anchor-latest.v2"

def schemaSTHAnchorLatestEmpty : String := "trustdb.sth-anchor-latest-empty.v2"

def anchorEvidenceStageRaw : String := "external_observation"

def anchorEvidenceStageLocalOnly : String := "local_only"

def validAnchorEvidenceStage (stage : String) : Bool :=
  stage = anchorEvidenceStageOfflineVerified || stage = anchorEvidenceStageRaw ||
    stage = anchorEvidenceStageLocalOnly

structure STHAnchorScheduleKey where
  nodeID : String
  logID : String
  sinkName : String
  deriving Repr, DecidableEq, Inhabited

structure STHAnchorResultKey where
  nodeID : String
  logID : String
  sinkName : String
  treeSize : Nat
  deriving Repr, DecidableEq, Inhabited

structure STHAnchorLatestReference where
  schemaVersion : String
  cryptoSuite : ID
  key : STHAnchorResultKey
  rootHash : Bytes
  anchorID : String
  deriving Repr, DecidableEq, Inhabited

structure STHAnchorCandidate where
  key : STHAnchorScheduleKey
  sth : SignedTreeHead
  observedAtUnixN : Int
  dueAtUnixN : Int
  deriving Repr, DecidableEq, Inhabited

structure STHAnchorWindow where
  generation : Nat
  target : SignedTreeHead
  openedAtUnixN : Int
  dueAtUnixN : Int
  updatedAtUnixN : Int
  deriving Repr, DecidableEq, Inhabited

structure STHAnchorAttempt where
  generation : Nat
  target : SignedTreeHead
  openedAtUnixN : Int
  dueAtUnixN : Int
  providerState : Option Bytes
  attempts : Int
  nextAttemptUnixN : Int
  lastAttemptUnixN : Int
  lastErrorMessage : String
  terminalFailure : Bool
  leaseOwner : String
  leaseToken : String
  leaseUntilUnixN : Int
  deriving Repr, DecidableEq, Inhabited

structure STHAnchorSchedule where
  schemaVersion : String
  cryptoSuite : ID
  key : STHAnchorScheduleKey
  revision : Nat
  nextGeneration : Nat
  pending : Option STHAnchorWindow
  inFlight : Option STHAnchorAttempt
  deriving Repr, DecidableEq, Inhabited

end Model

namespace ModelSuite

open CryptoSuite Model

def requireSTHAnchorCandidate (expected : ID) (candidate : STHAnchorCandidate) : Outcome Unit :=
  require expected "STH anchor candidate" [candidate.sth.cryptoSuite]

def requireSTHAnchorSchedule (expected : ID) (schedule : STHAnchorSchedule) : Outcome Unit :=
  require expected "STH anchor schedule" ([schedule.cryptoSuite] ++
    schedule.pending.toList.map (fun pending => pending.target.cryptoSuite) ++
    schedule.inFlight.toList.map fun attempt => attempt.target.cryptoSuite)

end ModelSuite

namespace AnchorSchedule

open CryptoSuite Model

def maxLastErrorBytes : Nat := 4096

def maxProviderStateBytes : Nat := 16 * 2 ^ 20

/-- `SinkName` and `MaxProofBytes` of package `fiscobcos`. -/
def fiscoBcosSinkName : String := "fisco-bcos"

def fiscoBcosMaxProofBytes : Nat := 16 * 2 ^ 20

structure Library where
  validateProofContainer : SignedTreeHead → STHAnchorResult → Outcome Unit
  marshalResult : STHAnchorResult → Outcome Bytes

def next64 (counter : Nat) : Nat := (counter + 1) % 2 ^ 64

def validateKey (key : STHAnchorScheduleKey) : Outcome Unit :=
  reject (key.sinkName = "") (.new .invalidArgument "anchor schedule sink_name is required")

def scheduleKey (key : STHAnchorResultKey) : STHAnchorScheduleKey where
  nodeID := key.nodeID
  logID := key.logID
  sinkName := key.sinkName

def resultKey (result : STHAnchorResult) : STHAnchorResultKey where
  nodeID := result.nodeID
  logID := result.logID
  sinkName := result.sinkName
  treeSize := result.treeSize

def streamOf (result : STHAnchorResult) : STHAnchorScheduleKey := scheduleKey (resultKey result)

def validateResultKey (key : STHAnchorResultKey) : Outcome Unit := do
  validateKey (scheduleKey key)
  reject (key.treeSize = 0) (.new .invalidArgument "anchor result tree_size is required")

def validateTarget (key : STHAnchorScheduleKey) (sth : SignedTreeHead) : Outcome Unit := do
  let suite ← (requireAvailable sth.cryptoSuite).mapError
    (.wrap .invalidArgument "signed tree head crypto_suite")
  reject (sth.schemaVersion ≠ schemaSignedTreeHead ∨ sth.treeAlg ≠ suite.merkle.algorithm ∨
      sth.treeSize = 0 ∨ sth.rootHash.length ≠ suite.merkle.hash.digestBytes ∨ sth.timestampUnixN ≤ 0 ∨
      sth.signature.alg ≠ suite.signature.algorithm ∨ sth.signature.keyID = "" ∨
      sth.signature.signature.length = 0)
    (.new .invalidArgument "valid signed tree head is required")
  reject (sth.nodeID ≠ key.nodeID ∨ sth.logID ≠ key.logID)
    (.new .invalidArgument "signed tree head identity does not match anchor schedule key")

def validateCandidate (candidate : STHAnchorCandidate) : Outcome Unit := do
  validateKey candidate.key
  validateTarget candidate.key candidate.sth
  reject (candidate.observedAtUnixN ≤ 0)
    (.new .invalidArgument "anchor candidate observed_at is required")
  reject (candidate.dueAtUnixN < candidate.observedAtUnixN)
    (.new .invalidArgument "anchor candidate due_at precedes observed_at")

def validatePending (key : STHAnchorScheduleKey) (pending : STHAnchorWindow) : Outcome Unit := do
  reject (pending.generation = 0 ∨ pending.openedAtUnixN ≤ 0 ∨
      pending.dueAtUnixN < pending.openedAtUnixN ∨ pending.updatedAtUnixN < pending.openedAtUnixN)
    (.new .dataLoss "invalid pending anchor window")
  (validateTarget key pending.target).mapError (.wrap .dataLoss "invalid pending anchor target")

def hasLease (attempt : STHAnchorAttempt) : Bool :=
  attempt.leaseOwner ≠ "" || attempt.leaseToken ≠ "" || attempt.leaseUntilUnixN ≠ 0

def stateBytes (state : Option Bytes) : Bytes := state.getD []

def validateInFlight (key : STHAnchorScheduleKey) (attempt : STHAnchorAttempt) : Outcome Unit := do
  reject (attempt.generation = 0 ∨ attempt.openedAtUnixN ≤ 0 ∨
      attempt.dueAtUnixN < attempt.openedAtUnixN ∨ attempt.attempts < 0 ∨ attempt.nextAttemptUnixN < 0 ∨
      attempt.lastAttemptUnixN ≤ 0)
    (.new .dataLoss "invalid in-flight anchor attempt")
  reject (maxLastErrorBytes < attempt.lastErrorMessage.utf8ByteSize)
    (.new .dataLoss "in-flight anchor error exceeds size limit")
  reject (maxProviderStateBytes < (stateBytes attempt.providerState).length)
    (.new .dataLoss "in-flight anchor provider state exceeds size limit")
  reject (attempt.providerState ≠ none ∧ (stateBytes attempt.providerState).length = 0)
    (.new .dataLoss "in-flight anchor provider state is non-canonical")
  reject (0 < attempt.nextAttemptUnixN ∧ attempt.nextAttemptUnixN < attempt.lastAttemptUnixN)
    (.new .dataLoss "in-flight anchor retry precedes last attempt")
  reject (hasLease attempt = true ∧ (attempt.leaseOwner = "" ∨ attempt.leaseToken = "" ∨
      attempt.leaseUntilUnixN ≤ attempt.lastAttemptUnixN))
    (.new .dataLoss "in-flight anchor lease is incomplete")
  reject (attempt.terminalFailure = true ∧ (attempt.attempts = 0 ∨ attempt.lastErrorMessage = "" ∨
      attempt.nextAttemptUnixN ≠ 0 ∨ hasLease attempt = true))
    (.new .dataLoss "terminal anchor failure state is invalid")
  reject (attempt.terminalFailure = false ∧ hasLease attempt = false ∧ 0 < attempt.attempts ∧
      attempt.nextAttemptUnixN = 0)
    (.new .dataLoss "retryable anchor attempt has no retry deadline")
  (validateTarget key attempt.target).mapError (.wrap .dataLoss "invalid in-flight anchor target")

/-- `Pending` has to come after `InFlight`, in its generation and in its tree. -/
def validateOrder (pending : STHAnchorWindow) (attempt : STHAnchorAttempt) : Outcome Unit := do
  reject (pending.generation ≤ attempt.generation)
    (.new .dataLoss "pending anchor generation does not follow in-flight generation")
  reject (pending.target.treeSize ≤ attempt.target.treeSize)
    (.new .dataLoss "pending anchor target does not advance in-flight target")

def highestGeneration (schedule : STHAnchorSchedule) : Nat :=
  let pending := (schedule.pending.map STHAnchorWindow.generation).getD 0
  match schedule.inFlight with
  | some attempt => if pending < attempt.generation then attempt.generation else pending
  | none => pending

def validateSchedule (schedule : STHAnchorSchedule) : Outcome Unit := do
  reject (schedule.schemaVersion ≠ schemaSTHAnchorSchedule)
    (.new .dataLoss "unexpected anchor schedule schema")
  let _ ← (requireAvailable schedule.cryptoSuite).mapError
    (.wrap .dataLoss "invalid anchor schedule crypto_suite")
  (validateKey schedule.key).mapError (.wrap .dataLoss "invalid anchor schedule key")
  reject (schedule.nextGeneration = 0) (.new .dataLoss "anchor schedule next_generation is zero")
  reject (schedule.revision = 0) (.new .dataLoss "anchor schedule revision is zero")
  (match schedule.pending with
    | some pending => validatePending schedule.key pending
    | none => .ok () : Outcome Unit)
  (match schedule.inFlight with
    | some attempt => validateInFlight schedule.key attempt
    | none => .ok () : Outcome Unit)
  (match schedule.pending, schedule.inFlight with
    | some pending, some attempt => validateOrder pending attempt
    | _, _ => .ok () : Outcome Unit)
  reject (schedule.nextGeneration ≤ highestGeneration schedule)
    (.new .dataLoss "anchor schedule next_generation does not advance active work")

def sameTarget (left right : SignedTreeHead) : Bool := left = right

def sameKey (left right : STHAnchorScheduleKey) : Bool := left = right

def sameResultKey (left right : STHAnchorResultKey) : Bool := left = right

def resultMatchesTarget (result : STHAnchorResult) (target : SignedTreeHead) : Bool :=
  result.treeSize = target.treeSize && result.rootHash = target.rootHash && sameTarget result.sth target

section

variable (library : Library)

def validateResult (key : STHAnchorScheduleKey) (result : STHAnchorResult) : Outcome Unit := do
  validateKey key
  let suite ← (requireAvailable result.cryptoSuite).mapError (.wrap .invalidArgument "anchor result crypto_suite")
  reject (result.schemaVersion ≠ schemaSTHAnchorResult ∨ result.treeSize = 0 ∨
      result.rootHash.length ≠ suite.anchorDigest.digestBytes ∨ result.anchorID = "" ∨
      result.publishedAtUnixN ≤ 0)
    (.new .invalidArgument "valid STH anchor result is required")
  reject (validAnchorEvidenceStage result.evidenceStage = false)
    (.new .invalidArgument "known anchor evidence stage is required")
  reject (result.nodeID ≠ key.nodeID ∨ result.logID ≠ key.logID ∨ result.sinkName ≠ key.sinkName)
    (.new .invalidArgument "anchor result identity does not match schedule key")
  (validateTarget key result.sth).mapError
    (.wrap .invalidArgument "anchor result signed tree head is invalid")
  (requireSame result.cryptoSuite [result.sth.cryptoSuite]).mapError
    (.wrap .invalidArgument "anchor result crypto_suite")
  reject (result.treeSize ≠ result.sth.treeSize ∨ result.rootHash ≠ result.sth.rootHash)
    (.new .invalidArgument "anchor result does not bind its signed tree head")
  if result.sinkName = fiscoBcosSinkName then
    reject (result.evidenceStage ≠ anchorEvidenceStageRaw)
      (.new .invalidArgument "FISCO BCOS anchor result must remain raw until dedicated offline verification")
    reject (result.proof.length = 0 ∨ fiscoBcosMaxProofBytes < result.proof.length)
      (.new .invalidArgument "FISCO BCOS anchor proof is empty or oversized")
    (library.validateProofContainer result.sth result).mapError
      (.wrap .invalidArgument "invalid FISCO BCOS anchor proof container")

def scheduleTargets (schedule : STHAnchorSchedule) : List SignedTreeHead :=
  schedule.inFlight.toList.map STHAnchorAttempt.target ++ schedule.pending.toList.map STHAnchorWindow.target

/-- The candidate against the targets that are scheduled already: `true` if one of them covers it. -/
def coveredByTargets (sth : SignedTreeHead) : List SignedTreeHead → Outcome Bool
  | [] => .ok false
  | target :: rest => do
    reject (sth.treeSize = target.treeSize ∧ sameTarget sth target = false)
      (.new .dataLoss "anchor candidate conflicts with scheduled target")
    if sth.treeSize ≤ target.treeSize then return true else coveredByTargets sth rest

def openWindow (current : STHAnchorSchedule) (candidate : STHAnchorCandidate) : STHAnchorSchedule :=
  match current.pending with
  | some pending => { current with
      pending := some { pending with
        target := candidate.sth
        updatedAtUnixN := if candidate.observedAtUnixN > pending.updatedAtUnixN
          then candidate.observedAtUnixN else pending.updatedAtUnixN }
      revision := next64 current.revision }
  | none =>
    let generation := if current.nextGeneration = 0 then 1 else current.nextGeneration
    { current with
      pending := some {
        generation
        target := candidate.sth
        openedAtUnixN := candidate.observedAtUnixN
        dueAtUnixN := candidate.dueAtUnixN
        updatedAtUnixN := candidate.observedAtUnixN }
      nextGeneration := next64 generation
      revision := next64 current.revision }

def mergeTargets (current : STHAnchorSchedule) (candidate : STHAnchorCandidate) :
    Outcome (STHAnchorSchedule × Bool) := do
  let covered ← coveredByTargets candidate.sth (scheduleTargets current)
  if covered = true then return (current, false) else return (openWindow current candidate, true)

def createdFor (candidate : STHAnchorCandidate) : STHAnchorSchedule where
  schemaVersion := schemaSTHAnchorSchedule
  cryptoSuite := candidate.sth.cryptoSuite
  key := candidate.key
  revision := 0
  nextGeneration := 1
  pending := none
  inFlight := none

/-- `current` is absent where the source passes `exists = false`. -/
def mergeCandidate (current : Option STHAnchorSchedule) (candidate : STHAnchorCandidate)
    (latest : Option STHAnchorResult) : Outcome (STHAnchorSchedule × Bool) := do
  validateCandidate candidate
  let schedule ← (match current with
    | none => .ok (createdFor candidate)
    | some schedule => do
      validateSchedule schedule
      reject (sameKey schedule.key candidate.key = false)
        (.new .dataLoss "anchor schedule key does not match candidate")
      (requireSame schedule.cryptoSuite [candidate.sth.cryptoSuite]).mapError
        (.wrap .dataLoss "anchor candidate crypto_suite")
      return schedule : Outcome STHAnchorSchedule)
  match latest with
  | none => mergeTargets schedule candidate
  | some latest => do
    validateResult library candidate.key latest
    reject (candidate.sth.treeSize = latest.treeSize ∧ (candidate.sth.rootHash ≠ latest.rootHash ∨
        candidate.key.nodeID ≠ latest.nodeID ∨ candidate.key.logID ≠ latest.logID))
      (.new .dataLoss "anchor candidate conflicts with published result")
    if candidate.sth.treeSize ≤ latest.treeSize then
      if current.isNone = true then return ({ schedule with revision := 1 }, true) else return (schedule, false)
    else mergeTargets schedule candidate

def leased (attempt : STHAnchorAttempt) (nowUnixN leaseUntilUnixN : Int) (leaseOwner leaseToken : String) :
    STHAnchorAttempt :=
  { attempt with
    leaseOwner, leaseToken, leaseUntilUnixN
    lastAttemptUnixN := nowUnixN
    nextAttemptUnixN := nowUnixN }

def promoted (pending : STHAnchorWindow) (nowUnixN leaseUntilUnixN : Int) (leaseOwner leaseToken : String) :
    STHAnchorAttempt where
  generation := pending.generation
  target := pending.target
  openedAtUnixN := pending.openedAtUnixN
  dueAtUnixN := pending.dueAtUnixN
  providerState := none
  attempts := 0
  nextAttemptUnixN := 0
  lastAttemptUnixN := nowUnixN
  lastErrorMessage := ""
  terminalFailure := false
  leaseOwner := leaseOwner
  leaseToken := leaseToken
  leaseUntilUnixN := leaseUntilUnixN

def claim (current : STHAnchorSchedule) (nowUnixN leaseUntilUnixN : Int) (leaseOwner leaseToken : String) :
    Outcome (STHAnchorSchedule × Option STHAnchorAttempt) := do
  validateSchedule current
  reject (nowUnixN ≤ 0 ∨ leaseUntilUnixN ≤ nowUnixN ∨ leaseOwner = "" ∨ leaseToken = "")
    (.new .invalidArgument "valid anchor lease fields are required")
  match current.inFlight with
  | some attempt =>
    if attempt.terminalFailure = true ∨ attempt.nextAttemptUnixN > nowUnixN ∨
        attempt.leaseUntilUnixN > nowUnixN then
      return (current, none)
    else
      let attempt := leased attempt nowUnixN leaseUntilUnixN leaseOwner leaseToken
      return ({ current with inFlight := some attempt, revision := next64 current.revision }, some attempt)
  | none =>
    match current.pending with
    | none => return (current, none)
    | some pending =>
      if pending.dueAtUnixN > nowUnixN then return (current, none)
      else
        let attempt := promoted pending nowUnixN leaseUntilUnixN leaseOwner leaseToken
        return ({ current with
          pending := none
          inFlight := some attempt
          revision := next64 current.revision }, some attempt)

def fenced (current : STHAnchorSchedule) (generation : Nat) (leaseToken : String) :
    Outcome STHAnchorAttempt := do
  validateSchedule current
  match current.inFlight with
  | none => .error (.new .notFound "in-flight anchor attempt not found")
  | some attempt => do
    reject (generation = 0 ∨ attempt.generation ≠ generation ∨ leaseToken = "" ∨
        attempt.leaseToken ≠ leaseToken)
      (.new .failedPrecondition "anchor attempt generation or lease token does not match")
    return attempt

def withAttempt (current : STHAnchorSchedule) (attempt : STHAnchorAttempt) : STHAnchorSchedule :=
  { current with inFlight := some attempt, revision := next64 current.revision }

def unleased (attempt : STHAnchorAttempt) : STHAnchorAttempt :=
  { attempt with leaseOwner := "", leaseToken := "", leaseUntilUnixN := 0 }

def compareAndSwapProviderState (current : STHAnchorSchedule) (generation : Nat) (leaseToken : String)
    (nowUnixN : Int) (expectedProviderState nextProviderState : Bytes) : Outcome STHAnchorSchedule := do
  let attempt ← fenced current generation leaseToken
  reject (nowUnixN ≤ 0 ∨ attempt.leaseUntilUnixN ≤ nowUnixN)
    (.new .failedPrecondition "anchor attempt lease is not live")
  reject (stateBytes attempt.providerState ≠ expectedProviderState)
    (.new .failedPrecondition "anchor provider state compare-and-swap conflict")
  reject (nextProviderState.length = 0 ∨ maxProviderStateBytes < nextProviderState.length)
    (.new .invalidArgument "anchor provider state is empty or oversized")
  reject (stateBytes attempt.providerState = nextProviderState)
    (.new .invalidArgument "anchor provider state update is unchanged")
  return withAttempt current { attempt with providerState := some nextProviderState }

def reschedule (current : STHAnchorSchedule) (generation : Nat) (leaseToken : String) (attempts : Int)
    (nextAttemptUnixN : Int) (lastError : String) : Outcome STHAnchorSchedule := do
  let attempt ← fenced current generation leaseToken
  reject (attempts ≤ attempt.attempts ∨ nextAttemptUnixN < attempt.lastAttemptUnixN ∨ lastError = "" ∨
      maxLastErrorBytes < lastError.utf8ByteSize)
    (.new .invalidArgument "invalid anchor retry state")
  return withAttempt current (unleased { attempt with
    attempts, nextAttemptUnixN
    lastErrorMessage := lastError
    terminalFailure := false })

def fail (current : STHAnchorSchedule) (generation : Nat) (leaseToken : String) (attempts : Int)
    (lastError : String) : Outcome STHAnchorSchedule := do
  let attempt ← fenced current generation leaseToken
  reject (attempts ≤ attempt.attempts ∨ lastError = "" ∨ maxLastErrorBytes < lastError.utf8ByteSize)
    (.new .invalidArgument "invalid terminal anchor failure state")
  return withAttempt current (unleased { attempt with
    attempts
    nextAttemptUnixN := 0
    lastErrorMessage := lastError
    terminalFailure := true })

def settleInFlight (current : STHAnchorSchedule) (result : STHAnchorResult) : Outcome (Option STHAnchorAttempt) :=
  match current.inFlight with
  | none => .ok none
  | some attempt =>
    if attempt.target.treeSize = result.treeSize then do
      reject (resultMatchesTarget result attempt.target = false)
        (.new .dataLoss "stored anchor result conflicts with in-flight target")
      return none
    else .ok (some attempt)

def settlePending (current : STHAnchorSchedule) (result : STHAnchorResult) : Outcome (Option STHAnchorWindow) :=
  match current.pending with
  | none => .ok none
  | some pending =>
    if pending.target.treeSize ≤ result.treeSize then do
      reject (pending.target.treeSize = result.treeSize ∧ pending.target.rootHash ≠ result.rootHash)
        (.new .dataLoss "pending anchor target conflicts with completed result")
      return none
    else .ok (some pending)

/-- The unexported `reconcileCompleted`. -/
def settle (current : STHAnchorSchedule) (result : STHAnchorResult) : Outcome STHAnchorSchedule := do
  let inFlight ← settleInFlight current result
  let pending ← settlePending current result
  if inFlight.isSome = current.inFlight.isSome ∧ pending.isSome = current.pending.isSome then return current
  else return { current with inFlight, pending, revision := next64 current.revision }

def complete (current : STHAnchorSchedule) (generation : Nat) (leaseToken : String)
    (result : STHAnchorResult) : Outcome STHAnchorSchedule := do
  let attempt ← fenced current generation leaseToken
  validateResult library current.key result
  reject (resultMatchesTarget result attempt.target = false)
    (.new .failedPrecondition "anchor result does not match in-flight target")
  settle current result

def reconcileCompleted (current : STHAnchorSchedule) (result : STHAnchorResult) :
    Outcome (STHAnchorSchedule × Bool) := do
  validateSchedule current
  validateResult library current.key result
  let next ← settle current result
  return (next, next.revision ≠ current.revision)

def clearLeaseForRestore (current : STHAnchorSchedule) : Outcome STHAnchorSchedule := do
  validateSchedule current
  match current.inFlight with
  | none => return current
  | some attempt =>
    if attempt.leaseOwner = "" ∧ attempt.leaseToken = "" ∧ attempt.leaseUntilUnixN = 0 then return current
    else return withAttempt current (unleased attempt)

def sameResultBinding (left right : STHAnchorResult) : Bool :=
  left.nodeID = right.nodeID && left.logID = right.logID && left.treeSize = right.treeSize &&
    left.sinkName = right.sinkName && left.anchorID = right.anchorID && left.rootHash = right.rootHash &&
    sameTarget left.sth right.sth

def sameStoredResult (left right : STHAnchorResult) : Bool :=
  if left.sinkName ≠ fiscoBcosSinkName ∧ right.sinkName ≠ fiscoBcosSinkName then sameResultBinding left right
  else
    match library.marshalResult left, library.marshalResult right with
    | .ok leftCBOR, .ok rightCBOR => leftCBOR = rightCBOR
    | _, _ => false

def validateCandidateAgainstExactResult (candidate : STHAnchorCandidate) (result : STHAnchorResult) :
    Outcome Unit := do
  (validateResult library (streamOf result) result).mapError
    (.wrap .dataLoss "stored exact-tree anchor result is invalid")
  reject (result.treeSize ≠ candidate.sth.treeSize)
    (.new .dataLoss "stored anchor result tree size does not match lookup")
  reject (result.nodeID ≠ candidate.key.nodeID ∨ result.logID ≠ candidate.key.logID ∨
      result.rootHash ≠ candidate.sth.rootHash)
    (.new .dataLoss "anchor candidate conflicts with immutable exact-tree result")

end

/-- `base64.RawURLEncoding`. -/
def rawURLEncode : Bytes → List Char
  | [] => []
  | [a] => [symbol (a.toNat / 4), symbol (a.toNat % 4 * 16)]
  | [a, b] => [symbol (a.toNat / 4), symbol (a.toNat % 4 * 16 + b.toNat / 16), symbol (b.toNat % 16 * 4)]
  | a :: b :: c :: rest =>
    [symbol (a.toNat / 4), symbol (a.toNat % 4 * 16 + b.toNat / 16), symbol (b.toNat % 16 * 4 + c.toNat / 64),
      symbol (c.toNat % 64)] ++ rawURLEncode rest
where
  symbol (value : Nat) : Char :=
    "ABCDEFGHIJKLMNOPQRSTUVWXYZabcdefghijklmnopqrstuvwxyz0123456789-_".toList.getD value 'A'

def resultKeyOrderIdentity (key : STHAnchorResultKey) : String :=
  String.ofList (rawURLEncode (utf8 key.nodeID) ++ ['/'] ++ rawURLEncode (utf8 key.logID) ++ ['/'] ++
    rawURLEncode (utf8 key.sinkName))

def compareResultKeys (left right : STHAnchorResultKey) : Int :=
  if left.treeSize < right.treeSize then -1
  else if left.treeSize > right.treeSize then 1
  else if resultKeyOrderIdentity left < resultKeyOrderIdentity right then -1
  else if resultKeyOrderIdentity left > resultKeyOrderIdentity right then 1
  else 0

def validateLatestReference (ref : STHAnchorLatestReference) : Outcome Unit := do
  reject (ref.schemaVersion ≠ schemaSTHAnchorLatest)
    (.new .dataLoss "unexpected latest anchor reference schema")
  (validateResultKey ref.key).mapError (.wrap .dataLoss "invalid latest anchor result key")
  let suite ← (requireAvailable ref.cryptoSuite).mapError (.wrap .dataLoss "invalid latest anchor crypto_suite")
  reject (ref.rootHash.length ≠ suite.anchorDigest.digestBytes ∨ ref.anchorID = "")
    (.new .dataLoss "invalid latest anchor result binding")

def latestReference (result : STHAnchorResult) : STHAnchorLatestReference where
  schemaVersion := schemaSTHAnchorLatest
  cryptoSuite := result.cryptoSuite
  key := resultKey result
  rootHash := result.rootHash
  anchorID := result.anchorID

def emptyLatestReference (stream : Option STHAnchorScheduleKey) : STHAnchorLatestReference where
  schemaVersion := schemaSTHAnchorLatestEmpty
  cryptoSuite := ""
  key := {
    nodeID := (stream.getD default).nodeID
    logID := (stream.getD default).logID
    sinkName := (stream.getD default).sinkName
    treeSize := 0 }
  rootHash := []
  anchorID := ""

def validEmptyLatestReference (ref : STHAnchorLatestReference) : Bool :=
  ref.schemaVersion = schemaSTHAnchorLatestEmpty && ref.key.treeSize = 0 && ref.rootHash.length = 0 &&
    ref.anchorID = ""

def emptyLatestReferenceMatches (ref : STHAnchorLatestReference) (stream : Option STHAnchorScheduleKey) : Bool :=
  validEmptyLatestReference ref && sameKey (scheduleKey ref.key) (stream.getD default)

def referenceMatchesResult (ref : STHAnchorLatestReference) (result : STHAnchorResult) : Bool :=
  sameResultKey ref.key (resultKey result) && ref.rootHash = result.rootHash && ref.anchorID = result.anchorID

inductive Operation
  | mergeCandidate (candidate : STHAnchorCandidate) (latest : Option STHAnchorResult)
  | claim (nowUnixN leaseUntilUnixN : Int) (leaseOwner leaseToken : String)
  | compareAndSwapProviderState (generation : Nat) (leaseToken : String) (nowUnixN : Int)
      (expectedProviderState nextProviderState : Bytes)
  | reschedule (generation : Nat) (leaseToken : String) (attempts nextAttemptUnixN : Int) (lastError : String)
  | fail (generation : Nat) (leaseToken : String) (attempts : Int) (lastError : String)
  | complete (generation : Nat) (leaseToken : String) (result : STHAnchorResult)
  | reconcileCompleted (result : STHAnchorResult)
  | clearLeaseForRestore

/-- The schedule that an operation returns. Where there is none yet, all but the merge are given the
zero value. -/
def Operation.apply (library : Library) (current : Option STHAnchorSchedule) : Operation → Outcome STHAnchorSchedule
  | .mergeCandidate candidate latest => do
    let (next, _) ← AnchorSchedule.mergeCandidate library current candidate latest
    return next
  | .claim nowUnixN leaseUntilUnixN leaseOwner leaseToken => do
    let (next, _) ← AnchorSchedule.claim (current.getD default) nowUnixN leaseUntilUnixN leaseOwner leaseToken
    return next
  | .compareAndSwapProviderState generation leaseToken nowUnixN expected next =>
    AnchorSchedule.compareAndSwapProviderState (current.getD default) generation leaseToken nowUnixN expected next
  | .reschedule generation leaseToken attempts nextAttemptUnixN lastError =>
    AnchorSchedule.reschedule (current.getD default) generation leaseToken attempts nextAttemptUnixN lastError
  | .fail generation leaseToken attempts lastError =>
    AnchorSchedule.fail (current.getD default) generation leaseToken attempts lastError
  | .complete generation leaseToken result =>
    AnchorSchedule.complete library (current.getD default) generation leaseToken result
  | .reconcileCompleted result => do
    let (next, _) ← AnchorSchedule.reconcileCompleted library (current.getD default) result
    return next
  | .clearLeaseForRestore => AnchorSchedule.clearLeaseForRestore (current.getD default)

end AnchorSchedule

end TrustDB
