import TrustDB.GlobalLog.Core
import TrustDB.Merkle.Verifier
import TrustDB.TrustCrypto.Verify

/-!
Package `globallog` over a store: the append loop with its replays and retries, and
the proofs read back from stored leaves and nodes. A store operation may fail, and a
failed write may leave its mark, so writes return the store along with their outcome.
-/

namespace TrustDB.GlobalLog

open Result CryptoSuite TrustCrypto Merkle Model

/-- The operations of the `Store` interface that the service calls. A store that is also a
`BatchAppendStore` has the last one. -/
structure Store (σ : Type) where
  getGlobalLeaf : σ → Nat → Outcome (Option GlobalLogLeaf)
  getGlobalLeafByBatchID : σ → String → Outcome (Option GlobalLogLeaf)
  listGlobalLeavesRange : σ → Nat → Nat → Outcome (List GlobalLogLeaf)
  putGlobalLogNode : σ → GlobalLogNode → Outcome Unit × σ
  getGlobalLogNode : σ → Nat → Nat → Outcome (Option GlobalLogNode)
  putGlobalLogState : σ → GlobalLogState → Outcome Unit × σ
  getGlobalLogState : σ → Outcome (Option GlobalLogState)
  getSignedTreeHead : σ → Nat → Outcome (Option SignedTreeHead)
  latestSignedTreeHead : σ → Outcome (Option SignedTreeHead) × σ
  commitGlobalLogAppend : σ → GlobalLogAppend → Outcome Unit × σ
  commitGlobalLogAppends : Option (σ → List GlobalLogAppend → Outcome Unit × σ)

structure Moment where
  appendedAt : Int
  updatedAt : Int
  signedAt : Int
  sign : Bytes → Outcome Signature

structure Attempt (σ : Type) where
  store : Store σ
  rebuiltAt : Nat → Int
  moments : Nat → Moment

/-- One call of `AppendBatchRoots`. `canceled` is `ctx.Err()` while backing off. -/
structure Call (σ : Type) where
  service : Service
  roots : List BatchRoot
  attempts : Nat → Attempt σ
  canceled : Nat → Option Err

def validateGlobalLogReplayRoot (existing incoming : BatchRoot) : Outcome Unit :=
  reject (existing.batchID ≠ incoming.batchID ∨ existing.cryptoSuite ≠ incoming.cryptoSuite ∨
      existing.nodeID ≠ incoming.nodeID ∨ existing.logID ≠ incoming.logID ∨
      existing.treeSize ≠ incoming.treeSize ∨ existing.closedAtUnixN ≠ incoming.closedAtUnixN ∨
      existing.batchRoot ≠ incoming.batchRoot)
    (.new .dataLoss "global log batch_id replay does not match the original batch root")

def validateGlobalLogReplayLeaf (existing : GlobalLogLeaf) (incoming : BatchRoot) : Outcome Unit :=
  reject (existing.batchID ≠ incoming.batchID ∨ existing.cryptoSuite ≠ incoming.cryptoSuite ∨
      existing.nodeID ≠ incoming.nodeID ∨ existing.logID ≠ incoming.logID ∨
      existing.batchTreeSize ≠ incoming.treeSize ∨
      existing.batchClosedAtUnixN ≠ incoming.closedAtUnixN ∨
      existing.batchRoot ≠ incoming.batchRoot)
    (.new .dataLoss "global log batch_id conflicts with the durable leaf")

/-- The local variables of the append loop. The maps `planned` and `plannedRoots` of the
source are always written together and are one list here. -/
structure Plan where
  state : GlobalLogState
  sths : List SignedTreeHead
  appends : List GlobalLogAppend
  planned : List (String × SignedTreeHead × BatchRoot)

def Plan.start (state : GlobalLogState) : Plan where
  state := state
  sths := []
  appends := []
  planned := []

def Plan.record (plan : Plan) (root : BatchRoot) (sth : SignedTreeHead) : Plan :=
  { plan with
    sths := plan.sths ++ [sth]
    planned := (root.batchID, sth, root) :: plan.planned }

def appendConflictAttempts : Nat := 16

namespace Service

section Append

variable (hashes : Hashes) (codec : Codec) (service : Service) {σ : Type}

def putNodes (store : Store σ) : List GlobalLogNode → σ → Outcome Unit × σ
  | [], db => (.ok (), db)
  | node :: rest, db =>
    chain (store.putGlobalLogNode db node) fun _ db => putNodes store rest db

def rebuildPage (attempt : Attempt σ) : List GlobalLogLeaf → GlobalLogState → Nat → σ →
    Outcome (GlobalLogState × Nat) × σ
  | [], state, nextLeafIndex, db => (.ok (state, nextLeafIndex), db)
  | leaf :: rest, state, _, db =>
    match appendState hashes service (attempt.rebuiltAt state.treeSize) state leaf with
    | .error err => (.error err, db)
    | .ok (next, nodes) =>
      chain (putNodes attempt.store nodes db) fun _ db =>
        rebuildPage attempt rest next (leaf.leafIndex + 1) db

/-- The outer loop of the rebuild, which ends at the first empty page. A `uint64` leaf index
grows with every page, so the bound on the pages is never met. -/
def rebuildPages (attempt : Attempt σ) : Nat → GlobalLogState → Nat → σ → Outcome GlobalLogState × σ
  | 0, state, _, db => (.ok state, db)
  | pages + 1, state, nextLeafIndex, db =>
    match attempt.store.listGlobalLeavesRange db nextLeafIndex 1024 with
    | .error err => (.error err, db)
    | .ok [] => (.ok state, db)
    | .ok leaves =>
      chain (rebuildPage hashes service attempt leaves state nextLeafIndex db)
        fun progress db => rebuildPages attempt pages progress.1 progress.2 db

def loadState (attempt : Attempt σ) (db : σ) : Outcome GlobalLogState × σ :=
  match attempt.store.getGlobalLogState db with
  | .error err => (.error err, db)
  | .ok (some state) =>
    match requireSame service.provider.suite [state.cryptoSuite] with
    | .error err => (.error (.wrap .dataLoss "global log state crypto_suite" err), db)
    | .ok () => (.ok state, db)
  | .ok none =>
    chain (rebuildPages hashes service attempt (2 ^ 64) service.emptyState 0 db)
      fun state db =>
        if 0 < state.treeSize then
          chain (attempt.store.putGlobalLogState db state) fun _ db => (.ok state, db)
        else (.ok state, db)

def bindIdentity (root : BatchRoot) : BatchRoot :=
  let nodeID := trimSpace root.nodeID
  let logID := trimSpace root.logID
  { root with
    nodeID := if nodeID = "" then service.nodeID else nodeID
    logID := if logID = "" then service.logID else logID }

@[simp] theorem bindIdentity_batchID (root : BatchRoot) :
    (service.bindIdentity root).batchID = root.batchID := by
  simp only [bindIdentity]

@[simp] theorem bindIdentity_cryptoSuite (root : BatchRoot) :
    (service.bindIdentity root).cryptoSuite = root.cryptoSuite := by
  simp only [bindIdentity]

def planReplay (store : Store σ) (db : σ) (plan : Plan) (root : BatchRoot)
    (existing : GlobalLogLeaf) : Outcome Plan := do
  validateGlobalLogReplayLeaf existing root
  match ← store.getSignedTreeHead db (existing.leafIndex + 1) with
  | none =>
    throw (.new .dataLoss "global log leaf exists without matching signed tree head")
  | some sth =>
    reject (sth.nodeID ≠ service.nodeID ∨ sth.logID ≠ service.logID)
      (.new .dataLoss
        "global log replay signed tree head identity does not match signer stream")
    return plan.record root sth

def newLeaf (moment : Moment) (state : GlobalLogState) (root : BatchRoot) : GlobalLogLeaf where
  schemaVersion := schemaGlobalLogLeaf
  cryptoSuite := service.provider.suite
  nodeID := root.nodeID
  logID := root.logID
  batchID := root.batchID
  batchRoot := root.batchRoot
  batchTreeSize := root.treeSize
  batchClosedAtUnixN := root.closedAtUnixN
  leafIndex := state.treeSize
  leafHash := []
  appendedAtUnixN := moment.appendedAt

def planFresh (moment : Moment) (plan : Plan) (root : BatchRoot) : Outcome Plan := do
  let unhashed := service.newLeaf moment plan.state root
  let leafHash ← (hashLeafWithProvider hashes codec service.provider unhashed).mapError
    (.wrap .internal "hash global log leaf")
  let leaf := { unhashed with leafHash }
  let (state, nodes) ← appendState hashes service moment.updatedAt plan.state leaf
  let sth ← signSTHFromState codec service moment.signedAt moment.sign state
  return { plan.record root sth with
    state := state
    appends := plan.appends ++ [{ leaf, nodes, state, sth }] }

def planRoot (store : Store σ) (db : σ) (moment : Moment) (plan : Plan) (given : BatchRoot) :
    Outcome Plan := do
  let root := service.bindIdentity given
  reject (root.nodeID ≠ service.nodeID ∨ root.logID ≠ service.logID)
    (.new .invalidArgument "global log batch root identity does not match signer stream")
  match plan.planned.lookup root.batchID with
  | some (sth, earlier) =>
    validateGlobalLogReplayRoot earlier root
    return { plan with sths := plan.sths ++ [sth] }
  | none =>
    match ← store.getGlobalLeafByBatchID db root.batchID with
    | some existing => planReplay service store db plan root existing
    | none => planFresh hashes codec service moment plan root

def planRoots (attempt : Attempt σ) (db : σ) : Nat → List BatchRoot → Plan → Outcome Plan
  | _, [], plan => return plan
  | position, root :: rest, plan => do
    let next ← planRoot hashes codec service attempt.store db (attempt.moments position) plan root
    planRoots attempt db (position + 1) rest next

def commitEach (store : Store σ) : List GlobalLogAppend → σ → Outcome Unit × σ
  | [], db => (.ok (), db)
  | entry :: rest, db =>
    chain (store.commitGlobalLogAppend db entry) fun _ db => commitEach store rest db

def commitAppends (store : Store σ) (appends : List GlobalLogAppend) (db : σ) : Outcome Unit × σ :=
  match store.commitGlobalLogAppends with
  | some commit => commit db appends
  | none => commitEach store appends db

def appendBatchRootsOnce (attempt : Attempt σ) (roots : List BatchRoot) (db : σ) :
    Except (Bool × Err) (List SignedTreeHead) × σ :=
  match loadState hashes service attempt db with
  | (.error err, db) => (.error (false, err), db)
  | (.ok state, db) =>
    match planRoots hashes codec service attempt db 0 roots (.start state) with
    | .error err => (.error (false, err), db)
    | .ok plan =>
      if plan.appends = [] then (.ok plan.sths, db)
      else
        match commitAppends attempt.store plan.appends db with
        | (.ok (), db) => (.ok plan.sths, db)
        | (.error err, db) => (.error (err.codeOf = .failedPrecondition, err), db)

def checkRoots : Nat → List BatchRoot → Outcome Unit
  | _, [] => return ()
  | position, root :: rest => do
    (requireSame service.provider.suite [root.cryptoSuite]).mapError
      (.wrap .invalidArgument s!"global log batch root {position} crypto_suite")
    reject (root.batchID = "")
      (.new .invalidArgument "global log batch_id is required")
    reject (root.batchRoot.length ≠ service.profile.size)
      (.new .invalidArgument "global log batch_root has the wrong digest size")
    checkRoots (position + 1) rest

def retryAppend (call : Call σ) : Nat → σ → Outcome (List SignedTreeHead) × σ
  | remaining, db =>
    let attempt := appendConflictAttempts - 1 - remaining
    match appendBatchRootsOnce hashes codec call.service (call.attempts attempt) call.roots db with
    | (.ok sths, db) => (.ok sths, db)
    | (.error (retryable, err), db) =>
      match retryable, remaining with
      | false, _ => (.error err, db)
      | true, 0 => (.error err, db)
      | true, remaining + 1 =>
        match call.canceled attempt with
        | some err => (.error err, db)
        | none => retryAppend call remaining db

def appendBatchRoots (call : Call σ) (db : σ) : Outcome (List SignedTreeHead) × σ :=
  if ¬call.service.hasSigner then
    (.error (.new .failedPrecondition "global log signer is not configured"), db)
  else if call.roots.length = 0 then
    (.error (.new .invalidArgument "global log append requires at least one batch root"), db)
  else
    match checkRoots call.service 0 call.roots with
    | .error err => (.error err, db)
    | .ok () => retryAppend hashes codec call (appendConflictAttempts - 1) db

/-- The outcomes of a sequence of calls and the store they leave. The service keeps nothing
between calls, so a restart is a call like any other. -/
def runCalls : List (Call σ) → σ → List (Outcome (List SignedTreeHead)) × σ
  | [], db => ([], db)
  | call :: rest, db =>
    let (outcome, after) := appendBatchRoots hashes codec call db
    let (later, last) := runCalls rest after
    (outcome :: later, last)

end Append

end Service

def isPowerOfTwo (n : Nat) : Bool := 0 < n ∧ n &&& (n - 1) = 0

/-- `bits.TrailingZeros64`: clearing the lowest set bit and subtracting leaves that bit. -/
def trailingZeros64 (n : Nat) : Nat := if n = 0 then 64 else Nat.log2 (n - (n &&& (n - 1)))

/-- `bits.Len64(n-1) - 1` is the integer logarithm of `n - 1`. -/
def largestPowerOfTwoLessThan64 (n : Nat) : Nat := if n < 2 then 0 else 2 ^ Nat.log2 (n - 1)

namespace Service

section Read

variable (hashes : Hashes) (service : Service) {σ : Type} (store : Store σ) (db : σ)

def storedLeafHash (index : Nat) : Outcome Bytes := do
  match ← store.getGlobalLeaf db index with
  | none => throw (.new .notFound "global log leaf not found")
  | some leaf => return leaf.leafHash

def storedNodeHash (start width : Nat) : Outcome (Option Bytes) := do
  if isPowerOfTwo width then
    let node ← store.getGlobalLogNode db (trailingZeros64 width) start
    return node.map GlobalLogNode.hash
  else return none

def subtreeRootAux : Nat → Nat → Nat → Outcome Bytes
  | 0, _, _ => throw (.new .invalidArgument "global subtree width is zero")
  | fuel + 1, start, width => do
    if width = 0 then throw (.new .invalidArgument "global subtree width is zero")
    else if width = 1 then storedLeafHash store db start
    else
      match ← storedNodeHash store db start width with
      | some hash => return hash
      | none =>
        let k := if isPowerOfTwo width then width / 2 else largestPowerOfTwoLessThan64 width
        let left ← subtreeRootAux fuel start k
        let right ← subtreeRootAux fuel (start + k) (width - k)
        hashNodeBytes hashes service left right

def subtreeRoot (start width : Nat) : Outcome Bytes :=
  subtreeRootAux hashes service store db width start width

def auditPathAux : Nat → Nat → Nat → Nat → Outcome (List Bytes)
  | 0, _, _, _ => throw (.new .invalidArgument "global audit path range is invalid")
  | fuel + 1, leafIndex, start, width => do
    if width = 0 ∨ leafIndex < start ∨ start + width ≤ leafIndex then
      throw (.new .invalidArgument "global audit path range is invalid")
    else if width = 1 then return []
    else
      let k := largestPowerOfTwoLessThan64 width
      if leafIndex < start + k then do
        let path ← auditPathAux fuel leafIndex start k
        let right ← subtreeRoot hashes service store db (start + k) (width - k)
        return path ++ [right]
      else do
        let path ← auditPathAux fuel leafIndex (start + k) (width - k)
        let left ← subtreeRoot hashes service store db start k
        return path ++ [left]

def auditPath (leafIndex start width : Nat) : Outcome (List Bytes) :=
  auditPathAux hashes service store db width leafIndex start width

def consistencyProofRangeAux : Nat → Nat → Nat → Nat → Bool → Outcome (List Bytes)
  | 0, _, _, _, _ => throw (.new .invalidArgument "invalid consistency proof range")
  | fuel + 1, start, width, fromSize, complete => do
    if fromSize = 0 ∨ width < fromSize then
      throw (.new .invalidArgument "invalid consistency proof range")
    else if fromSize = width then
      if complete then return []
      else do
        let root ← subtreeRoot hashes service store db start width
        return [root]
    else
      let k := largestPowerOfTwoLessThan64 width
      if fromSize ≤ k then do
        let left ← consistencyProofRangeAux fuel start k fromSize complete
        let right ← subtreeRoot hashes service store db (start + k) (width - k)
        return left ++ [right]
      else do
        let right ← consistencyProofRangeAux fuel (start + k) (width - k) (fromSize - k) false
        let left ← subtreeRoot hashes service store db start k
        return right ++ [left]

def consistencyProofRange (start width fromSize : Nat) (complete : Bool) : Outcome (List Bytes) :=
  consistencyProofRangeAux hashes service store db width start width fromSize complete

def consistencyProof (fromSize toSize : Nat) : Outcome GlobalConsistencyProof := do
  reject (fromSize = 0 ∨ toSize = 0 ∨ toSize < fromSize)
    (.new .invalidArgument "consistency proof requires 0 < from <= to")
  let path ← consistencyProofRange hashes service store db 0 toSize fromSize true
  return { fromTreeSize := fromSize, toTreeSize := toSize, auditPath := path }

def proveLeaf (leaf : GlobalLogLeaf) (batchID : String) (treeSize : Nat) : Outcome GlobalLogProof := do
  reject (treeSize ≤ leaf.leafIndex)
    (.new .failedPrecondition "batch is not included in requested STH")
  match ← store.getSignedTreeHead db treeSize with
  | none => throw (.new .notFound "signed tree head not found")
  | some sth =>
    let path ← (auditPath hashes service store db leaf.leafIndex 0 treeSize).mapError
      (.wrap .internal "build global inclusion proof")
    return {
      schemaVersion := schemaGlobalLogProof
      cryptoSuite := service.provider.suite
      nodeID := leaf.nodeID
      logID := leaf.logID
      batchID := batchID
      leafIndex := leaf.leafIndex
      leafHash := leaf.leafHash
      treeSize := treeSize
      inclusionPath := path
      sth := sth
      consistency := default }

/-- A request for tree size zero means the latest tree head, which a store may look up in a
way that repairs its own reference to it. -/
def requestedTreeSize (treeSize : Nat) (db : σ) : Outcome Nat × σ :=
  if treeSize = 0 then
    chain (store.latestSignedTreeHead db) fun
      | none, db => (.error (.new .notFound "signed tree head not found"), db)
      | some latest, db => (.ok latest.treeSize, db)
  else (.ok treeSize, db)

def inclusionProof (batchID : String) (treeSize : Nat) : Outcome GlobalLogProof × σ :=
  match store.getGlobalLeafByBatchID db batchID with
  | .error err => (.error err, db)
  | .ok none => (.error (.new .notFound "global log leaf not found"), db)
  | .ok (some leaf) =>
    chain (requestedTreeSize store treeSize db) fun treeSize db =>
      (proveLeaf hashes service store db leaf batchID treeSize, db)

end Read

end Service

/-- The reference that the package keeps beside the service: over leaf hashes, and always
with the default suite. The package's copy of the split function lacks the guard `n < 2` of `merkle`'s;
`consistencyProof` never splits fewer than two leaves, and from there on both are the same. -/
def subproof (hashes : Hashes) : Nat → List Bytes → Nat → Bool → Outcome (List Bytes)
  | 0, _, _, _ => throw (.text "merkle: empty leaves")
  | fuel + 1, leaves, fromSize, complete => do
    if fromSize = leaves.length then
      if complete then return []
      else do
        let root ← rootFromLeaves hashes leaves
        return [root]
    else
      let k := Merkle.largestPowerOfTwoLessThan leaves.length
      if fromSize ≤ k then do
        let left ← subproof hashes fuel (leaves.take k) fromSize complete
        let right ← rootFromLeaves hashes (leaves.drop k)
        return left ++ [right]
      else do
        let right ← subproof hashes fuel (leaves.drop k) (fromSize - k) false
        let left ← rootFromLeaves hashes (leaves.take k)
        return right ++ [left]

def consistencyProof (hashes : Hashes) (leaves : List Bytes) (fromSize : Nat) : Outcome (List Bytes) := do
  reject (fromSize = 0 ∨ leaves.length < fromSize)
    (.new .invalidArgument "invalid consistency proof range")
  if fromSize = leaves.length then return []
  else subproof hashes leaves.length leaves fromSize true

def verifyInclusionForSuite (hashes : Hashes) (fuel : Nat) (suiteID : ID) (proof : GlobalLogProof) :
    ExceptT Err Option Bool := do
  if proof.schemaVersion ≠ schemaGlobalLogProof then return false
  else do
    ExceptT.mk (some (requireSame suiteID [proof.cryptoSuite, proof.sth.cryptoSuite]))
    if proof.sth.schemaVersion ≠ schemaSignedTreeHead ∨ proof.treeSize ≠ proof.sth.treeSize then
      return false
    else if proof.treeSize = 0 ∨ proof.treeSize ≤ proof.leafIndex then return false
    else
      verifyForSuite hashes fuel suiteID proof.sth.treeAlg proof.leafHash proof.leafIndex
        proof.treeSize proof.inclusionPath proof.sth.rootHash

def verifySTHWithProvider (codec : Codec) (primitives : Primitives) (sth : SignedTreeHead)
    (publicKey : PublicKeyDescriptor) (provider : Provider) : Outcome Unit := do
  let suite ← requireAvailable provider.suite
  reject (sth.treeAlg ≠ suite.merkle.algorithm)
    (.text ("verify signed tree head: tree algorithm " ++ sth.treeAlg.quote ++
      " does not match suite " ++ suite.id))
  (requireSame suite.id [sth.cryptoSuite, publicKey.suite]).mapError (.textOf "verify signed tree head")
  let payload ← codec.signedTreeHead { sth with signature := default }
  let input ← signatureInputForSuite provider.suite .signedTreeHead payload
  (verify primitives provider publicKey input sth.signature).mapError
    (.textOf "verify signed tree head")

def verifyInclusionWithProvider (hashes : Hashes) (fuel : Nat) (provider : Provider)
    (proof : GlobalLogProof) : Option Bool :=
  (verifyInclusionForSuite hashes fuel provider.suite proof).run.map fun
    | .ok accepted => accepted
    | .error _ => false

end TrustDB.GlobalLog
