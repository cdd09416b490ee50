import TrustDB.CryptoSuite

/-!
Package `model`: the records that travel between the log, the stores and the
verifier. Counters are natural numbers, times are signed nanoseconds, and an
absent byte string is the empty one; `default` is the Go zero value.
-/

namespace TrustDB.Model

open CryptoSuite (ID)

def schemaClientClaim : String := "trustdb.claim.v2"

def schemaSignedClaim : String := "trustdb.signed-claim.v2"

def schemaServerRecord : String := "trustdb.server-record.v2"

def schemaAcceptedReceipt : String := "trustdb.accepted-receipt.v2"

def schemaCommittedReceipt : String := "trustdb.committed-receipt.v2"

def schemaProofBundle : String := "trustdb.proof-bundle.v2"

def schemaGlobalLogLeaf : String := "trustdb.global-log-leaf.v2"

def schemaGlobalLogNode : String := "trustdb.global-log-node.v2"

def schemaGlobalLogState : String := "trustdb.global-log-state.v2"

def schemaSignedTreeHead : String := "trustdb.signed-tree-head.v2"

def schemaGlobalLogProof : String := "trustdb.global-log-proof.v2"

def schemaSTHAnchorResult : String := "trustdb.sth-anchor-result.v2"

def defaultHashAlg : String := CryptoSuite.hashSHA256

def anchorEvidenceStageOfflineVerified : String := "offline_verified"

structure StringMap where
  entries : List (String × String)
  ordered : entries.Pairwise fun first second => first.1 < second.1
  deriving Repr, DecidableEq

instance : Inhabited StringMap := ⟨{ entries := [], ordered := .nil }⟩

structure Content where
  hashAlg : String
  contentHash : Bytes
  contentLength : Int
  mediaType : String
  storageURI : String
  deriving Repr, DecidableEq, Inhabited

structure Metadata where
  eventType : String
  source : String
  traceID : String
  parents : List String
  custom : StringMap
  deriving Repr, DecidableEq, Inhabited

structure TimeAttestation where
  type : String
  token : Bytes
  deriving Repr, DecidableEq, Inhabited

structure ClientClaim where
  schemaVersion : String
  cryptoSuite : ID
  tenantID : String
  clientID : String
  keyID : String
  producedAtUnixN : Int
  nonce : Bytes
  idempotencyKey : String
  content : Content
  metadata : Metadata
  timeAttestation : TimeAttestation
  deriving Repr, DecidableEq, Inhabited

structure Signature where
  alg : String
  keyID : String
  signature : Bytes
  deriving Repr, DecidableEq, Inhabited

structure SignedClaim where
  schemaVersion : String
  cryptoSuite : ID
  claim : ClientClaim
  signature : Signature
  deriving Repr, DecidableEq, Inhabited

structure RecordIDInput where
  schemaVersion : String
  cryptoSuite : ID
  claimCBOR : Bytes
  signature : Signature
  deriving Repr, DecidableEq, Inhabited

structure WALPosition where
  segmentID : Nat
  offset : Int
  sequence : Nat
  deriving Repr, DecidableEq, Inhabited

structure Validation where
  policyVersion : String
  hashAlgAllowed : Bool
  signatureAlgAllowed : Bool
  keyStatus : String
  deriving Repr, DecidableEq, Inhabited

structure ServerRecord where
  schemaVersion : String
  cryptoSuite : ID
  recordID : String
  tenantID : String
  clientID : String
  keyID : String
  claimHash : Bytes
  clientSignatureHash : Bytes
  receivedAtUnixN : Int
  wal : WALPosition
  validation : Validation
  deriving Repr, DecidableEq, Inhabited

structure AcceptedReceipt where
  schemaVersion : String
  cryptoSuite : ID
  recordID : String
  status : String
  serverID : String
  receivedAtUnixN : Int
  wal : WALPosition
  serverSig : Signature
  deriving Repr, DecidableEq, Inhabited

structure CommittedReceipt where
  schemaVersion : String
  cryptoSuite : ID
  recordID : String
  status : String
  batchID : String
  leafIndex : Nat
  leafHash : Bytes
  batchRoot : Bytes
  closedAtUnixN : Int
  nodeID : String
  logID : String
  serverSig : Signature
  deriving Repr, DecidableEq, Inhabited

structure BatchProof where
  treeAlg : String
  leafIndex : Nat
  treeSize : Nat
  auditPath : List Bytes
  deriving Repr, DecidableEq, Inhabited

structure ProofBundle where
  schemaVersion : String
  cryptoSuite : ID
  recordID : String
  nodeID : String
  logID : String
  signedClaim : SignedClaim
  serverRecord : ServerRecord
  acceptedReceipt : AcceptedReceipt
  committedReceipt : CommittedReceipt
  batchProof : BatchProof
  deriving Repr, DecidableEq, Inhabited

structure BatchRoot where
  schemaVersion : String
  cryptoSuite : ID
  batchID : String
  nodeID : String
  logID : String
  batchRoot : Bytes
  treeSize : Nat
  closedAtUnixN : Int
  deriving Repr, DecidableEq, Inhabited

structure GlobalLogLeaf where
  schemaVersion : String
  cryptoSuite : ID
  nodeID : String
  logID : String
  batchID : String
  batchRoot : Bytes
  batchTreeSize : Nat
  batchClosedAtUnixN : Int
  leafIndex : Nat
  leafHash : Bytes
  appendedAtUnixN : Int
  deriving Repr, DecidableEq, Inhabited

structure GlobalLogNode where
  schemaVersion : String
  cryptoSuite : ID
  level : Nat
  startIndex : Nat
  width : Nat
  hash : Bytes
  createdAtUnixN : Int
  deriving Repr, DecidableEq, Inhabited

structure GlobalLogState where
  schemaVersion : String
  cryptoSuite : ID
  treeSize : Nat
  rootHash : Bytes
  frontier : List Bytes
  updatedAtUnixN : Int
  deriving Repr, DecidableEq, Inhabited

structure SignedTreeHead where
  schemaVersion : String
  cryptoSuite : ID
  treeAlg : String
  treeSize : Nat
  rootHash : Bytes
  timestampUnixN : Int
  nodeID : String
  logID : String
  signature : Signature
  deriving Repr, DecidableEq, Inhabited

structure GlobalLogAppend where
  leaf : GlobalLogLeaf
  nodes : List GlobalLogNode
  state : GlobalLogState
  sth : SignedTreeHead
  deriving Repr, DecidableEq, Inhabited

structure GlobalConsistencyProof where
  fromTreeSize : Nat
  toTreeSize : Nat
  auditPath : List Bytes
  deriving Repr, DecidableEq, Inhabited

structure GlobalLogProof where
  schemaVersion : String
  cryptoSuite : ID
  nodeID : String
  logID : String
  batchID : String
  leafIndex : Nat
  leafHash : Bytes
  treeSize : Nat
  inclusionPath : List Bytes
  sth : SignedTreeHead
  consistency : GlobalConsistencyProof
  deriving Repr, DecidableEq, Inhabited

structure STHAnchorResult where
  schemaVersion : String
  cryptoSuite : ID
  nodeID : String
  logID : String
  treeSize : Nat
  sinkName : String
  anchorID : String
  rootHash : Bytes
  sth : SignedTreeHead
  proof : Bytes
  evidenceStage : String
  publishedAtUnixN : Int
  deriving Repr, DecidableEq, Inhabited

end TrustDB.Model
