import TrustDB.Anchor
import TrustDB.Claim
import TrustDB.GlobalLog.Service
import TrustDB.ProofLevel
import TrustDB.Receipt

/-!
Package `verify`: the checks of a proof bundle and of the log proof and the anchor that
extend it. Reading the JSON envelope and the timestamps of an OpenTimestamps proof is left
to parameters. Runs need fuel, because Merkle verification may not end.
-/

namespace TrustDB.Verify

open Result CryptoSuite TrustCrypto Model

structure TrustedKeys where
  clientPublicKey : PublicKeyDescriptor
  serverPublicKey : PublicKeyDescriptor
  acceptedReceiptPublicKey : PublicKeyDescriptor
  committedReceiptPublicKey : PublicKeyDescriptor
  signedTreeHeadPublicKey : PublicKeyDescriptor
  cryptoProvider : Option Provider
  deriving Repr, DecidableEq

structure ProofResult where
  valid : Bool
  recordID : String
  proofLevel : String
  anchorSink : String
  anchorID : String
  deriving Repr, DecidableEq

structure NamespaceBinding where
  nodeID : String
  logID : String
  deriving Repr, DecidableEq

structure Options where
  global : Option GlobalLogProof
  anchor : Option STHAnchorResult
  anchorVerifier : Option (SignedTreeHead → STHAnchorResult → Outcome Unit)
  binding : Option NamespaceBinding

inductive Stage
  | proofBundle
  | content
  | clientClaim
  | bundleBindings
  | acceptedReceipt
  | committedReceipt
  | batchMerkle
  | globalLog
  | anchor
  deriving Repr, DecidableEq

/-- An error, with the stage that `FailedStage` finds in it. -/
structure Failure where
  stage : Option Stage
  err : Err
  deriving Repr, DecidableEq

/-- `failStage` around the error of a check. -/
def atStage {α : Type} (stage : Stage) (check : ExceptT Err Option α) : ExceptT Failure Option α :=
  check.adapt fun err => { stage := some stage, err }

def step {α : Type} (check : Outcome α) : ExceptT Err Option α := ExceptT.mk (some check)

def exactNamespace (subject : String) (binding : NamespaceBinding) (nodeID logID : String)
    (sth : SignedTreeHead) : Outcome Unit := do
  reject (binding.nodeID = "" ∨ nodeID ≠ binding.nodeID ∨ sth.nodeID ≠ binding.nodeID)
    (.text ("verify: " ++ subject ++ " node_id does not exactly match the evidence namespace"))
  reject (binding.logID = "" ∨ logID ≠ binding.logID ∨ sth.logID ≠ binding.logID)
    (.text ("verify: " ++ subject ++ " log_id does not exactly match the evidence namespace"))

def exactGlobalNamespace (proof : GlobalLogProof) (binding : NamespaceBinding) : Outcome Unit :=
  exactNamespace "global proof" binding proof.nodeID proof.logID proof.sth

def exactAnchorNamespace (result : STHAnchorResult) (binding : NamespaceBinding) : Outcome Unit :=
  exactNamespace "anchor result" binding result.nodeID result.logID result.sth

def publicKeyOrFallback (specific fallback : PublicKeyDescriptor) : PublicKeyDescriptor :=
  if specific.bytes.length = 0 then fallback else specific

/-- `json.Unmarshal` of the envelope, and `anchor.ParseOtsTimestamp` of a digest and a timestamp. -/
structure OtsReader where
  unmarshal : Bytes → Outcome Anchor.OtsAnchorProof
  parseOtsTimestamp : Bytes → Bytes → Outcome Unit

def Conflict (first second : String) : Prop := first ≠ "" ∧ second ≠ "" ∧ first ≠ second

instance (first second : String) : Decidable (Conflict first second) :=
  inferInstanceAs (Decidable (_ ∧ _))

section

variable (hashes : Hashes) (codec : Codec) (primitives : Primitives) (ots : OtsReader)

def validateBundleBindings (bundle : ProofBundle) (verified : Claim.Verified) (provider : Provider) :
    Outcome Unit := do
  let suite ← requireAvailable provider.suite
  (ModelSuite.requireProofBundle suite.id bundle).mapError (.textOf "verify: proof bundle crypto_suite")
  let record := bundle.serverRecord
  let claim := bundle.signedClaim.claim
  reject (record.tenantID ≠ claim.tenantID) (.text "verify: server record tenant_id mismatch")
  reject (record.clientID ≠ claim.clientID) (.text "verify: server record client_id mismatch")
  reject (record.keyID ≠ claim.keyID) (.text "verify: server record key_id mismatch")
  let claimHash ← hashBytesWithProvider hashes provider suite.claimHash.algorithm verified.claimCBOR
  reject (record.claimHash ≠ claimHash) (.text "verify: server record claim_hash mismatch")
  let sigHash ← hashBytesWithProvider hashes provider suite.signatureHash.algorithm
    bundle.signedClaim.signature.signature
  reject (record.clientSignatureHash ≠ sigHash)
    (.text "verify: server record client_signature_hash mismatch")
  let accepted := bundle.acceptedReceipt
  reject (accepted.recordID ≠ verified.recordID)
    (.text "verify: accepted receipt record_id mismatch")
  reject (accepted.receivedAtUnixN ≠ record.receivedAtUnixN)
    (.text "verify: accepted receipt received_at mismatch")
  reject (accepted.wal ≠ record.wal) (.text "verify: accepted receipt WAL mismatch")
  reject (Conflict bundle.nodeID accepted.serverID) (.text "verify: bundle node_id mismatch")
  let committed := bundle.committedReceipt
  reject (committed.recordID ≠ verified.recordID)
    (.text "verify: committed receipt record_id mismatch")
  reject (committed.leafIndex ≠ bundle.batchProof.leafIndex)
    (.text "verify: committed receipt leaf_index mismatch")
  reject (Conflict committed.nodeID bundle.nodeID)
    (.text "verify: committed receipt node_id mismatch")
  reject (Conflict committed.logID bundle.logID)
    (.text "verify: committed receipt log_id mismatch")
  reject (bundle.batchProof.treeAlg ≠ suite.merkle.algorithm)
    (.text ("verify: unsupported batch proof tree_alg: " ++ bundle.batchProof.treeAlg))
  reject (bundle.batchProof.treeSize = 0 ∨ bundle.batchProof.treeSize ≤ bundle.batchProof.leafIndex)
    (.text "verify: invalid batch proof leaf index")

def expectedLeaf (suiteID : ID) (bundle : ProofBundle) (proof : GlobalLogProof) : GlobalLogLeaf where
  schemaVersion := schemaGlobalLogLeaf
  cryptoSuite := suiteID
  nodeID := proof.nodeID
  logID := proof.logID
  batchID := bundle.committedReceipt.batchID
  batchRoot := bundle.committedReceipt.batchRoot
  batchTreeSize := bundle.batchProof.treeSize
  batchClosedAtUnixN := bundle.committedReceipt.closedAtUnixN
  leafIndex := proof.leafIndex
  leafHash := []
  appendedAtUnixN := 0

/-- The comparisons of `globalLogConsistencyWithProvider` before any hashing. -/
def checkGlobalProof (bundle : ProofBundle) (proof : GlobalLogProof) (provider : Provider) :
    Outcome Suite := do
  reject (proof.schemaVersion ≠ schemaGlobalLogProof)
    (.text ("verify: unexpected global log proof schema: " ++ proof.schemaVersion))
  reject (proof.sth.schemaVersion ≠ schemaSignedTreeHead)
    (.text ("verify: unexpected STH schema: " ++ proof.sth.schemaVersion))
  let suite ← requireAvailable provider.suite
  (ModelSuite.requireProofBundle suite.id bundle).mapError (.textOf "verify: proof bundle crypto_suite")
  (ModelSuite.requireGlobalLogProof suite.id proof).mapError (.textOf "verify: global proof crypto_suite")
  reject (proof.sth.treeAlg ≠ suite.merkle.algorithm)
    (.text ("verify: unsupported STH tree_alg: " ++ proof.sth.treeAlg))
  reject (proof.treeSize ≠ proof.sth.treeSize)
    (.text ("verify: global proof tree_size mismatch: proof=" ++ toString proof.treeSize ++ " sth=" ++
      toString proof.sth.treeSize))
  reject (proof.sth.rootHash.length ≠ suite.merkle.hash.digestBytes)
    (.text (s!"verify: STH root_hash has length {proof.sth.rootHash.length}, want " ++
      toString suite.merkle.hash.digestBytes))
  reject (proof.batchID ≠ bundle.committedReceipt.batchID)
    (.text ("verify: global proof batch_id mismatch: proof=" ++ proof.batchID ++ " bundle=" ++
      bundle.committedReceipt.batchID))
  reject (Conflict proof.nodeID bundle.nodeID)
    (.text ("verify: global proof node_id mismatch: proof=" ++ proof.nodeID ++ " bundle=" ++ bundle.nodeID))
  reject (Conflict proof.logID bundle.logID)
    (.text ("verify: global proof log_id mismatch: proof=" ++ proof.logID ++ " bundle=" ++ bundle.logID))
  reject (Conflict proof.sth.nodeID proof.nodeID)
    (.text ("verify: global proof STH node_id mismatch: proof=" ++ proof.nodeID ++ " sth=" ++
      proof.sth.nodeID))
  reject (Conflict proof.sth.logID proof.logID)
    (.text ("verify: global proof STH log_id mismatch: proof=" ++ proof.logID ++ " sth=" ++
      proof.sth.logID))
  return suite

def globalLogConsistencyWithProvider (fuel : Nat) (bundle : ProofBundle) (proof : GlobalLogProof)
    (provider : Provider) : ExceptT Err Option Unit := do
  let suite ← step (checkGlobalProof bundle proof provider)
  let included ← ExceptT.lift (GlobalLog.verifyInclusionWithProvider hashes fuel provider proof)
  step (reject (included = false) (.text "verify: global log inclusion proof failed"))
  let hash ← step (GlobalLog.hashLeafWithProvider hashes codec provider
    (expectedLeaf suite.id bundle proof))
  step (reject (hash ≠ proof.leafHash) (.text "verify: global log leaf hash mismatch"))

def verifyGlobalLogProof (fuel : Nat) (bundle : ProofBundle) (proof : GlobalLogProof)
    (publicKey : PublicKeyDescriptor) (provider : Provider) : ExceptT Err Option Unit := do
  globalLogConsistencyWithProvider hashes codec fuel bundle proof provider
  step (GlobalLog.verifySTHWithProvider codec primitives proof.sth publicKey provider)

def sameSignedTreeHead (left right : SignedTreeHead) : Bool :=
  left.schemaVersion = right.schemaVersion && left.cryptoSuite = right.cryptoSuite &&
    left.treeAlg = right.treeAlg && left.treeSize = right.treeSize && left.rootHash = right.rootHash &&
    left.timestampUnixN = right.timestampUnixN && left.nodeID = right.nodeID &&
    left.logID = right.logID && left.signature.alg = right.signature.alg &&
    left.signature.keyID = right.signature.keyID &&
    left.signature.signature = right.signature.signature

def anchorBindingConsistency (proof : GlobalLogProof) (ar : STHAnchorResult) : Outcome Unit := do
  reject (ar.schemaVersion ≠ schemaSTHAnchorResult)
    (.text ("verify: unexpected anchor result schema: " ++ ar.schemaVersion))
  let suite ← (requireAvailable ar.cryptoSuite).mapError (.textOf "verify: anchor result crypto_suite")
  (ModelSuite.requireGlobalLogProof suite.id proof).mapError (.textOf "verify: global proof crypto_suite")
  (ModelSuite.requireSTHAnchorResult suite.id ar).mapError (.textOf "verify: anchor result crypto_suite")
  reject (ar.evidenceStage ≠ anchorEvidenceStageOfflineVerified)
    (.text ("verify: anchor evidence stage is not offline_verified: " ++ ar.evidenceStage))
  reject (ar.treeSize ≠ proof.sth.treeSize)
    (.text ("verify: anchor tree_size mismatch: anchor=" ++ toString ar.treeSize ++ " sth=" ++
      toString proof.sth.treeSize))
  reject (ar.nodeID = "" ∨ proof.sth.nodeID = "" ∨ ar.nodeID ≠ proof.sth.nodeID)
    (.text ("verify: anchor node_id mismatch: anchor=" ++ ar.nodeID ++ " sth=" ++ proof.sth.nodeID))
  reject (ar.logID = "" ∨ proof.sth.logID = "" ∨ ar.logID ≠ proof.sth.logID)
    (.text ("verify: anchor log_id mismatch: anchor=" ++ ar.logID ++ " sth=" ++ proof.sth.logID))
  reject (ar.rootHash ≠ proof.sth.rootHash)
    (.text "verify: anchor root_hash does not match STH root")
  reject (ar.sinkName = "") (.text "verify: anchor result is missing sink_name")
  reject (ar.anchorID = "") (.text "verify: anchor result is missing anchor_id")
  reject (sameSignedTreeHead ar.sth proof.sth = false)
    (.text "verify: anchor signed tree head does not exactly match global proof STH")

def countAccepted (digest : Bytes) : List Anchor.OtsCalendarTimestamp → Nat → Outcome Nat
  | [], accepted => .ok accepted
  | calendar :: rest, accepted =>
    if ¬calendar.accepted then countAccepted digest rest accepted
    else do
      reject (calendar.rawTimestamp.length = 0)
        (.text "verify: ots accepted calendar has empty timestamp")
      (ots.parseOtsTimestamp digest calendar.rawTimestamp).mapError
        (.textOf "verify: parse ots timestamp")
      countAccepted digest rest (accepted + 1)

def validateOtsAnchorProof (sth : SignedTreeHead) (ar : STHAnchorResult) : Outcome Unit := do
  reject (ar.proof.length = 0) (.text "verify: ots anchor proof is empty")
  let proof ← (ots.unmarshal ar.proof).mapError (.textOf "verify: decode ots anchor proof")
  reject (proof.schemaVersion ≠ Anchor.schemaOtsAnchorProof)
    (.text ("verify: unexpected ots anchor proof schema: " ++ proof.schemaVersion))
  reject (proof.treeSize ≠ sth.treeSize) (.text "verify: ots anchor proof tree_size mismatch")
  reject (proof.hashAlg ≠ defaultHashAlg)
    (.text ("verify: unsupported ots anchor proof hash_alg: " ++ proof.hashAlg))
  reject (proof.digest ≠ sth.rootHash) (.text "verify: ots anchor proof digest mismatch")
  let accepted ← countAccepted ots proof.digest proof.calendars 0
  reject (accepted = 0) (.text "verify: ots anchor proof has no accepted calendars")

/-- `none` where the sink is not a built-in one. -/
def verifyBuiltInAnchor (proof : GlobalLogProof) (ar : STHAnchorResult) : Option (Outcome Unit) :=
  if ar.sinkName = Anchor.fileSinkName then
    some (.error (.text ("verify: file sink is local-only and cannot provide " ++
      "offline-verifiable anchor evidence")))
  else if ar.sinkName = Anchor.noopSinkName then
    some (.error (.text ("verify: noop sink is local-only and cannot provide " ++
      "offline-verifiable anchor evidence")))
  else if ar.sinkName = Anchor.otsSinkName then
    some do
      let want := Anchor.deterministicOtsAnchorID hashes proof.sth
      reject (ar.anchorID ≠ want)
        (.text ("verify: ots sink anchor_id mismatch: got " ++ ar.anchorID ++ " want " ++ want))
      validateOtsAnchorProof ots proof.sth ar
  else none

def anchorConsistencyWithVerifier (proof : GlobalLogProof) (ar : STHAnchorResult)
    (verifier : Option (SignedTreeHead → STHAnchorResult → Outcome Unit)) : Outcome Unit := do
  anchorBindingConsistency proof ar
  match verifyBuiltInAnchor hashes ots proof ar with
  | some outcome => outcome
  | none =>
    match verifier with
    | none => throw (.text ("verify: unsupported anchor sink: " ++ ar.sinkName))
    | some verifyAnchor => verifyAnchor proof.sth ar

def bundleStages (fuel : Nat) (raw : Reader) (bundle : ProofBundle) (keys : TrustedKeys)
    (provider : Provider) : ExceptT Failure Option Claim.Verified := do
  atStage .proofBundle (step (reject (bundle.schemaVersion ≠ schemaProofBundle)
    (.text ("verify: unexpected proof bundle schema: " ++ bundle.schemaVersion))))
  let suite ← atStage .proofBundle (step (requireAvailable provider.suite))
  -- the only check whose error carries no stage
  (step ((ModelSuite.requireProofBundle suite.id bundle).mapError
    (.textOf "verify: proof bundle crypto_suite"))).adapt fun err => { stage := none, err }
  let content := bundle.signedClaim.claim.content
  let (sum, n) ← atStage .content (step (hashReaderWithProvider hashes provider content.hashAlg raw))
  atStage .content (step (reject (n ≠ content.contentLength)
    (.text ("verify: content length mismatch: got " ++ toString n ++ " want " ++
      toString content.contentLength))))
  atStage .content (step (reject (sum ≠ content.contentHash)
    (.text "verify: content hash mismatch")))
  let verified ← atStage .clientClaim (step (Claim.verifyWithProvider hashes codec primitives
    bundle.signedClaim keys.clientPublicKey provider))
  atStage .bundleBindings (step (reject
    (verified.recordID ≠ bundle.recordID ∨ verified.recordID ≠ bundle.serverRecord.recordID)
    (.text "verify: record id mismatch")))
  atStage .bundleBindings (step (validateBundleBindings hashes bundle verified provider))
  atStage .acceptedReceipt (step (Receipt.verifyAcceptedWithProvider codec primitives
    bundle.acceptedReceipt (publicKeyOrFallback keys.acceptedReceiptPublicKey keys.serverPublicKey)
    provider))
  atStage .committedReceipt (step (Receipt.verifyCommittedWithProvider codec primitives
    bundle.committedReceipt (publicKeyOrFallback keys.committedReceiptPublicKey keys.serverPublicKey)
    provider))
  let leaf ← atStage .batchMerkle (step (Merkle.hashLeafForSuite hashes suite.id
    suite.merkle.algorithm bundle.serverRecord))
  atStage .batchMerkle (step (reject (leaf ≠ bundle.committedReceipt.leafHash)
    (.text "verify: leaf hash mismatch")))
  let ok ← atStage .batchMerkle (Merkle.verifyForSuite hashes fuel suite.id bundle.batchProof.treeAlg
    leaf bundle.batchProof.leafIndex bundle.batchProof.treeSize bundle.batchProof.auditPath
    bundle.committedReceipt.batchRoot)
  atStage .batchMerkle (step (reject (ok = false) (.text "verify: merkle proof failed")))
  return verified

def globalStage (fuel : Nat) (bundle : ProofBundle) (keys : TrustedKeys) (provider : Provider)
    (binding : Option NamespaceBinding) (proof : GlobalLogProof) : ExceptT Failure Option Unit := do
  match binding with
  | some binding => atStage .globalLog (step (exactGlobalNamespace proof binding))
  | none => pure ()
  atStage .globalLog (verifyGlobalLogProof hashes codec primitives fuel bundle proof
    (publicKeyOrFallback keys.signedTreeHeadPublicKey keys.serverPublicKey) provider)

def anchorStage (options : Options) (ar : STHAnchorResult) : ExceptT Failure Option Unit := do
  match options.global with
  | none => atStage .anchor (step (.error (.text "verify: L5 anchor requires a global log proof")))
  | some proof => do
    match options.binding with
    | some binding => atStage .anchor (step (exactAnchorNamespace ar binding))
    | none => pure ()
    atStage .anchor (step (anchorConsistencyWithVerifier hashes ots proof ar options.anchorVerifier))

def proofBundle (fuel : Nat) (raw : Reader) (bundle : ProofBundle) (keys : TrustedKeys)
    (options : Options) : ExceptT Failure Option ProofResult := do
  let provider := keys.cryptoProvider.getD defaultProvider
  let verified ← bundleStages hashes codec primitives fuel raw bundle keys provider
  let evidence := ProofLevel.evidenceFor .l3
  let evidence ← (match options.global with
    | none => pure evidence
    | some proof => do
      globalStage hashes codec primitives fuel bundle keys provider options.binding proof
      pure { evidence with globalLogProof := true } : ExceptT Failure Option ProofLevel.Evidence)
  match options.anchor with
  | none =>
    return {
      valid := true
      recordID := verified.recordID
      proofLevel := (ProofLevel.evaluate evidence).string
      anchorSink := ""
      anchorID := "" }
  | some ar => do
    anchorStage hashes ots options ar
    let evidence := { evidence with sthAnchorResult := true }
    return {
      valid := true
      recordID := verified.recordID
      proofLevel := (ProofLevel.evaluate evidence).string
      anchorSink := ar.sinkName
      anchorID := ar.anchorID }

end

end TrustDB.Verify
