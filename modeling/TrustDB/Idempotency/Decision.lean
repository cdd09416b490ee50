import TrustDB.Claim

/-!
Package `idempotency`: the durable decision that a committed record leaves for its idempotency
key, and the checks that bind it to the accepted response.
-/

namespace TrustDB

open Result

namespace Model

open CryptoSuite (ID)

def schemaIdempotencyDecision : String := "trustdb.idempotency-decision.v2"

structure IdempotencyIdentity where
  tenantID : String
  clientID : String
  idempotencyKey : String
  deriving Repr, DecidableEq, Inhabited

structure IdempotencyDecision where
  schemaVersion : String
  cryptoSuite : ID
  identity : IdempotencyIdentity
  claimHash : Bytes
  record : ServerRecord
  accepted : AcceptedReceipt
  batchID : String
  deriving Repr, DecidableEq, Inhabited

end Model

namespace Idempotency

open CryptoSuite TrustCrypto Model

def ed25519SignatureSize : Nat := 64

def validateWALPosition (position : WALPosition) : Outcome Unit :=
  reject (position.segmentID = 0 ∨ position.offset < 0 ∨ position.sequence = 0)
    (.text "idempotency: server record has an invalid WAL position")

def validateResponseBindings (suite : Suite) (identity : IdempotencyIdentity) (claimHash : Bytes)
    (record : ServerRecord) (accepted : AcceptedReceipt) : Outcome Unit := do
  reject (record.schemaVersion ≠ schemaServerRecord)
    (.text ("idempotency: unexpected server record schema " ++ record.schemaVersion.quote))
  reject (record.recordID = "") (.text "idempotency: record_id is required")
  reject (record.tenantID ≠ identity.tenantID ∨ record.clientID ≠ identity.clientID)
    (.text "idempotency: server record identity does not match decision identity")
  reject (record.keyID = "") (.text "idempotency: server record key_id is required")
  reject (record.receivedAtUnixN ≤ 0)
    (.text "idempotency: server record received_at_unix_n must be positive")
  reject (record.claimHash ≠ claimHash)
    (.text "idempotency: server record claim_hash does not match decision")
  reject (record.clientSignatureHash.length ≠ suite.signatureHash.digestBytes)
    (.text (s!"idempotency: client signature hash length is {record.clientSignatureHash.length}, want " ++
      toString suite.signatureHash.digestBytes))
  validateWALPosition record.wal
  reject (accepted.schemaVersion ≠ schemaAcceptedReceipt)
    (.text ("idempotency: unexpected accepted receipt schema " ++ accepted.schemaVersion.quote))
  reject (accepted.recordID ≠ record.recordID)
    (.text "idempotency: accepted receipt record_id does not match server record")
  reject (accepted.status ≠ "accepted")
    (.text ("idempotency: unexpected accepted receipt status " ++ accepted.status.quote))
  reject (accepted.serverID = "") (.text "idempotency: accepted receipt server_id is required")
  reject (accepted.receivedAtUnixN ≠ record.receivedAtUnixN)
    (.text "idempotency: accepted receipt timestamp does not match server record")
  reject (accepted.wal ≠ record.wal)
    (.text "idempotency: accepted receipt WAL position does not match server record")
  reject (accepted.serverSig.alg ≠ suite.signature.algorithm ∨ accepted.serverSig.keyID = "" ∨
      accepted.serverSig.signature.length = 0 ∨
      (suite.id = intlV1 ∧ accepted.serverSig.signature.length ≠ ed25519SignatureSize))
    (.text "idempotency: accepted receipt server signature is required")

def validateDecisionForSuite (suiteID : ID) (identity : IdempotencyIdentity)
    (decision : IdempotencyDecision) : Outcome Unit := do
  let suite ← requireKnown suiteID
  reject (identity.tenantID = "" ∨ identity.clientID = "" ∨ identity.idempotencyKey = "")
    (.text "idempotency: tenant_id, client_id, and idempotency_key are required")
  reject (decision.schemaVersion ≠ schemaIdempotencyDecision)
    (.text ("idempotency: unexpected decision schema " ++ decision.schemaVersion.quote))
  (requireSame suite.id [decision.cryptoSuite, decision.record.cryptoSuite,
    decision.accepted.cryptoSuite]).mapError (.textOf "idempotency: crypto_suite")
  reject (decision.identity ≠ identity)
    (.text "idempotency: decision identity does not match lookup identity")
  reject (decision.batchID = "") (.text "idempotency: batch_id is required")
  reject (decision.claimHash.length ≠ suite.claimHash.digestBytes)
    (.text (s!"idempotency: claim_hash length is {decision.claimHash.length}, want " ++
      toString suite.claimHash.digestBytes))
  validateResponseBindings suite identity decision.claimHash decision.record decision.accepted

def validateDecision (identity : IdempotencyIdentity) (decision : IdempotencyDecision) : Outcome Unit :=
  validateDecisionForSuite intlV1 identity decision

def identityOf (claim : ClientClaim) : IdempotencyIdentity where
  tenantID := claim.tenantID
  clientID := claim.clientID
  idempotencyKey := claim.idempotencyKey

section

variable (hashes : Hashes) (codec : Codec)

def validateAcceptedResponseWithProvider (provider : Provider) (signed : SignedClaim) (record : ServerRecord)
    (accepted : AcceptedReceipt) (requireIdempotency : Bool) :
    Outcome (Suite × IdempotencyIdentity × Bytes) := do
  let suite ← requireAvailable provider.suite
  reject (signed.schemaVersion ≠ schemaSignedClaim)
    (.text ("idempotency: unexpected signed claim schema " ++ signed.schemaVersion.quote))
  reject (signed.signature.keyID ≠ signed.claim.keyID)
    (.text "idempotency: signature key_id does not match claim key_id")
  reject (signed.signature.alg ≠ suite.signature.algorithm ∨ signed.signature.signature.length = 0 ∨
      (suite.id = intlV1 ∧ signed.signature.signature.length ≠ ed25519SignatureSize))
    (.text "idempotency: valid client signature metadata is required")
  reject (requireIdempotency = true ∧ signed.claim.idempotencyKey = "")
    (.text "idempotency: idempotency_key is required")
  let claimCBOR ← (Claim.canonical codec signed.claim).mapError (.textOf "idempotency: canonicalize claim")
  let claimHash ← (hashBytesWithProvider hashes provider suite.claimHash.algorithm claimCBOR).mapError
    (.textOf "idempotency: hash claim")
  reject (record.claimHash ≠ claimHash)
    (.text "idempotency: server record claim hash does not match signed claim")
  let recordID ← (Claim.recordIDWithProvider hashes codec provider claimCBOR signed.signature).mapError
    (.textOf "idempotency: derive record id")
  reject (record.recordID ≠ recordID)
    (.text "idempotency: server record id does not match signed claim")
  let signatureHash ← (hashBytesWithProvider hashes provider suite.signatureHash.algorithm
    signed.signature.signature).mapError (.textOf "idempotency: hash client signature")
  reject (record.clientSignatureHash ≠ signatureHash)
    (.text "idempotency: server record signature hash does not match signed claim")
  reject (record.keyID ≠ signed.claim.keyID)
    (.text "idempotency: server record key_id does not match signed claim")
  let identity := identityOf signed.claim
  validateResponseBindings suite identity claimHash record accepted
  return (suite, identity, claimHash)

def buildDecisionWithProvider (provider : Provider) (batchID : String) (signed : SignedClaim)
    (record : ServerRecord) (accepted : AcceptedReceipt) : Outcome IdempotencyDecision := do
  let (suite, identity, claimHash) ←
    validateAcceptedResponseWithProvider hashes codec provider signed record accepted true
  let decision : IdempotencyDecision := {
    schemaVersion := schemaIdempotencyDecision
    cryptoSuite := suite.id
    identity, claimHash, record, accepted, batchID }
  validateDecisionForSuite suite.id identity decision
  return decision

variable {hashes codec} {provider : Provider} {signed : SignedClaim} {record : ServerRecord}
  {accepted : AcceptedReceipt} {batchID : String} {decision : IdempotencyDecision}

theorem buildDecision_eq_ok
    (built : buildDecisionWithProvider hashes codec provider batchID signed record accepted = .ok decision) :
    decision.record = record ∧ decision.accepted = accepted ∧ decision.claimHash = record.claimHash ∧
      decision.identity = identityOf signed.claim ∧
      validateDecisionForSuite provider.suite (identityOf signed.claim) decision = .ok () := by
  simp only [buildDecisionWithProvider, bind_eq_ok, Prod.exists, return_eq_ok] at built
  obtain ⟨suite, identity, claimHash, bound, _, valid, rfl⟩ := built
  simp only [validateAcceptedResponseWithProvider, bind_eq_ok, mapError_eq_ok,
    reject_eq_ok, return_eq_ok, Prod.mk.injEq, not_not, requireAvailable_eq_ok] at bound
  obtain ⟨_, found, _, _, _, _, _, _, _, _, _, _, _, _, _, sameHash, _, _, _, _, _, _, _, _, _, _, _, _,
    rfl, rfl, rfl⟩ := bound
  rw [lookup_id found] at valid ⊢
  exact ⟨rfl, rfl, sameHash.symm, rfl, valid⟩

end

end Idempotency

end TrustDB
