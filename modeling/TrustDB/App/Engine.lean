import TrustDB.Claim
import TrustDB.Keystore.History
import TrustDB.Receipt
import TrustDB.Wal.Record

/-!
Package `app`, the local engine: the checks that a signed claim passes before it is accepted,
the record and the receipt that the server makes for it, and their reconstruction from the
write-ahead log. A context that is cancelled in between is left out.
-/

namespace TrustDB.App

open Result CryptoSuite TrustCrypto Model Keystore

def defaultValidationPolicy : String := "trustdb.policy.v2"

/-- `cborx` on the claims that the log stores; reading is limited to the payload's own size. -/
structure PayloadCodec where
  marshal : SignedClaim → Outcome Bytes
  unmarshal : Bytes → Outcome SignedClaim

def PayloadCodec.RoundTrips (payloads : PayloadCodec) : Prop :=
  ∀ signed payload, payloads.marshal signed = .ok payload → payloads.unmarshal payload = .ok signed

structure Runtime where
  hashes : Hashes
  codec : Codec
  primitives : Primitives
  keys : Keystore.Env
  payloads : PayloadCodec

/-- `clientKeys` is the registry as it stands when the engine is called. -/
structure LocalEngine where
  serverID : String
  serverKeyID : String
  clientPublicKey : PublicKeyDescriptor
  clientKeys : Option Registry
  serverSigner : Signer
  cryptoProvider : Provider

structure ReplayedAccepted where
  signed : SignedClaim
  record : ServerRecord
  accepted : AcceptedReceipt
  deriving DecidableEq

/-- The results of `validateSigned`. -/
structure Validated where
  verified : Claim.Verified
  keyStatus : String
  claimHash : Bytes
  sigHash : Bytes
  deriving DecidableEq

namespace LocalEngine

variable (run : Runtime) (e : LocalEngine)

def resolveClientKey (signed : SignedClaim) (receivedAt : Int) : Outcome (PublicKeyDescriptor × String) :=
  match e.clientKeys with
  | some registry => do
    let key ← (registry.lookupClientKeyAt run.keys signed.claim.tenantID signed.claim.clientID
      signed.claim.keyID receivedAt).mapError
        (.wrap .failedPrecondition "client key is not admissible at claim receipt time")
    let descriptor : PublicKeyDescriptor := {
      suite := key.cryptoSuite
      keyID := key.keyID
      algorithm := key.alg
      encoding := key.publicKeyEncoding
      bytes := key.publicKey }
    (validatePublicKey run.primitives e.cryptoProvider descriptor).mapError
      (.textOf "app: invalid resolved client public key")
    return (descriptor, key.status)
  | none => do
    reject (e.clientPublicKey.bytes.length = 0)
      (.text "app: client public key or key resolver required")
    (validatePublicKey run.primitives e.cryptoProvider e.clientPublicKey).mapError
      (.textOf "app: invalid client public key")
    return (e.clientPublicKey, keyStatusValid)

def validateSigned (signed : SignedClaim) (receivedAt : Int) : Outcome Validated := do
  let provider := e.cryptoProvider
  let suite ← requireAvailable provider.suite
  (requireSame suite.id [signed.cryptoSuite, signed.claim.cryptoSuite]).mapError
    (.wrap .invalidArgument "signed claim crypto_suite does not match server")
  let (clientPub, keyStatus) ← e.resolveClientKey run signed receivedAt
  let verified ← Claim.verifyWithProvider run.hashes run.codec run.primitives signed clientPub provider
  let claimHash ← hashBytesWithProvider run.hashes provider suite.claimHash.algorithm verified.claimCBOR
  let sigHash ← hashBytesWithProvider run.hashes provider suite.signatureHash.algorithm
    signed.signature.signature
  return { verified, keyStatus, claimHash, sigHash }

def checkedSigner : Outcome Signer := do
  (validateSignerHandle e.cryptoProvider.suite e.serverSigner).mapError (.textOf "app: invalid server signer")
  reject (e.serverKeyID ≠ "" ∧ e.serverSigner.handle.keyID ≠ e.serverKeyID)
    (.text ("app: server signer key_id " ++ e.serverSigner.handle.keyID.quote ++
      " does not match configured key_id " ++ e.serverKeyID.quote))
  return e.serverSigner

def serverRecord (signed : SignedClaim) (validated : Validated) (pos : WALPosition) (receivedAt : Int) :
    ServerRecord where
  schemaVersion := schemaServerRecord
  cryptoSuite := e.cryptoProvider.suite
  recordID := validated.verified.recordID
  tenantID := signed.claim.tenantID
  clientID := signed.claim.clientID
  keyID := signed.claim.keyID
  claimHash := validated.claimHash
  clientSignatureHash := validated.sigHash
  receivedAtUnixN := receivedAt
  wal := pos
  validation := {
    policyVersion := defaultValidationPolicy
    hashAlgAllowed := true
    signatureAlgAllowed := true
    keyStatus := validated.keyStatus }

def unsignedReceipt (recordID : String) (pos : WALPosition) (receivedAt : Int) : AcceptedReceipt where
  schemaVersion := schemaAcceptedReceipt
  cryptoSuite := e.cryptoProvider.suite
  recordID := recordID
  status := "accepted"
  serverID := e.serverID
  receivedAtUnixN := receivedAt
  wal := pos
  serverSig := default

def buildAccepted (draw : Nat) (signed : SignedClaim) (validated : Validated) (pos : WALPosition)
    (receivedAt : Int) : Outcome (ServerRecord × AcceptedReceipt) := do
  let record := e.serverRecord signed validated pos receivedAt
  let signer ← e.checkedSigner
  let accepted ← Receipt.signAcceptedWithProvider run.codec run.primitives e.cryptoProvider
    (e.unsignedReceipt record.recordID pos receivedAt) signer draw
  return (record, accepted)

def replayAccepted (draw : Nat) (record : Wal.Record) : Outcome ReplayedAccepted := do
  (requireSame e.cryptoProvider.suite [record.cryptoSuite]).mapError
    (.wrap .dataLoss "WAL record crypto_suite does not match server")
  let signed ← run.payloads.unmarshal record.payload
  let validated ← e.validateSigned run signed record.unixNano
  let (serverRecord, accepted) ← e.buildAccepted run draw signed validated record.position record.unixNano
  return { signed, record := serverRecord, accepted }

end LocalEngine

section

variable {run : Runtime} {e : LocalEngine} {signed : SignedClaim} {receivedAt : Int}

theorem LocalEngine.resolveClientKey_status {key}
    (resolved : e.resolveClientKey run signed receivedAt = .ok key) : key.2 = keyStatusValid := by
  unfold resolveClientKey at resolved
  split at resolved
  · simp only [bind_eq_ok, mapError_eq_ok, return_eq_ok, Registry.lookupClientKeyAt_eq_ok] at resolved
    obtain ⟨_, ⟨_, _, _, _, _, _, rfl⟩, _, _, rfl⟩ := resolved
    rfl
  · simp only [bind_eq_ok, return_eq_ok] at resolved
    obtain ⟨_, _, _, _, rfl⟩ := resolved
    rfl

/-- The parts of an acceptance that depend on the claim alone: nothing of the key or the time
goes into them. -/
structure LocalEngine.Derives (run : Runtime) (e : LocalEngine) (signed : SignedClaim)
    (validated : Validated) : Prop where
  claim : validated.verified.claim = signed.claim
  canonical : Claim.canonical run.codec signed.claim = .ok validated.verified.claimCBOR
  recordID : Claim.recordIDWithProvider run.hashes run.codec e.cryptoProvider validated.verified.claimCBOR
    signed.signature = .ok validated.verified.recordID
  signature : validated.verified.signature = signed.signature
  claimHash : hashBytesWithProvider run.hashes e.cryptoProvider
    e.cryptoProvider.registered.claimHash.algorithm validated.verified.claimCBOR = .ok validated.claimHash
  sigHash : hashBytesWithProvider run.hashes e.cryptoProvider
    e.cryptoProvider.registered.signatureHash.algorithm signed.signature.signature = .ok validated.sigHash
  keyStatus : validated.keyStatus = keyStatusValid

theorem LocalEngine.validateSigned_derives {validated}
    (accepted : e.validateSigned run signed receivedAt = .ok validated) : e.Derives run signed validated := by
  simp only [validateSigned, bind_eq_ok, requireAvailable_eq_ok, Provider.lookup_suite,
    Option.some.injEq, exists_eq_left', mapError_eq_ok, return_eq_ok] at accepted
  obtain ⟨_, _, ⟨clientPub, keyStatus⟩, resolved, verified, checked, claimHash, hashed, sigHash, sigHashed,
    rfl⟩ := accepted
  simp only [Claim.verifyWithProvider, bind_eq_ok, return_eq_ok] at checked
  obtain ⟨_, _, _, _, claimCBOR, canonical, _, _, _, _, _, _, recordID, derived, rfl⟩ := checked
  exact ⟨rfl, canonical, derived, rfl, hashed, sigHashed, resolveClientKey_status resolved⟩

theorem LocalEngine.Derives.unique {first second} (one : e.Derives run signed first)
    (two : e.Derives run signed second) : first = second := by
  obtain ⟨⟨claim, claimCBOR, signature, recordID⟩, keyStatus, claimHash, sigHash⟩ := first
  obtain ⟨⟨claim', claimCBOR', signature', recordID'⟩, keyStatus', claimHash', sigHash'⟩ := second
  cases one.canonical.symm.trans two.canonical
  cases one.recordID.symm.trans two.recordID
  cases one.claimHash.symm.trans two.claimHash
  cases one.sigHash.symm.trans two.sigHash
  obtain rfl : claim = claim' := one.claim.trans two.claim.symm
  obtain rfl : signature = signature' := one.signature.trans two.signature.symm
  obtain rfl : keyStatus = keyStatus' := one.keyStatus.trans two.keyStatus.symm
  rfl

theorem LocalEngine.buildAccepted_eq_ok {draw validated pos answer} :
    e.buildAccepted run draw signed validated pos receivedAt = .ok answer ↔
      answer.1 = e.serverRecord signed validated pos receivedAt ∧
      e.checkedSigner = .ok e.serverSigner ∧
      Receipt.signAcceptedWithProvider run.codec run.primitives e.cryptoProvider
        (e.unsignedReceipt validated.verified.recordID pos receivedAt) e.serverSigner draw = .ok answer.2 := by
  obtain ⟨record, accepted⟩ := answer
  simp only [buildAccepted, bind_eq_ok, return_eq_ok, Prod.mk.injEq]
  constructor
  · rintro ⟨signer, checked, receipt, signedBy, rfl, rfl⟩
    obtain rfl : e.serverSigner = signer := by
      simp only [checkedSigner, bind_eq_ok, return_eq_ok] at checked
      obtain ⟨_, _, _, _, same⟩ := checked
      exact same
    exact ⟨rfl, checked, signedBy⟩
  · rintro ⟨rfl, checked, signedBy⟩
    exact ⟨e.serverSigner, checked, accepted, signedBy, rfl, rfl⟩

end

namespace Sample

def primitives : Primitives where
  ed25519Verify := fun _ _ _ => true
  sm2Verify := fun _ _ _ => true
  sm2Point := .ok
  asn1Unmarshal := fun bytes => .ok (((bytes.headD 0).toNat, 1), [])
  asn1Marshal := fun parsed => .ok (List.replicate 64 (UInt8.ofNat parsed.1.toNat))
  sm2Order := 256

def signature (provider : Provider) (keyID : String) (byte : UInt8) : Signature where
  alg := provider.registered.signature.algorithm
  keyID := keyID
  signature := List.replicate 64 byte

def descriptor (provider : Provider) : KeyDescriptor.Descriptor where
  schemaVersion := KeyDescriptor.schemaV1
  kind := KeyDescriptor.kindVerifier
  provider := "public"
  cryptoSuite := provider.suite
  keyID := "k"
  algorithm := provider.registered.signature.algorithm
  sm2UserID := provider.signatureFormat.sm2UserID
  publicKey := {
    encoding := provider.signatureFormat.publicKeyEncoding
    bytes := match provider with
      | .intlV1Provider => List.replicate 32 5
      | .cnSMV1Provider => List.replicate 65 4 }
  certificateChain := []

def keys (provider : Provider) : Keystore.Env where
  library := {
    primitives := primitives
    encode := fun d => .ok (utf8 d.keyID)
    decode := fun _ => .ok (descriptor provider)
    validateProviderUnion := fun _ _ => .ok ()
    validateCertificateChain := fun _ _ => .ok ()
    leafValidity := fun _ => .ok none }
  encodeEvent := fun event => .ok (utf8 event.tenantID ++ [0] ++ utf8 event.keyID)

def codec : Codec := {
  Codec.sample with
  clientClaim := fun claim =>
    .ok (utf8 claim.tenantID ++ [1] ++ utf8 claim.clientID ++ [2] ++ utf8 claim.idempotencyKey) }

def payloads (first second : SignedClaim) : PayloadCodec where
  marshal := fun signed =>
    if signed = first then .ok [1] else if signed = second then .ok [2] else .error (.text "unknown claim")
  unmarshal := fun payload =>
    if payload = [1] then .ok first else if payload = [2] then .ok second else .error (.text "unknown payload")

theorem payloads_roundTrips (first second : SignedClaim) : (payloads first second).RoundTrips := by
  intro signed payload marshalled
  simp only [payloads] at marshalled ⊢
  split at marshalled
  · rename_i same
    cases marshalled
    simp [same]
  · split at marshalled
    · rename_i same
      cases marshalled
      simp [same]
    · cases marshalled

def runtime (provider : Provider) (first second : SignedClaim) : Runtime where
  hashes := .sample
  codec := codec
  primitives := primitives
  keys := keys provider
  payloads := payloads first second

def signedClaim (provider : Provider) (tenantID clientID idempotencyKey : String) : SignedClaim where
  schemaVersion := schemaSignedClaim
  cryptoSuite := provider.suite
  claim := {
    (default : ClientClaim) with
    schemaVersion := schemaClientClaim
    cryptoSuite := provider.suite
    tenantID, clientID, idempotencyKey
    keyID := "k"
    content := {
      (default : Content) with
      hashAlg := provider.registered.contentHash.algorithm
      contentHash := List.replicate 32 1 } }
  signature := signature provider "k" 3

def engine (provider : Provider) : LocalEngine where
  serverID := "server"
  serverKeyID := "server-key"
  clientPublicKey := {
    suite := provider.suite
    keyID := "k"
    algorithm := provider.registered.signature.algorithm
    encoding := provider.signatureFormat.publicKeyEncoding
    bytes := (descriptor provider).publicKey.bytes }
  clientKeys := none
  serverSigner := {
    handle := {
      provider := "software"
      keyID := "server-key"
      algorithm := provider.registered.signature.algorithm }
    supportsSign := true
    supportsPublicKey := true
    sign := fun draw _ => .ok (signature provider "server-key" (match provider with
      | .intlV1Provider => 7
      | .cnSMV1Provider => UInt8.ofNat (draw + 1))) }
  cryptoProvider := provider

end Sample

end TrustDB.App
