import TrustDB.Trusterr

/-!
Package `cryptosuite`: the two registered suites and the checks that reject
empty, unknown or mixed suite identifiers.
-/

namespace TrustDB.CryptoSuite

variable {id : ID} {suite : Suite}

abbrev ID := String

def intlV1 : ID := "INTL_V1"

def cnSmV1 : ID := "CN_SM_V1"

inductive Availability
  | available
  | reserved
  deriving Repr, DecidableEq

def Availability.text : Availability → String
  | available => "available"
  | reserved => "reserved"

def digestSize : Nat := 32

def hashSHA256 : String := "sha256"

def hashSM3 : String := "sm3"

def signatureEd25519 : String := "ed25519"

def signatureSM2SM3 : String := "sm2-sm3"

def merkleRFC6962SHA256 : String := "rfc6962-sha256"

def merkleRFC6962SM3 : String := "rfc6962-sm3"

def signatureInputLegacyV1 : String := "domain-nul-payload"

def signatureInputSuiteFramedV2 : String := "domain-nul-suite-nul-payload"

def ed25519PublicKeyEncoding : String := "raw-32-byte-rfc8032"

def sm2PublicKeyEncoding : String := "sec1-uncompressed-65-byte-sm2p256v1"

structure HashSpec where
  algorithm : String
  digestBytes : Nat
  deriving Repr, DecidableEq

structure SignatureSpec where
  algorithm : String
  deriving Repr, DecidableEq

structure MerkleSpec where
  algorithm : String
  hash : HashSpec
  leafPrefix : UInt8
  nodePrefix : UInt8
  deriving Repr, DecidableEq

structure EncodingSpec where
  signatureInputEncoding : String
  domainSeparator : UInt8
  deriving Repr, DecidableEq

structure DomainSet where
  clientClaimSigning : String
  recordID : String
  acceptedReceipt : String
  committedReceipt : String
  keyEventSigning : String
  signedTreeHead : String
  statusRefresh : String
  statusSubscription : String
  statusNotificationRoutes : String
  deriving Repr, DecidableEq

structure Suite where
  id : ID
  availability : Availability
  contentHash : HashSpec
  claimHash : HashSpec
  signatureHash : HashSpec
  recordIDHash : HashSpec
  keyEventHash : HashSpec
  keyFingerprintHash : HashSpec
  storageIntegrityHash : HashSpec
  signature : SignatureSpec
  merkle : MerkleSpec
  encoding : EncodingSpec
  anchorDigest : HashSpec
  domains : DomainSet
  deriving Repr, DecidableEq

def sha256Spec : HashSpec := { algorithm := hashSHA256, digestBytes := 32 }

def sm3Spec : HashSpec := { algorithm := hashSM3, digestBytes := 32 }

def intlV1Suite : Suite where
  id := intlV1
  availability := .available
  contentHash := sha256Spec
  claimHash := sha256Spec
  signatureHash := sha256Spec
  recordIDHash := sha256Spec
  keyEventHash := sha256Spec
  keyFingerprintHash := sha256Spec
  storageIntegrityHash := sha256Spec
  signature := { algorithm := signatureEd25519 }
  merkle := {
    algorithm := merkleRFC6962SHA256
    hash := sha256Spec
    leafPrefix := 0x00
    nodePrefix := 0x01 }
  encoding := { signatureInputEncoding := signatureInputLegacyV1, domainSeparator := 0x00 }
  anchorDigest := sha256Spec
  domains := {
    clientClaimSigning := "trustdb.client-claim.v1"
    recordID := "trustdb.record-id.v1"
    acceptedReceipt := "trustdb.accepted-receipt.v1"
    committedReceipt := "trustdb.committed-receipt.v1"
    keyEventSigning := "trustdb.key-event.v1"
    signedTreeHead := "trustdb.signed-tree-head.v1"
    statusRefresh := "trustdb.status-refresh.v1"
    statusSubscription := "trustdb.status-subscription.v1"
    statusNotificationRoutes := "trustdb.status-notification-routes.v1" }

def cnSmV1Suite : Suite where
  id := cnSmV1
  availability := .available
  contentHash := sm3Spec
  claimHash := sm3Spec
  signatureHash := sm3Spec
  recordIDHash := sm3Spec
  keyEventHash := sm3Spec
  keyFingerprintHash := sm3Spec
  storageIntegrityHash := sm3Spec
  signature := { algorithm := signatureSM2SM3 }
  merkle := {
    algorithm := merkleRFC6962SM3
    hash := sm3Spec
    leafPrefix := 0x00
    nodePrefix := 0x01 }
  encoding := { signatureInputEncoding := signatureInputSuiteFramedV2, domainSeparator := 0x00 }
  anchorDigest := sm3Spec
  domains := {
    clientClaimSigning := "trustdb.client-claim.v2"
    recordID := "trustdb.record-id.v2"
    acceptedReceipt := "trustdb.accepted-receipt.v2"
    committedReceipt := "trustdb.committed-receipt.v2"
    keyEventSigning := "trustdb.key-event.v2"
    signedTreeHead := "trustdb.signed-tree-head.v2"
    statusRefresh := "trustdb.status-refresh.v2"
    statusSubscription := "trustdb.status-subscription.v2"
    statusNotificationRoutes := "trustdb.status-notification-routes.v2" }

def registry : List (ID × Suite) := [(intlV1, intlV1Suite), (cnSmV1, cnSmV1Suite)]

def lookup (id : ID) : Option Suite := registry.lookup id

def requireKnown (id : ID) : Outcome Suite :=
  match lookup id with
  | some suite => .ok suite
  | none => .error (.text ("unknown cryptographic suite: " ++ id.quote))

def requireAvailable (id : ID) : Outcome Suite := do
  let suite ← requireKnown id
  if suite.availability ≠ .available then
    throw (.text ("cryptographic suite is not available: " ++ id ++ " is " ++
      suite.availability.text))
  return suite

def requireSameFrom (expected : ID) : Nat → List ID → Outcome Unit
  | _, [] => .ok ()
  | index, id :: rest => do
    let _ ← (requireKnown id).mapError (.textOf s!"suite at index {index}")
    if id ≠ expected then
      throw (.text (s!"mixed cryptographic suites: expected {expected}, got {id} at index " ++
        toString index))
    requireSameFrom expected (index + 1) rest

def requireSame (expected : ID) (actual : List ID) : Outcome Unit := do
  let _ ← requireKnown expected
  requireSameFrom expected 0 actual

def Known (id : ID) : Prop := (lookup id).isSome

instance (id : ID) : Decidable (Known id) := inferInstanceAs (Decidable ((lookup id).isSome))

theorem lookup_cases (found : lookup id = some suite) :
    (id = intlV1 ∧ suite = intlV1Suite) ∨ (id = cnSmV1 ∧ suite = cnSmV1Suite) := by
  simp only [lookup, registry, List.lookup_cons, List.lookup_nil] at found
  split at found
  · exact .inl ⟨by simpa using ‹(id == intlV1) = true›, by simpa using found.symm⟩
  · split at found
    · exact .inr ⟨by simpa using ‹(id == cnSmV1) = true›, by simpa using found.symm⟩
    · simp at found

theorem lookup_id (found : lookup id = some suite) : suite.id = id := by
  rcases lookup_cases found with ⟨rfl, rfl⟩ | ⟨rfl, rfl⟩ <;> rfl

theorem lookup_available (found : lookup id = some suite) :
    suite.availability = .available := by
  rcases lookup_cases found with ⟨rfl, rfl⟩ | ⟨rfl, rfl⟩ <;> rfl

@[simp] theorem requireKnown_eq_ok :
    requireKnown id = .ok suite ↔ lookup id = some suite := by
  unfold requireKnown
  split <;> simp_all

@[simp] theorem requireAvailable_eq_ok :
    requireAvailable id = .ok suite ↔ lookup id = some suite := by
  constructor
  · intro accepted
    simp only [requireAvailable, Result.bind_eq_ok] at accepted
    obtain ⟨candidate, known, rest⟩ := accepted
    split at rest
    · simp at rest
    · simp only [Result.return_eq_ok] at rest
      rw [← rest]
      exact requireKnown_eq_ok.mp known
  · intro found
    simp [requireAvailable, requireKnown, found, lookup_available found]

theorem requireSameFrom_eq_ok {expected : ID} (known : Known expected) (actual : List ID) :
    ∀ index, requireSameFrom expected index actual = .ok () ↔ ∀ id ∈ actual, id = expected := by
  induction actual with
  | nil => intro index; simp [requireSameFrom]
  | cons id rest ih =>
    intro index
    obtain ⟨suite, found⟩ := Option.isSome_iff_exists.mp known
    by_cases same : id = expected
    · simp [requireSameFrom, same, requireKnown, found, Except.mapError, ih (index + 1)]
    · simp only [requireSameFrom, same, ne_eq, not_false_eq_true, ↓reduceIte, Result.bind_eq_ok]
      simp [same]

theorem requireSame_eq_ok {expected actual} :
    requireSame expected actual = .ok () ↔ Known expected ∧ ∀ id ∈ actual, id = expected := by
  by_cases known : Known expected
  · obtain ⟨suite, found⟩ := Option.isSome_iff_exists.mp known
    simp [requireSame, requireKnown, found, known, requireSameFrom_eq_ok known]
  · have missing : lookup expected = none := by simpa [Known] using known
    simp [requireSame, requireKnown, missing, known]

end TrustDB.CryptoSuite
