import TrustDB.Model

/-!
Package `trustcrypto`, public side: digests, hash factories and the providers of
the two suites. The hash functions themselves are parameters.
-/

namespace TrustDB

def Digest : Type := { bytes : Bytes // bytes.length = CryptoSuite.digestSize }

namespace Digest

instance : DecidableEq Digest :=
  inferInstanceAs (DecidableEq { bytes : Bytes // bytes.length = CryptoSuite.digestSize })

def bytes (digest : Digest) : Bytes := digest.1

@[simp] theorem bytes_length (digest : Digest) : digest.bytes.length = 32 := digest.2

theorem bytes_injective {first second : Digest} (same : first.bytes = second.bytes) :
    first = second := Subtype.ext same

@[simp] theorem bytes_inj {first second : Digest} : first.bytes = second.bytes ↔ first = second :=
  ⟨bytes_injective, congrArg bytes⟩

theorem bytes_ne_nil (digest : Digest) : digest.bytes ≠ [] := by
  intro empty
  have length := digest.bytes_length
  rw [empty] at length
  simp at length

/-- The digest whose bytes are all `value`. -/
def fill (value : UInt8) : Digest := ⟨List.replicate 32 value, by simp [CryptoSuite.digestSize]⟩

instance : Inhabited Digest := ⟨fill 0⟩

def ofBytes (source : Bytes) : Digest :=
  ⟨(source ++ List.replicate 32 0).take 32, by simp [CryptoSuite.digestSize]⟩

@[simp] theorem ofBytes_bytes (digest : Digest) : ofBytes digest.bytes = digest := by
  apply Subtype.ext
  have length := digest.bytes_length
  change (digest.bytes ++ List.replicate 32 0).take 32 = digest.bytes
  rw [List.take_append_of_le_length (by omega), List.take_of_length_le (by omega)]

theorem bytes_ofBytes {source} (length : source.length = 32) : (ofBytes source).bytes = source := by
  change (source ++ List.replicate 32 0).take 32 = source
  rw [List.take_append_of_le_length (by omega), List.take_of_length_le (by omega)]

def ofBytes? (source : Bytes) : Option Digest :=
  if source.length = 32 then some (ofBytes source) else none

@[simp] theorem ofBytes?_bytes (digest : Digest) : ofBytes? digest.bytes = some digest := by
  simp [ofBytes?]

theorem ofBytes?_eq_some {source digest} : ofBytes? source = some digest ↔ source = digest.bytes := by
  constructor
  · intro found
    unfold ofBytes? at found
    split at found
    · rename_i length
      rw [← Option.some.inj found, bytes_ofBytes length]
    · simp at found
  · rintro rfl
    simp

end Digest

structure Hashes where
  sha256 : Bytes → Digest
  sm3 : Bytes → Digest

def Hashes.sampleDigest (factor : UInt8) (data : Bytes) : Digest :=
  .ofBytes (data.take 15 ++ (data.drop 33).take 15 ++
    [data.foldl (fun state byte => state * factor + byte + 7) 1,
      data.foldr (fun byte state => state * factor + byte + 5) 2])

def Hashes.sample : Hashes where
  sha256 := sampleDigest 31
  sm3 := sampleDigest 29

namespace TrustCrypto

open CryptoSuite

inductive HashFactory
  | sha256Factory
  | sm3Factory
  deriving Repr, DecidableEq

namespace HashFactory

def algorithm : HashFactory → String
  | sha256Factory => hashSHA256
  | sm3Factory => hashSM3

def size : HashFactory → Nat
  | sha256Factory => 32
  | sm3Factory => 32

def sum (hashes : Hashes) : HashFactory → Bytes → Digest
  | sha256Factory => hashes.sha256
  | sm3Factory => hashes.sm3

end HashFactory

def suiteUsesHashAlgorithm (suite : Suite) (algorithm : String) : Bool :=
  [suite.contentHash, suite.claimHash, suite.signatureHash, suite.recordIDHash,
    suite.keyEventHash, suite.keyFingerprintHash, suite.storageIntegrityHash, suite.merkle.hash,
    suite.anchorDigest].any fun spec => spec.algorithm = algorithm

def unsupportedHash (suiteID : ID) (algorithm : String) : Err :=
  .text ("unsupported cryptographic algorithm: hash " ++ algorithm.quote ++ " for suite " ++ suiteID)

def hashFactoryForSuite (suiteID : ID) (algorithm : String) : Outcome HashFactory := do
  let suite ← requireKnown suiteID
  if ¬suiteUsesHashAlgorithm suite algorithm then
    throw (unsupportedHash suiteID algorithm)
  if algorithm = hashSHA256 then return .sha256Factory
  else if algorithm = hashSM3 then return .sm3Factory
  else throw (unsupportedHash suiteID algorithm)

inductive Provider
  | intlV1Provider
  | cnSMV1Provider
  deriving Repr, DecidableEq

namespace Provider

def suite : Provider → ID
  | intlV1Provider => intlV1
  | cnSMV1Provider => cnSmV1

def registered : Provider → Suite
  | intlV1Provider => intlV1Suite
  | cnSMV1Provider => cnSmV1Suite

def hashFactory (provider : Provider) (algorithm : String) : Outcome HashFactory :=
  hashFactoryForSuite provider.suite algorithm

@[simp] theorem lookup_suite (provider : Provider) :
    lookup provider.suite = some provider.registered := by
  cases provider <;> decide

theorem known (provider : Provider) : Known provider.suite := by simp [Known]

theorem suite_injective {first second : Provider} (same : first.suite = second.suite) :
    first = second := by
  cases first <;> cases second <;> first | rfl | exact absurd same (by decide)

end Provider

def defaultProvider : Provider := .intlV1Provider

inductive SignaturePurpose
  | clientClaim
  | acceptedReceipt
  | committedReceipt
  | keyEvent
  | signedTreeHead
  | statusRefresh
  | statusSubscription
  | statusNotificationRoutes
  deriving Repr, DecidableEq

def signatureDomain (suite : Suite) : SignaturePurpose → String
  | .clientClaim => suite.domains.clientClaimSigning
  | .acceptedReceipt => suite.domains.acceptedReceipt
  | .committedReceipt => suite.domains.committedReceipt
  | .keyEvent => suite.domains.keyEventSigning
  | .signedTreeHead => suite.domains.signedTreeHead
  | .statusRefresh => suite.domains.statusRefresh
  | .statusSubscription => suite.domains.statusSubscription
  | .statusNotificationRoutes => suite.domains.statusNotificationRoutes

def signatureInputForSuite (suiteID : ID) (purpose : SignaturePurpose) (payload : Bytes) :
    Outcome Bytes := do
  let suite ← requireKnown suiteID
  let domain := utf8 (signatureDomain suite purpose)
  if suite.encoding.signatureInputEncoding = signatureInputLegacyV1 then
    return domain ++ [suite.encoding.domainSeparator] ++ payload
  else if suite.encoding.signatureInputEncoding = signatureInputSuiteFramedV2 then
    return domain ++ [suite.encoding.domainSeparator] ++ utf8 suite.id ++
      [suite.encoding.domainSeparator] ++ payload
  else
    throw (.text ("unsupported cryptographic encoding: signature input " ++
      suite.encoding.signatureInputEncoding.quote ++ " for suite " ++ suite.id))

end TrustCrypto

end TrustDB
