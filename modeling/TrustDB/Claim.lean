import TrustDB.Marshal
import TrustDB.TrustCrypto.Verify

/-!
Package `claim`: the checks on a client claim, the record id derived from it and its
signature, and the verification of a signed claim. A Lean string is valid UTF-8, so the
UTF-8 test on metadata has no counterpart.
-/

namespace TrustDB.Claim

open Result CryptoSuite TrustCrypto Model

def maxMetadataParents : Nat := 1000

def maxMetadataCustomEntries : Nat := 1000

def maxMetadataStringBytes : Nat := 4096

def maxMetadataKeyBytes : Nat := 1024

structure Verified where
  claim : ClientClaim
  claimCBOR : Bytes
  signature : Signature
  recordID : String
  deriving Repr, DecidableEq

def validateMetadataString (field value : String) (maxBytes : Nat) : Outcome Unit :=
  reject (maxBytes < (utf8 value).length) (.text s!"metadata {field} exceeds {maxBytes} bytes")

def validateParents : Nat → List String → Outcome Unit
  | _, [] => .ok ()
  | index, parent :: rest => do
    validateMetadataString s!"parents[{index}]" parent maxMetadataStringBytes
    validateParents (index + 1) rest

def validateCustom : List (String × String) → Outcome Unit
  | [] => .ok ()
  | (key, value) :: rest => do
    validateMetadataString "custom key" key maxMetadataKeyBytes
    validateMetadataString "custom value" value maxMetadataStringBytes
    validateCustom rest

def validateMetadata (metadata : Metadata) : Outcome Unit := do
  reject (maxMetadataParents < metadata.parents.length)
    (.text s!"metadata parents exceed {maxMetadataParents} items")
  reject (maxMetadataCustomEntries < metadata.custom.entries.length)
    (.text s!"metadata custom entries exceed {maxMetadataCustomEntries} items")
  validateMetadataString "event_type" metadata.eventType maxMetadataStringBytes
  validateMetadataString "source" metadata.source maxMetadataStringBytes
  validateParents 0 metadata.parents
  validateCustom metadata.custom.entries

def bitsOf (byte : UInt8) : List Bool := (List.range 8).map fun place => byte.toNat.testBit (7 - place)

def quintets : List Bool → List Nat
  | [] => []
  | [a] => [valueOf [a, false, false, false, false]]
  | [a, b] => [valueOf [a, b, false, false, false]]
  | [a, b, c] => [valueOf [a, b, c, false, false]]
  | [a, b, c, d] => [valueOf [a, b, c, d, false]]
  | a :: b :: c :: d :: e :: rest => valueOf [a, b, c, d, e] :: quintets rest
where
  valueOf (bits : List Bool) : Nat := bits.foldl (fun value bit => 2 * value + bit.toNat) 0

/-- `base32.StdEncoding` without padding, in lower case. -/
def base32Lower (data : Bytes) : String :=
  let alphabet := "abcdefghijklmnopqrstuvwxyz234567".toList
  String.ofList ((quintets (data.flatMap bitsOf)).map fun value => alphabet.getD value 'a')

section

variable (hashes : Hashes) (codec : Codec) (primitives : Primitives)

def canonical (claim : ClientClaim) : Outcome Bytes := do
  reject (claim.schemaVersion ≠ schemaClientClaim)
    (.text ("unexpected claim schema: " ++ claim.schemaVersion))
  let suite ← (requireAvailable claim.cryptoSuite).mapError (.textOf "claim crypto_suite")
  reject (claim.content.hashAlg ≠ suite.contentHash.algorithm ∨
      claim.content.contentHash.length ≠ suite.contentHash.digestBytes)
    (.text ("claim content digest does not match suite " ++ suite.id))
  validateMetadata claim.metadata
  codec.clientClaim claim

def recordIDWithProvider (provider : Provider) (claimCBOR : Bytes) (sig : Signature) :
    Outcome String := do
  let suite ← requireAvailable provider.suite
  let factory ← provider.hashFactory suite.recordIDHash.algorithm
  let payload ← codec.recordIDInput {
    schemaVersion := "trustdb.record-id-input.v2"
    cryptoSuite := suite.id
    claimCBOR := claimCBOR
    signature := sig }
  let sum := factory.sum hashes (utf8 suite.domains.recordID ++ [0] ++ payload)
  return "tr2" ++ base32Lower sum.bytes

def pooledSigningInput (suiteID : ID) (claimCBOR : Bytes) : Outcome Bytes := do
  let start ← signatureInputForSuite suiteID .clientClaim []
  return start ++ claimCBOR

def verifyWithProvider (signed : SignedClaim) (publicKey : PublicKeyDescriptor)
    (provider : Provider) : Outcome Verified := do
  reject (signed.schemaVersion ≠ schemaSignedClaim)
    (.text ("unexpected signed claim schema: " ++ signed.schemaVersion))
  (requireSame provider.suite [signed.cryptoSuite, signed.claim.cryptoSuite, publicKey.suite]).mapError
    (.textOf "signed claim crypto_suite")
  let claimCBOR ← canonical codec signed.claim
  reject (signed.signature.keyID ≠ signed.claim.keyID)
    (.text "signature key_id does not match claim key_id")
  let input ← pooledSigningInput provider.suite claimCBOR
  verify primitives provider publicKey input signed.signature
  let recordID ← recordIDWithProvider hashes codec provider claimCBOR signed.signature
  return { claim := signed.claim, claimCBOR, signature := signed.signature, recordID }

end

end TrustDB.Claim
