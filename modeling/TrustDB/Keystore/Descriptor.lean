import TrustDB.TrustCrypto.Verify

/-!
Package `keydescriptor`: the versioned description of a key that the registry stores. The
provider references, their URLs and the certificate chain are checked by library code that
stays a parameter, as do CBOR and X.509.
-/

namespace TrustDB

open Result

namespace TrustCrypto

open CryptoSuite

def ed25519SignatureEncoding : String := "raw-64-byte-rfc8032"

def sm2SignatureEncoding : String := "asn1-der-sequence-r-s"

def sm2DefaultUserID : String := "1234567812345678"

structure SignatureFormat where
  encoding : String
  publicKeyEncoding : String
  sm2UserID : String
  deriving Repr, DecidableEq

def Provider.signatureFormat : Provider → SignatureFormat
  | intlV1Provider => {
      encoding := ed25519SignatureEncoding
      publicKeyEncoding := ed25519PublicKeyEncoding
      sm2UserID := "" }
  | cnSMV1Provider => {
      encoding := sm2SignatureEncoding
      publicKeyEncoding := sm2PublicKeyEncoding
      sm2UserID := sm2DefaultUserID }

def providerForKnownSuite (suiteID : ID) : Outcome Provider := do
  let _ ← requireKnown suiteID
  if suiteID = intlV1 then return .intlV1Provider
  else if suiteID = cnSmV1 then return .cnSMV1Provider
  else throw (.text ("unsupported cryptographic algorithm: provider for suite " ++ suiteID))

def validatePublicKeyForSuite (primitives : Primitives) (suiteID : ID)
    (descriptor : PublicKeyDescriptor) : Outcome Unit := do
  let provider ← providerForKnownSuite suiteID
  validatePublicKey primitives provider descriptor

end TrustCrypto

namespace KeyDescriptor

open CryptoSuite TrustCrypto

def schemaV1 : String := "trustdb.key-descriptor.v1"

def kindSigner : String := "signer"

def kindVerifier : String := "verifier"

def maxDescriptorBytes : Nat := 2097152

structure PublicKeyMaterial where
  encoding : String
  bytes : Bytes
  deriving Repr, DecidableEq, Inhabited

structure Descriptor where
  schemaVersion : String
  kind : String
  provider : String
  cryptoSuite : ID
  keyID : String
  algorithm : String
  sm2UserID : String
  publicKey : PublicKeyMaterial
  certificateChain : List Bytes
  deriving Repr, DecidableEq, Inhabited

structure Library where
  primitives : Primitives
  /-- `cborx.Marshal`. -/
  encode : Descriptor → Outcome Bytes
  /-- `cborx.UnmarshalLimits`. -/
  decode : Bytes → Outcome Descriptor
  validateProviderUnion : Descriptor → Suite → Outcome Unit
  validateCertificateChain : Descriptor → Suite → Outcome Unit
  /-- When the leaf certificate is valid, if there is a chain. -/
  leafValidity : Descriptor → Outcome (Option (Int × Int))

def invalid (message : String) : Err := .text ("invalid key descriptor: " ++ message)

/-- `unicode.IsControl`. -/
def isControl (symbol : Char) : Bool :=
  let point := symbol.toNat
  point < 0x20 || (0x7f ≤ point && point < 0xa0)

def validIdentifier (value : String) (maxBytes : Nat) : Bool :=
  value ≠ "" && (utf8 value).length ≤ maxBytes && trimSpace value = value &&
    value.toList.all fun symbol => !isControl symbol

section

variable (library : Library)

def validate (d : Descriptor) : Outcome Unit := do
  reject (d.schemaVersion ≠ schemaV1) (invalid ("schema_version must be " ++ schemaV1.quote))
  reject (d.kind ≠ kindSigner ∧ d.kind ≠ kindVerifier)
    (invalid ("kind " ++ d.kind.quote ++ " is unsupported"))
  reject (¬validIdentifier d.keyID 256) (invalid "key_id is empty, non-canonical, or too long")
  let suite ← (requireKnown d.cryptoSuite).mapError fun cause => invalid cause.message
  let provider ← providerForKnownSuite d.cryptoSuite
  reject (d.algorithm ≠ suite.signature.algorithm)
    (invalid ("algorithm " ++ d.algorithm.quote ++ " does not match suite " ++ suite.id))
  reject (d.publicKey.encoding ≠ provider.signatureFormat.publicKeyEncoding)
    (invalid ("public key encoding " ++ d.publicKey.encoding.quote ++ " does not match suite " ++ suite.id))
  (validatePublicKeyForSuite library.primitives d.cryptoSuite {
    suite := d.cryptoSuite
    keyID := d.keyID
    algorithm := d.algorithm
    encoding := d.publicKey.encoding
    bytes := d.publicKey.bytes }).mapError fun cause => invalid ("public key: " ++ cause.message)
  if suite.id = cnSmV1 then
    reject (d.sm2UserID ≠ provider.signatureFormat.sm2UserID)
      (invalid "sm2_user_id must be the suite-defined value")
  else
    reject (d.sm2UserID ≠ "") (invalid ("sm2_user_id must be empty for suite " ++ suite.id))
  library.validateProviderUnion d suite
  library.validateCertificateChain d suite

def marshal (d : Descriptor) : Outcome Bytes := do
  validate library d
  let data ← (library.encode d).mapError (.textOf "marshal key descriptor")
  reject (maxDescriptorBytes < data.length) (invalid "encoded descriptor is too large")
  return data

def unmarshal (data : Bytes) : Outcome Descriptor := do
  reject (maxDescriptorBytes < data.length) (invalid "encoded descriptor is too large")
  let descriptor ← (library.decode data).mapError fun cause => invalid cause.message
  validate library descriptor
  let canonical ← (library.encode descriptor).mapError fun cause => invalid ("re-encode: " ++ cause.message)
  reject (canonical ≠ data) (.text "non-canonical key descriptor")
  return descriptor

variable {library} {d : Descriptor} {data : Bytes}

theorem validate_identifier (valid : validate library d = .ok ()) : validIdentifier d.keyID 256 := by
  simp only [validate, bind_eq_ok, reject_eq_ok] at valid
  obtain ⟨_, _, _, _, _, identifier, _⟩ := valid
  simpa using identifier

theorem unmarshal_validate (read : unmarshal library data = .ok d) : validate library d = .ok () := by
  simp only [unmarshal, bind_eq_ok, mapError_eq_ok, return_eq_ok] at read
  obtain ⟨_, _, descriptor, _, _, valid, _, _, _, _, rfl⟩ := read
  exact valid

theorem nul_not_mem_keyID (valid : validate library d = .ok ()) : '\x00' ∉ d.keyID.toList := by
  have identifier := validate_identifier valid
  simp only [validIdentifier, Bool.and_eq_true, List.all_eq_true] at identifier
  intro inside
  have printable := identifier.2 _ inside
  revert printable
  decide

end

end KeyDescriptor

end TrustDB
