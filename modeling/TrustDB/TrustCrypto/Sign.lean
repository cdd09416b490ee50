import TrustDB.Keystore.Descriptor

/-!
Package `trustcrypto`, signing. A signer is a handle, what it can do, and the signature that it
gives for a message; the first argument of `sign` is the randomness that one call draws.
-/

namespace TrustDB.TrustCrypto

open Result CryptoSuite Model

structure KeyHandle where
  provider : String
  keyID : String
  algorithm : String
  deriving Repr, DecidableEq

def invalidKeyHandle (message : String) : Err :=
  .text ("invalid non-exportable key handle: " ++ message)

def KeyHandle.validate (handle : KeyHandle) : Outcome Unit :=
  reject (trimSpace handle.provider = "" ∨ trimSpace handle.keyID = "" ∨ trimSpace handle.algorithm = "")
    (invalidKeyHandle "provider, key_id, and algorithm are required")

structure Signer where
  handle : KeyHandle
  supportsSign : Bool
  supportsPublicKey : Bool
  sign : Nat → Bytes → Outcome Signature

def Signer.Deterministic (signer : Signer) : Prop :=
  ∀ first second message, signer.sign first message = signer.sign second message

def unsupportedCapability (name : String) : Err :=
  .text ("unsupported provider capability: " ++ name)

def unsupportedSigner (algorithm : String) (suiteID : ID) : Err :=
  .text ("unsupported cryptographic algorithm: signer algorithm " ++ algorithm.quote ++ " for suite " ++ suiteID)

def validateSignerHandle (suiteID : ID) (signer : Signer) : Outcome Unit := do
  let suite ← requireAvailable suiteID
  reject (signer.supportsSign = false) (unsupportedCapability "sign")
  reject (signer.supportsPublicKey = false) (unsupportedCapability "public_key")
  signer.handle.validate
  reject (signer.handle.algorithm ≠ suite.signature.algorithm)
    (unsupportedSigner signer.handle.algorithm suiteID)

def validateSignatureEncoding (primitives : Primitives) (provider : Provider) (signature : Bytes) :
    Outcome Unit :=
  match provider with
  | .intlV1Provider =>
    reject (signature.length ≠ 64) (unsupportedEncoding s!"ed25519 signature size {signature.length}")
  | .cnSMV1Provider => validateSM2SignatureDER primitives signature

/-- `Sign` for the suite of a registered provider. -/
def sign (primitives : Primitives) (provider : Provider) (signer : Signer) (draw : Nat) (message : Bytes) :
    Outcome Signature := do
  let suite ← requireAvailable provider.suite
  reject (signer.supportsSign = false) (unsupportedCapability "sign")
  signer.handle.validate
  reject (signer.handle.algorithm ≠ suite.signature.algorithm)
    (unsupportedSigner signer.handle.algorithm suite.id)
  let sig ← signer.sign draw message
  reject (sig.alg ≠ suite.signature.algorithm)
    (.text ("unsupported cryptographic algorithm: provider returned signature algorithm " ++ sig.alg.quote))
  reject (sig.keyID ≠ signer.handle.keyID)
    (invalidKeyHandle ("provider returned signature key_id " ++ sig.keyID.quote ++ " for handle " ++
      signer.handle.keyID.quote))
  validateSignatureEncoding primitives provider sig.signature
  return sig

end TrustDB.TrustCrypto
