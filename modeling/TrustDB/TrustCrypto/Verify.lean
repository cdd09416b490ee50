import TrustDB.TrustCrypto

/-!
Package `trustcrypto`, signature checks: public-key descriptors, the verifiers of the two
suites, and the digest of a content stream. The signature algorithms, the SM2 curve and
ASN.1 are library code and stay parameters.
-/

namespace TrustDB.TrustCrypto

open Result CryptoSuite Model

structure PublicKeyDescriptor where
  suite : ID
  keyID : String
  algorithm : String
  encoding : String
  bytes : Bytes
  deriving Repr, DecidableEq, Inhabited

structure Primitives where
  /-- `ed25519.Verify` of a key, a message and a signature. -/
  ed25519Verify : Bytes → Bytes → Bytes → Bool
  /-- `sm2.VerifyASN1WithSM2` under the default user id. -/
  sm2Verify : Bytes → Bytes → Bytes → Bool
  /-- `elliptic.Marshal` of the point that `sm2.NewPublicKey` reads. -/
  sm2Point : Bytes → Outcome Bytes
  /-- `asn1.Unmarshal` of a pair of integers, with the bytes behind it. -/
  asn1Unmarshal : Bytes → Outcome ((Int × Int) × Bytes)
  asn1Marshal : Int × Int → Outcome Bytes
  sm2Order : Int

inductive Verifier
  | ed25519Verifier
  | sm2Verifier
  deriving Repr, DecidableEq

def selectVerifier (suiteID : ID) (supported supportedEncoding : String) (verifier : Verifier)
    (algorithm encoding : String) : Outcome Verifier := do
  reject (algorithm ≠ supported)
    (.text ("unsupported cryptographic algorithm: signature " ++ algorithm.quote ++ " for suite " ++
      suiteID))
  reject (encoding ≠ supportedEncoding)
    (.text ("unsupported cryptographic encoding: public key " ++ encoding.quote ++ " for " ++
      algorithm))
  return verifier

def Provider.verifier : Provider → String → String → Outcome Verifier
  | intlV1Provider =>
    selectVerifier intlV1 signatureEd25519 ed25519PublicKeyEncoding .ed25519Verifier
  | cnSMV1Provider =>
    selectVerifier cnSmV1 signatureSM2SM3 sm2PublicKeyEncoding .sm2Verifier

def invalidKeyDescriptor (message : String) : Err :=
  .text ("invalid public-key descriptor: " ++ message)

def unsupportedEncoding (message : String) : Err :=
  .text ("unsupported cryptographic encoding: " ++ message)

section

variable (primitives : Primitives)

def validateSM2PublicKey (encoded : Bytes) : Outcome Unit := do
  reject (encoded.length ≠ 65 ∨ encoded.head? ≠ some 0x04)
    (invalidKeyDescriptor "SM2 public key must be a 65-byte uncompressed point")
  let canonical ← (primitives.sm2Point encoded).mapError fun cause =>
    invalidKeyDescriptor ("invalid SM2 public key: " ++ cause.message)
  reject (canonical ≠ encoded) (invalidKeyDescriptor "non-canonical SM2 public key")

def validateSM2SignatureDER (signature : Bytes) : Outcome Unit := do
  reject (signature.length < 8 ∨ 72 < signature.length)
    (unsupportedEncoding s!"SM2 DER signature size {signature.length}")
  let malformed := unsupportedEncoding "invalid SM2 DER signature"
  let (parsed, rest) ← (primitives.asn1Unmarshal signature).mapError fun _ => malformed
  reject (rest.length ≠ 0) malformed
  let (r, s) := parsed
  reject (r ≤ 0 ∨ s ≤ 0 ∨ primitives.sm2Order ≤ r ∨ primitives.sm2Order ≤ s)
    (unsupportedEncoding "SM2 signature integers are out of range")
  let nonCanonical := unsupportedEncoding "non-canonical SM2 DER signature"
  let canonical ← (primitives.asn1Marshal parsed).mapError fun _ => nonCanonical
  reject (canonical ≠ signature) nonCanonical

def validatePublicKey (provider : Provider) (descriptor : PublicKeyDescriptor) : Outcome Unit := do
  reject (descriptor.suite ≠ provider.suite)
    (.text ("mixed cryptographic suites: descriptor suite " ++ descriptor.suite ++
      " does not match provider suite " ++ provider.suite))
  match ← provider.verifier descriptor.algorithm descriptor.encoding with
  | .ed25519Verifier =>
    reject (descriptor.bytes.length ≠ 32)
      (invalidKeyDescriptor s!"ed25519 public key size {descriptor.bytes.length}")
  | .sm2Verifier => validateSM2PublicKey primitives descriptor.bytes

def unsupportedSignature (alg : String) : Err :=
  .text ("unsupported cryptographic algorithm: signature " ++ alg.quote)

def Verifier.verify (descriptor : PublicKeyDescriptor) (message : Bytes) (sig : Signature) :
    Verifier → Outcome Unit
  | ed25519Verifier => do
    reject (sig.alg ≠ signatureEd25519) (unsupportedSignature sig.alg)
    reject (sig.signature.length ≠ 64)
      (unsupportedEncoding s!"ed25519 signature size {sig.signature.length}")
    reject (¬primitives.ed25519Verify descriptor.bytes message sig.signature)
      (.text "ed25519 signature verification failed")
  | sm2Verifier => do
    reject (sig.alg ≠ signatureSM2SM3) (unsupportedSignature sig.alg)
    validateSM2SignatureDER primitives sig.signature
    let _ ← (primitives.sm2Point descriptor.bytes).mapError fun cause =>
      invalidKeyDescriptor ("invalid SM2 public key: " ++ cause.message)
    reject (¬primitives.sm2Verify descriptor.bytes message sig.signature)
      (.text "SM2-SM3 signature verification failed")

def verify (provider : Provider) (descriptor : PublicKeyDescriptor) (message : Bytes)
    (sig : Signature) : Outcome Unit := do
  validatePublicKey primitives provider descriptor
  reject (descriptor.keyID ≠ "" ∧ descriptor.keyID ≠ sig.keyID)
    (invalidKeyDescriptor ("signature key_id " ++ sig.keyID.quote ++
      " does not match public key key_id " ++ descriptor.keyID.quote))
  let verifier ← provider.verifier descriptor.algorithm descriptor.encoding
  verifier.verify primitives descriptor message sig

end

structure Reader where
  data : Bytes
  failure : Option Err
  deriving Repr, DecidableEq

section

variable (hashes : Hashes) (provider : Provider) (alg : String)

def hashBytesWithProvider (data : Bytes) : Outcome Bytes := do
  let factory ← provider.hashFactory alg
  return (factory.sum hashes data).bytes

def hashReaderWithProvider (reader : Reader) : Outcome (Bytes × Int) := do
  let factory ← provider.hashFactory alg
  raise (reader.failure.map (.textOf "hash reader"))
  return ((factory.sum hashes reader.data).bytes, reader.data.length)

end

structure Unforgeable (primitives : Primitives) (signed : Bytes → Bytes → Prop) : Prop where
  ed25519 : ∀ key message signature,
    primitives.ed25519Verify key message signature = true → signed key message
  sm2 : ∀ key message signature,
    primitives.sm2Verify key message signature = true → signed key message

theorem verify_signed {primitives} {signed : Bytes → Bytes → Prop} {provider descriptor message sig}
    (sound : Unforgeable primitives signed)
    (accepted : verify primitives provider descriptor message sig = .ok ()) :
    signed descriptor.bytes message := by
  simp only [verify, bind_eq_ok] at accepted
  obtain ⟨_, _, _, _, verifier, _, checked⟩ := accepted
  cases verifier with
  | ed25519Verifier =>
    simp only [Verifier.verify, bind_eq_ok, reject_eq_ok, not_not] at checked
    obtain ⟨_, _, _, _, valid⟩ := checked
    exact sound.ed25519 _ _ _ valid
  | sm2Verifier =>
    simp only [Verifier.verify, bind_eq_ok, reject_eq_ok, not_not] at checked
    obtain ⟨_, _, _, _, _, _, valid⟩ := checked
    exact sound.sm2 _ _ _ valid

def Provider.frame (provider : Provider) (purpose : SignaturePurpose) : Bytes :=
  utf8 (signatureDomain provider.registered purpose) ++ [0] ++
    match provider with
    | intlV1Provider => []
    | cnSMV1Provider => utf8 cnSmV1 ++ [0]

theorem signatureInputForSuite_eq (provider : Provider) (purpose : SignaturePurpose) (payload : Bytes) :
    signatureInputForSuite provider.suite purpose payload = .ok (provider.frame purpose ++ payload) := by
  simp only [signatureInputForSuite, requireKnown, Provider.lookup_suite, ok_bind]
  cases provider with
  | intlV1Provider =>
    rw [if_pos (by decide)]
    simp [Provider.frame, Provider.registered, intlV1Suite]
  | cnSMV1Provider =>
    rw [if_neg (by decide), if_pos (by decide)]
    simp [Provider.frame, Provider.registered, cnSmV1Suite]

def framings : List (Provider × SignaturePurpose) :=
  [Provider.intlV1Provider, .cnSMV1Provider].flatMap fun provider =>
    [SignaturePurpose.clientClaim, .acceptedReceipt, .committedReceipt, .keyEvent, .signedTreeHead,
      .statusRefresh, .statusSubscription, .statusNotificationRoutes].map fun purpose =>
        (provider, purpose)

theorem mem_framings (framing : Provider × SignaturePurpose) : framing ∈ framings := by
  obtain ⟨provider, purpose⟩ := framing
  cases provider <;> cases purpose <;> decide

theorem frame_prefix_free {first second : Provider × SignaturePurpose}
    (shorter : first.1.frame first.2 <+: second.1.frame second.2) : first = second := by
  have table : ∀ first ∈ framings, ∀ second ∈ framings,
      first.1.frame first.2 <+: second.1.frame second.2 → first = second := by decide +kernel
  exact table first (mem_framings first) second (mem_framings second) shorter

theorem frame_append_injective {first second : Provider} {firstPurpose secondPurpose : SignaturePurpose}
    {firstPayload secondPayload : Bytes}
    (same : first.frame firstPurpose ++ firstPayload = second.frame secondPurpose ++ secondPayload) :
    first = second ∧ firstPurpose = secondPurpose ∧ firstPayload = secondPayload := by
  have framed : (first, firstPurpose) = (second, secondPurpose) := by
    have start := List.prefix_append (first.frame firstPurpose) firstPayload
    rw [same] at start
    rcases List.prefix_or_prefix_of_prefix start (List.prefix_append _ _) with shorter | longer
    · exact frame_prefix_free shorter
    · exact (frame_prefix_free longer).symm
  cases framed
  exact ⟨rfl, rfl, List.append_cancel_left same⟩

end TrustDB.TrustCrypto
