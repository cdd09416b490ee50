import TrustDB.Verify.Core

/-!
What a signature check says. An accepted signature covers a message that the owner of the
key has signed, and the message can be read as one statement only: its frame shows the
suite and the purpose, and the encoding of the record behind it is injective.
-/

namespace TrustDB.Verify

open Result CryptoSuite TrustCrypto Model

inductive Statement
  | clientClaim (claim : ClientClaim)
  | acceptedReceipt (receipt : AcceptedReceipt)
  | committedReceipt (receipt : CommittedReceipt)
  | signedTreeHead (sth : SignedTreeHead)

namespace Statement

def purpose : Statement → SignaturePurpose
  | clientClaim _ => .clientClaim
  | acceptedReceipt _ => .acceptedReceipt
  | committedReceipt _ => .committedReceipt
  | signedTreeHead _ => .signedTreeHead

def marshal (codec : Codec) : Statement → Outcome Bytes
  | clientClaim claim => codec.clientClaim claim
  | acceptedReceipt receipt => codec.acceptedReceipt receipt
  | committedReceipt receipt => codec.committedReceipt receipt
  | signedTreeHead sth => codec.signedTreeHead sth

def Reads (codec : Codec) (provider : Provider) (statement : Statement) (message : Bytes) : Prop :=
  ∃ payload, statement.marshal codec = .ok payload ∧
    message = provider.frame statement.purpose ++ payload

end Statement

def Unambiguous {α : Type} (marshal : α → Outcome Bytes) : Prop :=
  ∀ first second bytes, marshal first = .ok bytes → marshal second = .ok bytes → first = second

structure InjectiveCodec (codec : Codec) : Prop where
  clientClaim : Unambiguous codec.clientClaim
  acceptedReceipt : Unambiguous codec.acceptedReceipt
  committedReceipt : Unambiguous codec.committedReceipt
  signedTreeHead : Unambiguous codec.signedTreeHead
  globalLogLeaf : Unambiguous codec.globalLogLeaf

def Attests (codec : Codec) (signed : Bytes → Bytes → Prop) (provider : Provider)
    (key : PublicKeyDescriptor) (statement : Statement) : Prop :=
  ∃ message, signed key.bytes message ∧ statement.Reads codec provider message ∧
    ∀ other otherProvider, other.Reads codec otherProvider message →
      other = statement ∧ otherProvider = provider

section

variable {hashes : Hashes} {codec : Codec} {primitives : Primitives} {signed : Bytes → Bytes → Prop}
  {provider : Provider} {publicKey : PublicKeyDescriptor}

theorem Statement.reads_unique (injective : InjectiveCodec codec) {statement other : Statement}
    {otherProvider : Provider} {message : Bytes} (reads : statement.Reads codec provider message)
    (alsoReads : other.Reads codec otherProvider message) :
    other = statement ∧ otherProvider = provider := by
  obtain ⟨payload, marshalled, rfl⟩ := reads
  obtain ⟨otherPayload, otherMarshalled, same⟩ := alsoReads
  obtain ⟨rfl, purposes, rfl⟩ := frame_append_injective same
  refine ⟨?_, rfl⟩
  -- the purpose in the frame leaves one kind of record
  cases statement <;> cases other <;> first
    | exact congrArg _ (injective.clientClaim _ _ _ otherMarshalled marshalled)
    | exact congrArg _ (injective.acceptedReceipt _ _ _ otherMarshalled marshalled)
    | exact congrArg _ (injective.committedReceipt _ _ _ otherMarshalled marshalled)
    | exact congrArg _ (injective.signedTreeHead _ _ _ otherMarshalled marshalled)
    | cases purposes

theorem attests_of_verify (sound : Unforgeable primitives signed) (injective : InjectiveCodec codec)
    (statement : Statement) {payload message : Bytes} {sig : Signature}
    (marshalled : statement.marshal codec = .ok payload)
    (framed : message = provider.frame statement.purpose ++ payload)
    (accepted : verify primitives provider publicKey message sig = .ok ()) :
    Attests codec signed provider publicKey statement := by
  have reads : statement.Reads codec provider message := ⟨payload, marshalled, framed⟩
  refine ⟨message, verify_signed sound accepted, reads, ?_⟩
  intro other otherProvider alsoReads
  exact statement.reads_unique injective reads alsoReads

theorem pooledSigningInput_eq (claimCBOR : Bytes) :
    Claim.pooledSigningInput provider.suite claimCBOR =
      .ok (provider.frame .clientClaim ++ claimCBOR) := by
  simp [Claim.pooledSigningInput, signatureInputForSuite_eq]

theorem canonical_eq_ok {claim claimCBOR} (accepted : Claim.canonical codec claim = .ok claimCBOR) :
    codec.clientClaim claim = .ok claimCBOR ∧
      ∃ suite, lookup claim.cryptoSuite = some suite ∧
        claim.content.hashAlg = suite.contentHash.algorithm := by
  simp only [Claim.canonical, bind_eq_ok, reject_eq_ok, mapError_eq_ok,
    requireAvailable_eq_ok, not_or, not_not] at accepted
  obtain ⟨_, _, suite, found, _, digest, _, _, marshalled⟩ := accepted
  exact ⟨marshalled, suite, found, digest.1⟩

section

variable (sound : Unforgeable primitives signed) (injective : InjectiveCodec codec)
include sound injective

theorem attests_of_claim {claim verified}
    (accepted : Claim.verifyWithProvider hashes codec primitives claim publicKey provider = .ok verified) :
    Attests codec signed provider publicKey (.clientClaim claim.claim) ∧
      claim.claim.content.hashAlg = provider.registered.contentHash.algorithm ∧
      ∃ claimCBOR, codec.clientClaim claim.claim = .ok claimCBOR ∧
        Claim.recordIDWithProvider hashes codec provider claimCBOR claim.signature =
          .ok verified.recordID := by
  simp only [Claim.verifyWithProvider, bind_eq_ok, reject_eq_ok, mapError_eq_ok,
    pooledSigningInput_eq] at accepted
  obtain ⟨_, _, _, mixed, claimCBOR, canonical, _, _, input, framed, _, checked, recordID,
    derived, same⟩ := accepted
  obtain ⟨marshalled, suite, found, algorithm⟩ := canonical_eq_ok canonical
  have sameSuite : claim.claim.cryptoSuite = provider.suite :=
    (requireSame_eq_ok.mp mixed).2 _ (by simp)
  rw [sameSuite, Provider.lookup_suite] at found
  refine ⟨attests_of_verify sound injective (.clientClaim claim.claim) marshalled
    (Except.ok.inj framed).symm checked, ?_, claimCBOR, marshalled, ?_⟩
  · rw [algorithm, ← Option.some.inj found]
  · rw [derived, ← Except.ok.inj same]

theorem attests_of_receipt (statement : Statement) {label expected schemaVersion suiteID sig}
    (accepted : Receipt.verifyReceipt primitives label expected schemaVersion suiteID statement.purpose
      (statement.marshal codec) sig publicKey provider = .ok ()) :
    Attests codec signed provider publicKey statement := by
  simp only [Receipt.verifyReceipt, Receipt.encodeDomainInput, signatureInputForSuite_eq,
    ok_bind, bind_eq_ok, mapError_eq_ok, List.append_nil] at accepted
  obtain ⟨_, _, _, _, input, ⟨payload, marshalled, framed⟩, checked⟩ := accepted
  exact attests_of_verify sound injective statement marshalled (Except.ok.inj framed).symm checked

theorem attests_of_signedTreeHead {sth}
    (accepted : GlobalLog.verifySTHWithProvider codec primitives sth publicKey provider = .ok ()) :
    Attests codec signed provider publicKey (.signedTreeHead { sth with signature := default }) := by
  simp only [GlobalLog.verifySTHWithProvider, bind_eq_ok, mapError_eq_ok, signatureInputForSuite_eq] at accepted
  obtain ⟨_, _, _, _, _, _, payload, marshalled, input, framed, checked⟩ := accepted
  exact attests_of_verify sound injective _ marshalled (Except.ok.inj framed).symm checked

end

end

end TrustDB.Verify
