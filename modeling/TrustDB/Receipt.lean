import TrustDB.Marshal
import TrustDB.TrustCrypto.Sign

/-!
Package `receipt`: the checks of both kinds of receipt and the signing of accepted ones. The
signature of a receipt covers the receipt with an empty signature field.
-/

namespace TrustDB.Receipt

open CryptoSuite TrustCrypto Model

def encodeDomainInput (suiteID : ID) (purpose : SignaturePurpose) (marshalled : Outcome Bytes) :
    Outcome Bytes := do
  let start ← signatureInputForSuite suiteID purpose []
  let payload ← marshalled
  return start ++ payload

section

variable (codec : Codec) (primitives : Primitives)

def verifyReceipt (label expected schemaVersion : String) (suiteID : ID) (purpose : SignaturePurpose)
    (marshalled : Outcome Bytes) (sig : Signature) (publicKey : PublicKeyDescriptor)
    (provider : Provider) : Outcome Unit := do
  Result.reject (schemaVersion ≠ expected)
    (.text ("verify " ++ label ++ ": unexpected schema " ++ schemaVersion.quote))
  (requireSame provider.suite [suiteID, publicKey.suite]).mapError (.textOf ("verify " ++ label))
  let input ← encodeDomainInput provider.suite purpose marshalled
  (verify primitives provider publicKey input sig).mapError (.textOf ("verify " ++ label))

def verifyAcceptedWithProvider (r : AcceptedReceipt) : PublicKeyDescriptor → Provider → Outcome Unit :=
  verifyReceipt primitives "accepted receipt" schemaAcceptedReceipt r.schemaVersion r.cryptoSuite
    .acceptedReceipt (codec.acceptedReceipt { r with serverSig := default }) r.serverSig

def verifyCommittedWithProvider (r : CommittedReceipt) :
    PublicKeyDescriptor → Provider → Outcome Unit :=
  verifyReceipt primitives "committed receipt" schemaCommittedReceipt r.schemaVersion r.cryptoSuite
    .committedReceipt (codec.committedReceipt { r with serverSig := default }) r.serverSig

def signAcceptedWithProvider (provider : Provider) (r : AcceptedReceipt) (signer : Signer) (draw : Nat) :
    Outcome AcceptedReceipt := do
  Result.reject (r.schemaVersion ≠ schemaAcceptedReceipt)
    (.text ("sign accepted receipt: unexpected schema " ++ r.schemaVersion.quote))
  (requireSame provider.suite [r.cryptoSuite]).mapError (.textOf "sign accepted receipt")
  let input ← encodeDomainInput provider.suite .acceptedReceipt (codec.acceptedReceipt { r with serverSig := default })
  let sig ← sign primitives provider signer draw input
  return { r with serverSig := sig }

end

end TrustDB.Receipt
