import TrustDB.Model

/-!
Package `modelsuite`: the suite binding of records before they cross a boundary.
-/

namespace TrustDB.ModelSuite

open CryptoSuite Model

def require (expected : ID) (name : String) (actual : List ID) : Outcome Unit := do
  let _ ← requireAvailable expected
  (requireSame expected actual).mapError (.textOf name)

def requireServerRecord (expected : ID) (record : ServerRecord) : Outcome Unit :=
  require expected "server record" [record.cryptoSuite]

def requireGlobalLogLeaf (expected : ID) (leaf : GlobalLogLeaf) : Outcome Unit :=
  require expected "global log leaf" [leaf.cryptoSuite]

def requireGlobalLogNode (expected : ID) (node : GlobalLogNode) : Outcome Unit :=
  require expected "global log node" [node.cryptoSuite]

def requireGlobalLogState (expected : ID) (state : GlobalLogState) : Outcome Unit :=
  require expected "global log state" [state.cryptoSuite]

def requireSignedTreeHead (expected : ID) (sth : SignedTreeHead) : Outcome Unit :=
  require expected "signed tree head" [sth.cryptoSuite]

def requireGlobalLogAppend (expected : ID) (entry : GlobalLogAppend) : Outcome Unit :=
  require expected "global log append"
    ([entry.leaf.cryptoSuite, entry.state.cryptoSuite, entry.sth.cryptoSuite] ++
      entry.nodes.map GlobalLogNode.cryptoSuite)

def requireGlobalLogProof (expected : ID) (proof : GlobalLogProof) : Outcome Unit :=
  require expected "global log proof" [proof.cryptoSuite, proof.sth.cryptoSuite]

def requireSTHAnchorResult (expected : ID) (result : STHAnchorResult) : Outcome Unit :=
  require expected "STH anchor result" [result.cryptoSuite, result.sth.cryptoSuite]

def bundleSuites (bundle : ProofBundle) : List ID :=
  let present (schemaVersion : String) (suites : List ID) := if schemaVersion ≠ "" then suites else []
  [bundle.cryptoSuite] ++
    present bundle.signedClaim.schemaVersion (bundle.signedClaim.cryptoSuite ::
      present bundle.signedClaim.claim.schemaVersion [bundle.signedClaim.claim.cryptoSuite]) ++
    present bundle.serverRecord.schemaVersion [bundle.serverRecord.cryptoSuite] ++
    present bundle.acceptedReceipt.schemaVersion [bundle.acceptedReceipt.cryptoSuite] ++
    present bundle.committedReceipt.schemaVersion [bundle.committedReceipt.cryptoSuite]

def requireProofBundle (expected : ID) (bundle : ProofBundle) : Outcome Unit :=
  require expected "proof bundle" (bundleSuites bundle)

theorem require_eq_ok {expected name actual} :
    require expected name actual = .ok () ↔ Known expected ∧ ∀ id ∈ actual, id = expected := by
  by_cases known : Known expected
  · obtain ⟨suite, found⟩ := Option.isSome_iff_exists.mp known
    simp only [require, requireAvailable_eq_ok.mpr found, Result.ok_bind, Result.mapError_eq_ok,
      requireSame_eq_ok]
  · have missing : lookup expected = none := by simpa [Known] using known
    simp [require, requireAvailable, requireKnown, missing, known]

end TrustDB.ModelSuite
