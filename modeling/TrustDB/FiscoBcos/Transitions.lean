import TrustDB.FiscoBcos.Trust

/-!
Package `anchor/fiscobcos`, validator transitions: a contiguous chain of blocks from the local
checkpoint to the anchored block, each final under the validator set derived for it, and the
advancement of the checkpoint. Of the anchored transaction itself only the block it stands in is
modelled; its own checks are a parameter.
-/

namespace TrustDB.FiscoBcos

open Result

def schemaAnchorProof : String := "trustdb.fisco-bcos-anchor-proof.v3"

def proofVersion : Nat := 3

def maxValidatorHistoryBlocks : Nat := 4096

/-- A proof. `anchored` stands for the payload, the transaction attempts and the receipt. -/
structure AnchorEvidence where
  schemaVersion : String
  formatVersion : Nat
  cryptoMode : CryptoMode
  protocolHashAlgorithm : String
  chainHashAlgorithm : String
  chainSignatureAlgorithm : String
  chainID : String
  groupID : String
  genesisHash : Bytes
  trustedCheckpoint : BlockCheckpoint
  chainContextID : Bytes
  contract : ContractBinding
  anchored : Bytes
  block : BlockEvidence
  finality : FinalityEvidence
  validatorHistory : List ValidatorHistoryBlock
  deriving Repr, DecidableEq

def AnchorEvidence.proof (evidence : AnchorEvidence) : AnchorProof where
  chainHashAlgorithm := evidence.chainHashAlgorithm
  chainID := utf8 evidence.chainID
  groupID := utf8 evidence.groupID

structure ProofLibrary extends TrustLibrary where
  validateAnchored : AnchorEvidence → Outcome Unit

def checkFinalitySignatures (seen : List String) (index : Nat) : List CommitSignature → Outcome Unit
  | [] => .ok ()
  | commit :: rest => do
    reject (trimSpace commit.validatorNodeID = "" ∨
        maxConfigString < (utf8 commit.validatorNodeID).length ∨
        commit.signature.length = 0 ∨ maxSignatureBytes < commit.signature.length)
      (invalidProof s!"finality signature {index} is incomplete or oversized")
    reject (commit.validatorNodeID ∈ seen)
      (invalidProof ("duplicate finality signer " ++ commit.validatorNodeID.quote))
    checkFinalitySignatures (commit.validatorNodeID :: seen) (index + 1) rest

section

variable (library : ProofLibrary)

def checkBlockEvidence (evidence : AnchorEvidence) : Outcome Unit := do
  let block := evidence.block
  reject (block.rawCanonicalHeader.length = 0 ∨ maxRawHeaderBytes < block.rawCanonicalHeader.length ∨
      block.blockHash.length ≠ identifierBytes ∨ block.blockNumber = 0)
    (invalidProof "block evidence is incomplete or oversized")
  let canonicalHeader := marshalNativeBlockHeaderPreimage block.fields
  reject (¬(succeedsWith canonicalHeader (· = block.rawCanonicalHeader) ∧
      0 ≤ block.fields.blockNumber ∧ block.fields.blockNumber.toUInt64.toNat = block.blockNumber))
    (invalidProof "block fields do not reconstruct exact consensus preimage")
  reject (¬succeedsWith
      (canonicalHeader >>= hashNativeEvidence library.primitives.hashes evidence.chainHashAlgorithm)
      (· = block.blockHash))
    (invalidProof "block consensus hash mismatch")

def checkHistoryBlocks (proof : AnchorProof) : Nat → List ValidatorHistoryBlock → Outcome Unit
  | _, [] => .ok ()
  | index, item :: rest => do
    validateHistoryBlockStructure library.primitives.hashes proof index item
    checkHistoryBlocks proof (index + 1) rest

def validateProofStructure (evidence : AnchorEvidence) : Outcome Unit := do
  reject (evidence.schemaVersion ≠ schemaAnchorProof ∨ evidence.formatVersion ≠ proofVersion)
    (invalidProof (s!"unsupported schema/version {evidence.schemaVersion.quote}/" ++
      toString evidence.formatVersion))
  (validateExplicitModeParameters evidence.cryptoMode evidence.protocolHashAlgorithm evidence.chainHashAlgorithm
    evidence.chainSignatureAlgorithm).mapError fun failure => invalidProof failure.message
  (validateConfigStrings [
    ("chain_id", evidence.chainID), ("group_id", evidence.groupID),
    ("contract.protocol_version", evidence.contract.protocolVersion),
    ("contract.event_signature", evidence.contract.eventSignature)]).mapError fun failure =>
      invalidProof failure.message
  reject (evidence.genesisHash.length ≠ identifierBytes ∨
      evidence.trustedCheckpoint.blockHash.length ≠ identifierBytes ∨
      evidence.chainContextID.length ≠ identifierBytes)
    (invalidProof s!"genesis, checkpoint, and chain_context identifiers must be {identifierBytes} bytes")
  reject (evidence.contract.address.length ≠ 20 ∨ evidence.contract.codeHash.length ≠ identifierBytes)
    (invalidProof "contract address/code hash length is invalid")
  library.validateAnchored evidence
  checkBlockEvidence library evidence
  reject (evidence.finality.signatures.length = 0 ∨
      maxCommitSignatures < evidence.finality.signatures.length)
    (invalidProof s!"finality signature count={evidence.finality.signatures.length}")
  checkFinalitySignatures [] 0 evidence.finality.signatures
  reject (maxValidatorHistoryBlocks < evidence.validatorHistory.length)
    (invalidProof s!"validator history block count={evidence.validatorHistory.length}")
  checkHistoryBlocks library evidence.proof 0 evidence.validatorHistory

def validateProofChainContext (evidence : AnchorEvidence) (config : LocalTrustConfig) : Outcome Unit := do
  validateProofStructure library evidence
  reject (evidence.cryptoMode ≠ config.cryptoMode ∨
      evidence.protocolHashAlgorithm ≠ config.protocolHashAlgorithm ∨
      evidence.chainHashAlgorithm ≠ config.chainHashAlgorithm ∨
      evidence.chainSignatureAlgorithm ≠ config.chainSignatureAlgorithm ∨
      evidence.chainID ≠ config.chainID ∨ evidence.groupID ≠ config.groupID ∨
      evidence.genesisHash ≠ config.genesisHash ∨ evidence.trustedCheckpoint ≠ config.trustedCheckpoint ∨
      evidence.contract ≠ config.contract)
    (invalidProof "transition evidence does not match local chain context")
  let wantContext ← chainContextID library.toTrustLibrary config
  reject (evidence.chainContextID ≠ wantContext)
    (invalidProof "transition evidence chain context mismatch")

end

def checkHeaderValidators : Nat → List (ValidatorDescriptor × Bytes × Int64) → Outcome Unit
  | _, [] => .ok ()
  | index, (validator, rawNodeID, weight) :: rest => do
    reject (rawNodeID.length ≠ bcosConsensusPublicKeyBytes ∨ rawNodeID ≠ validator.publicKey.drop 1 ∨
        weight ≤ 0 ∨ weight.toUInt64 ≠ validator.voteWeight)
      (invalidProof s!"block validator {index} does not exactly match trusted order and weight")
    checkHeaderValidators (index + 1) rest

def verifyValidatorHeader (state : ValidatorState) (header : NativeBlockHeaderFields) : Outcome Unit := do
  reject (header.sealerList.length ≠ state.ordered.length ∨
      header.consensusWeights.length ≠ state.ordered.length)
    (invalidProof "block validator membership/weight count differs from trusted set")
  reject (header.sealer < 0 ∨ header.sealerList.length ≤ header.sealer.toUInt64.toNat)
    (invalidProof "block sealer index is outside the trusted validator set")
  checkHeaderValidators 0 (state.ordered.zip (header.sealerList.zip header.consensusWeights))

def hasExactParent (fields : NativeBlockHeaderFields) (parent : BlockEvidence) : Bool :=
  match fields.parentInfo with
  | [info] => 0 ≤ info.blockNumber && info.blockNumber.toUInt64.toNat = parent.blockNumber &&
      info.blockHash = parent.blockHash
  | _ => false

section

variable (primitives : ChainPrimitives)

/-- One turn of the loop over the history: the next block follows the current one and is final
under the validator set that the current one leads to. -/
def verifySuccessor (config : TrustConfig) (state : ValidatorState) (current : ValidatorHistoryBlock)
    (nextBlock : BlockEvidence) (nextFinality : FinalityEvidence) : Outcome ValidatorState := do
  reject (nextBlock.blockNumber ≠ current.block.blockNumber + 1 ∨
      ¬hasExactParent nextBlock.fields current.block)
    (invalidProof
      s!"validator history block {nextBlock.blockNumber} is skipped, reordered, or has the wrong parent")
  let state ← (deriveNextValidatorState primitives config state current nextBlock.fields).mapError fun failure =>
    invalidProof s!"transition from block {current.block.blockNumber}: {failure.message}"
  verifyValidatorHeader state nextBlock.fields
  verifyFinalityAgainstState primitives config state nextBlock nextFinality
  return state

def verifyHistoryFrom (config : TrustConfig) (block : BlockEvidence) (finality : FinalityEvidence) :
    ValidatorState → ValidatorHistoryBlock → List ValidatorHistoryBlock → Outcome ValidatorState
  | state, current, [] => verifySuccessor primitives config state current block finality
  | state, current, next :: rest => do
    let state ← verifySuccessor primitives config state current next.block next.finality
    verifyHistoryFrom config block finality state next rest

end

section

variable (library : ProofLibrary)

def verifyValidatorHistory (config : LocalTrustConfig) (evidence : AnchorEvidence) : Outcome ValidatorState := do
  let canonical ← canonicalTrustConfig library.toTrustLibrary config
  reject (canonical.validatorTransitionPolicy ≠ validatorPolicyTransitions)
    (invalidProof "local trust config does not authorize validator transitions")
  let checkpoint := canonical.trustedCheckpoint
  reject (evidence.block.blockNumber < checkpoint.blockNumber)
    (invalidProof "target block precedes trusted checkpoint")
  let state ← validatorStateFromConfig canonical.toTrustConfig
  if evidence.block.blockNumber = checkpoint.blockNumber then
    reject (evidence.validatorHistory.length ≠ 0 ∨ evidence.block.blockHash ≠ checkpoint.blockHash)
      (invalidProof "checkpoint-height proof is inconsistent")
    verifyValidatorHeader state evidence.block.fields
    verifyFinalityAgainstState library.primitives canonical.toTrustConfig state evidence.block evidence.finality
    return state
  else
    let delta := evidence.block.blockNumber - checkpoint.blockNumber
    let wrongLength :=
      invalidProof s!"validator history has {evidence.validatorHistory.length} blocks, want {delta}"
    reject (maxValidatorHistoryBlocks < delta ∨ evidence.validatorHistory.length ≠ delta) wrongLength
    match evidence.validatorHistory with
    | [] => throw wrongLength
    | first :: rest =>
      reject (first.block.blockNumber ≠ checkpoint.blockNumber ∨
          first.block.blockHash ≠ checkpoint.blockHash ∨ first.finality.signatures.length ≠ 0)
        (invalidProof "validator history does not start at the exact local checkpoint")
      verifyValidatorHeader state first.block.fields
      verifyHistoryFrom library.primitives canonical.toTrustConfig evidence.block evidence.finality state first
        rest

def advanceTrustConfigCheckpoint (config : LocalTrustConfig) (evidence : AnchorEvidence) :
    Outcome LocalTrustConfig := do
  let canonical ← canonicalTrustConfig library.toTrustLibrary config
  validateProofChainContext library evidence canonical
  let state ← verifyValidatorHistory library canonical evidence
  reject (evidence.block.blockNumber ≤ canonical.trustedCheckpoint.blockNumber)
    (invalidTrustConfig "checkpoint advancement must increase block height")
  let previousDigest ← trustConfigDigest library.toTrustLibrary canonical
  canonicalTrustConfig library.toTrustLibrary { canonical with
    trustedCheckpoint := { blockNumber := evidence.block.blockNumber, blockHash := evidence.block.blockHash }
    checkpointGeneration := canonical.checkpointGeneration + 1
    previousConfigDigest := previousDigest
    validators := state.ordered }

end

section

variable {library : ProofLibrary} {config canonical : LocalTrustConfig} {evidence : AnchorEvidence}
  {state : ValidatorState}

theorem canonicalTrustConfig_eq_ok :
    canonicalTrustConfig library.toTrustLibrary config = .ok canonical ↔
      validateTrustConfig library.net library.primitives config = .ok () ∧ sortTrustConfig config = canonical := by
  simp only [canonicalTrustConfig, bind_eq_ok, return_eq_ok]
  constructor
  · rintro ⟨_, valid, same⟩
    exact ⟨valid, same⟩
  · rintro ⟨valid, same⟩
    exact ⟨(), valid, same⟩

structure LaterHistory (library : ProofLibrary) (config : LocalTrustConfig) (evidence : AnchorEvidence)
    (start : ValidatorState) (first : ValidatorHistoryBlock) (rest : List ValidatorHistoryBlock) : Prop where
  policy : config.validatorTransitionPolicy = validatorPolicyTransitions
  trusted : validatorStateFromConfig config.toTrustConfig = .ok start
  history : evidence.validatorHistory = first :: rest
  limit : evidence.validatorHistory.length ≤ maxValidatorHistoryBlocks
  length : evidence.block.blockNumber = config.trustedCheckpoint.blockNumber + evidence.validatorHistory.length
  number : first.block.blockNumber = config.trustedCheckpoint.blockNumber
  hash : first.block.blockHash = config.trustedCheckpoint.blockHash
  unsigned : first.finality.signatures = []
  header : verifyValidatorHeader start first.block.fields = .ok ()

theorem verifyValidatorHistory_later
    (valid : validateTrustConfig library.net library.primitives config = .ok ())
    (later : config.trustedCheckpoint.blockNumber < evidence.block.blockNumber) :
    verifyValidatorHistory library config evidence = .ok state ↔
      ∃ start first rest, LaterHistory library config evidence start first rest ∧
        verifyHistoryFrom library.primitives config.toTrustConfig evidence.block evidence.finality start first
          rest = .ok state := by
  have canonical : canonicalTrustConfig library.toTrustLibrary config = .ok (sortTrustConfig config) :=
    canonicalTrustConfig_eq_ok.mpr ⟨valid, rfl⟩
  have differs : ¬evidence.block.blockNumber = config.trustedCheckpoint.blockNumber := by omega
  have checkpoint : (sortTrustConfig config).trustedCheckpoint = config.trustedCheckpoint := rfl
  have members : (sortTrustConfig config).toTrustConfig = config.toTrustConfig := rfl
  have policy : (sortTrustConfig config).validatorTransitionPolicy = config.validatorTransitionPolicy := rfl
  simp only [verifyValidatorHistory, canonical, ok_bind, bind_eq_ok, reject_eq_ok, checkpoint,
    members, policy, differs, ↓reduceIte, not_not, not_or, Nat.not_lt]
  constructor
  · rintro ⟨_, policy, _, _, start, trusted, _, ⟨limit, length⟩, verified⟩
    cases history : evidence.validatorHistory with
    | nil => simp [history] at verified
    | cons first rest =>
      simp only [history, bind_eq_ok, reject_eq_ok, not_or, not_not, List.length_eq_zero_iff]
        at verified
      obtain ⟨_, ⟨number, hash, unsigned⟩, _, header, verified⟩ := verified
      exact ⟨start, first, rest, ⟨policy, trusted, history, by omega, by omega, number, hash, unsigned, header⟩,
        verified⟩
  · rintro ⟨start, first, rest, ⟨policy, trusted, history, limit, length, number, hash, unsigned, header⟩, verified⟩
    refine ⟨(), policy, (), by omega, start, trusted, (), ⟨by omega, by omega⟩, ?_⟩
    simp only [history, bind_eq_ok, reject_eq_ok, not_or, not_not, List.length_eq_zero_iff]
    exact ⟨(), ⟨number, hash, unsigned⟩, (), header, verified⟩

end

end TrustDB.FiscoBcos
