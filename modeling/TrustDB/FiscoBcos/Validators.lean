import Mathlib
import TrustDB.Codec.Slice
import TrustDB.FiscoBcos.Native

/-!
Package `anchor/fiscobcos`, the validator set: the state taken from the local trust
configuration, the mutations that a finalised block applies to it, and the check of the commit
signatures of a block against it. Curve arithmetic is a parameter.
-/

namespace TrustDB.FiscoBcos

open Result

inductive CryptoMode
  | standard
  | guomi
  | other (name : String)
  deriving Repr, DecidableEq

def CryptoMode.text : CryptoMode → String
  | standard => "standard"
  | guomi => "guomi"
  | other name => name

structure ModeParameters where
  mode : CryptoMode
  protocolHashAlgorithm : String
  chainHashAlgorithm : String
  chainSignatureAlgorithm : String
  publicKeyEncoding : String
  transportMode : String
  deriving Repr, DecidableEq

def quorumPolicyPBFTV2 : String := "fisco-bcos-weighted-pbft-v2"

def sm2DefaultUserID : String := "1234567812345678"

def bcosConsensusPublicKeyBytes : Nat := 64

def bcosStandardSignatureBytes : Nat := 65

def bcosGuomiSignatureBytes : Nat := 64

def maxVoteWeight : UInt64 := 0x7fffffffffffffff

def invalidTrustConfig (detail : String) : Err :=
  .text ("invalid FISCO BCOS trust configuration: " ++ detail)

def parametersForMode (mode : CryptoMode) : Outcome ModeParameters :=
  match mode with
  | .standard => .ok {
      mode
      protocolHashAlgorithm := "sha256"
      chainHashAlgorithm := hashKeccak256
      chainSignatureAlgorithm := "ecdsa-secp256k1"
      publicKeyEncoding := "sec1-uncompressed-65-byte-secp256k1"
      transportMode := "tls" }
  | .guomi => .ok {
      mode
      protocolHashAlgorithm := "sm3"
      chainHashAlgorithm := "sm3"
      chainSignatureAlgorithm := "sm2-sm3"
      publicKeyEncoding := "sec1-uncompressed-65-byte-sm2p256v1"
      transportMode := "gm-tls" }
  | .other name => .error (invalidTrustConfig ("unsupported crypto_mode " ++ name.quote))

structure ValidatorDescriptor where
  nodeID : String
  algorithm : String
  publicKeyEncoding : String
  publicKey : Bytes
  voteWeight : UInt64
  deriving Repr, DecidableEq, Inhabited

structure TrustConfig where
  cryptoMode : CryptoMode
  chainHashAlgorithm : String
  validatorQuorumPolicy : String
  validators : List ValidatorDescriptor
  sm2UserID : String
  deriving Repr, DecidableEq

abbrev ByNode := AList fun _ : String => ValidatorDescriptor

structure ValidatorState where
  ordered : List ValidatorDescriptor
  byNode : ByNode
  total : UInt64

/-- The curves: which byte strings are public keys, who signed, and what verifies. -/
structure ChainPrimitives where
  hashes : ChainHashes
  unmarshalPubkey : Bytes → Bool
  sigToPub : Bytes → Bytes → Outcome Bytes
  newSM2PublicKey : Bytes → Outcome Unit
  calculateSM2Hash : Bytes → Bytes → Bytes → Outcome Bytes
  sm2Verify : Bytes → Bytes → Nat → Nat → Bool

/-- `bits.Add64` without a carry in: the sum, and whether it wrapped. -/
def add64 (left right : UInt64) : UInt64 × Bool := (left + right, 2 ^ 64 ≤ left.toNat + right.toNat)

def canonicalNodeID (rawPublicKey : Bytes) : String := "0x" ++ Anchor.hexEncode rawPublicKey

def canonicalNodeIDForPublicKey (publicKey : Bytes) : Outcome String := do
  reject (publicKey.length ≠ bcosConsensusPublicKeyBytes + 1 ∨ publicKey.head? ≠ some 0x04)
    (.text "expected canonical 65-byte uncompressed public key")
  return canonicalNodeID (publicKey.drop 1)

section

variable (primitives : ChainPrimitives)

def isControl (symbol : Char) : Bool := symbol.toNat < 0x20 || symbol.toNat = 0x7f

def validateConfigString (name value : String) : Outcome Unit :=
  reject (trimSpace value = "" ∨ maxConfigString < (utf8 value).length ∨ value.toList.any isControl)
    (invalidTrustConfig (name ++ " is empty, oversized, or contains control characters"))

def validateValidator (validator : ValidatorDescriptor) (params : ModeParameters) : Outcome Unit := do
  validateConfigString "validator.node_id" validator.nodeID
  let name := validator.nodeID.quote
  reject (validator.algorithm ≠ params.chainSignatureAlgorithm ∨
      validator.publicKeyEncoding ≠ params.publicKeyEncoding)
    (invalidTrustConfig s!"validator {name} algorithm/encoding does not match crypto_mode {params.mode.text}")
  reject (validator.publicKey.length ≠ 65 ∨ validator.publicKey.head? ≠ some 0x04)
    (invalidTrustConfig s!"validator {name} public key must be canonical 65-byte uncompressed form")
  reject (validator.voteWeight = 0 ∨ maxVoteWeight < validator.voteWeight)
    (invalidTrustConfig s!"validator {name} vote_weight must be in [1, 2^63-1]")
  (match params.mode with
    | .standard => reject (¬primitives.unmarshalPubkey validator.publicKey)
        (invalidTrustConfig s!"validator {name} public key is not valid secp256k1")
    | .guomi => (primitives.newSM2PublicKey validator.publicKey).mapError fun _ =>
      invalidTrustConfig s!"validator {name} public key is not valid sm2p256v1"
    | .other _ => .error (invalidTrustConfig s!"validator {name} has unsupported crypto mode") : Outcome Unit)
  reject (validator.nodeID ≠ canonicalNodeID (validator.publicKey.drop 1))
    (invalidTrustConfig s!"validator node_id {name} does not match its canonical public key body")

def addTrustedValidator (state : ValidatorState) (validator : ValidatorDescriptor) : Outcome ValidatorState := do
  reject (¬(succeedsWith (canonicalNodeIDForPublicKey validator.publicKey) (· = validator.nodeID) ∧
      validator.voteWeight ≠ 0))
    (invalidProof ("validator " ++ validator.nodeID.quote ++ " is not canonical"))
  reject (validator.nodeID ∈ state.byNode)
    (invalidProof ("duplicate trusted validator " ++ validator.nodeID.quote))
  let (total, carry) := add64 state.total validator.voteWeight
  reject (carry = true) (invalidProof "trusted validator weight sum overflows")
  return { state with byNode := state.byNode.insert validator.nodeID validator, total }

def validatorStateFromConfig (config : TrustConfig) : Outcome ValidatorState := do
  reject (config.validatorQuorumPolicy ≠ quorumPolicyPBFTV2)
    (invalidProof ("unsupported PBFT quorum policy " ++ config.validatorQuorumPolicy.quote))
  let state ← config.validators.foldlM addTrustedValidator
    { ordered := config.validators, byNode := ∅, total := 0 }
  reject (state.total = 0 ∨ maxVoteWeight < state.total)
    (invalidProof "trusted validator total weight is outside [1, 2^63-1]")
  return state

def secp256k1Order : Nat := 0xfffffffffffffffffffffffffffffffebaaedce6af48a03bbfd25e8cd0364141

def verifyPBFTCommitSignature (mode : CryptoMode) (sm2UserID : String)
    (publicKey blockHash signature : Bytes) : Outcome Unit := do
  reject (blockHash.length ≠ identifierBytes) (.text s!"block hash is not {identifierBytes} bytes")
  let r := Words.decode (signature.take 32)
  let s := Words.decode ((signature.drop 32).take 32)
  match mode with
  | .standard =>
    reject (sm2UserID ≠ "") (.text "standard mode must not set an SM2 user ID")
    reject (signature.length ≠ bcosStandardSignatureBytes ∨ 3 < signature.getD 64 0)
      (.text "standard signature must be 65-byte [R || S || recovery-id<=3]")
    reject (r = 0 ∨ s = 0 ∨ secp256k1Order ≤ r ∨ secp256k1Order ≤ s ∨ secp256k1Order / 2 < s)
      (.text "standard signature has non-canonical R/S values")
    let recovered ← (primitives.sigToPub blockHash signature).mapError (.textOf "recover secp256k1 signer")
    reject (recovered ≠ publicKey) (.text "secp256k1 signer does not match pinned validator")
  | .guomi =>
    reject (sm2UserID ≠ sm2DefaultUserID)
      (.text ("Guomi mode requires fixed SM2 user ID " ++ sm2DefaultUserID.quote))
    reject (signature.length ≠ bcosGuomiSignatureBytes)
      (.text "Guomi signature must be 64-byte [R || S]")
    (primitives.newSM2PublicKey publicKey).mapError (.textOf "parse SM2 validator public key")
    let digest ← (primitives.calculateSM2Hash publicKey blockHash (utf8 sm2UserID)).mapError
      (.textOf "calculate SM2 block-hash digest")
    reject (¬primitives.sm2Verify publicKey digest r s) (.text "invalid SM2 block-hash signature")
  | .other name => throw (.text ("unsupported crypto mode " ++ name.quote))

def signedWeightFrom (config : TrustConfig) (state : ValidatorState) (blockHash : Bytes) :
    List String → UInt64 → Nat → List CommitSignature → Outcome UInt64
  | _, signedWeight, _, [] => .ok signedWeight
  | seen, signedWeight, index, commit :: rest => do
    let name := commit.validatorNodeID.quote
    reject (commit.validatorNodeID ∈ seen) (invalidProof ("duplicate PBFT signer " ++ name))
    match state.byNode.lookup commit.validatorNodeID with
    | none => throw (invalidProof s!"PBFT signer {name} is not in the active trusted set")
    | some validator =>
      (verifyPBFTCommitSignature primitives config.cryptoMode config.sm2UserID validator.publicKey blockHash
        commit.signature).mapError fun failure =>
          invalidProof s!"PBFT signature {index} for {name}: {failure.message}"
      let (signedWeight, carry) := add64 signedWeight validator.voteWeight
      reject (carry = true) (invalidProof "PBFT signed weight overflows")
      signedWeightFrom config state blockHash (commit.validatorNodeID :: seen) signedWeight (index + 1) rest

def verifyFinalityAgainstState (config : TrustConfig) (state : ValidatorState) (block : BlockEvidence)
    (finality : FinalityEvidence) : Outcome Unit := do
  reject (finality.signatures = []) (invalidProof "PBFT finality has no signatures")
  let signedWeight ← signedWeightFrom primitives config state block.blockHash [] 0 0 finality.signatures
  let requiredWeight := state.total - (state.total - 1) / 3
  reject (signedWeight < requiredWeight)
    (invalidProof (s!"PBFT quorum has weight {signedWeight}, requires {requiredWeight} of trusted total " ++
      toString state.total))

def headerMatchesFrom (byNode : ByNode) : List String → List (Bytes × Int64) → Bool
  | seen, [] => seen.length = byNode.entries.length
  | seen, (rawNodeID, weight) :: rest =>
    if rawNodeID.length ≠ bcosConsensusPublicKeyBytes ∨ weight ≤ 0 then false
    else
      let nodeID := canonicalNodeID rawNodeID
      match byNode.lookup nodeID with
      | none => false
      | some validator =>
        if validator.publicKey.drop 1 ≠ rawNodeID ∨ validator.voteWeight ≠ weight.toUInt64 then false
        else if nodeID ∈ seen then false
        else headerMatchesFrom byNode (nodeID :: seen) rest

def headerMatchesValidatorSet (state : ValidatorState) (header : NativeBlockHeaderFields) : Bool :=
  if header.sealerList.length ≠ state.byNode.entries.length ∨
      header.consensusWeights.length ≠ state.byNode.entries.length then false
  else headerMatchesFrom state.byNode [] (header.sealerList.zip header.consensusWeights)

def stateOrderedByHeader (state : ValidatorState) (header : NativeBlockHeaderFields) : Outcome ValidatorState := do
  reject (¬headerMatchesValidatorSet state header) (.text "header validator set mismatch")
  return { state with ordered := header.sealerList.map fun rawNodeID =>
    (state.byNode.lookup (canonicalNodeID rawNodeID)).getD default }

def sumWeights (total : UInt64) : List ValidatorDescriptor → Outcome UInt64
  | [] => .ok total
  | validator :: rest => do
    let (total, carry) := add64 total validator.voteWeight
    reject (carry = true) (.text "validator weight sum overflows")
    sumWeights total rest

def recomputeValidatorTotal (state : ValidatorState) : Outcome ValidatorState := do
  let total ← sumWeights 0 (state.byNode.entries.map Sigma.snd)
  reject (total = 0) (.text "validator set cannot be empty")
  return { state with total }

def consensusPrecompileAddress : Bytes := List.replicate 18 0 ++ [0x10, 0x03]

def abiHashForMode (mode : CryptoMode) (signature : String) : Outcome Bytes :=
  match mode with
  | .standard => .ok (primitives.hashes.keccak256 (utf8 signature)).bytes
  | .guomi => .ok (primitives.hashes.sm3 (utf8 signature)).bytes
  | .other name => .error (.text ("invalid FISCO BCOS anchor payload: unsupported ABI crypto mode " ++ name.quote))

def abiSelectorForMode (mode : CryptoMode) (signature : String) : Outcome Bytes := do
  let digest ← abiHashForMode primitives mode signature
  return digest.take 4

inductive Operation
  | addSealer
  | addObserver
  | remove
  | setWeight
  deriving Repr, DecidableEq

def operations : List (String × Operation) := [
  ("addSealer(string,uint256)", .addSealer),
  ("addObserver(string)", .addObserver),
  ("remove(string)", .remove),
  ("setWeight(string,uint256)", .setWeight)]

def rpbftOperations : List String := ["addSealer(string,uint256,uint256)", "setTermWeight(string,uint256)"]

def zeros (data : Bytes) (start stop : Nat) : Bool :=
  Slice.slice start (stop - start) data = List.replicate (stop - start) 0

def decodeABITailString (data : Bytes) (offset : Nat) : Outcome Bytes := do
  reject (data.length < offset + 32 ∨ ¬zeros data offset (offset + 24))
    (.text "non-canonical ABI string offset or length")
  let length := Words.decode (Slice.slice (offset + 24) 8 data)
  reject (maxConfigString < length ∨ data.length - (offset + 32) < length)
    (.text "ABI string is oversized or truncated")
  let padded := (length + 31) / 32 * 32
  reject (offset + 32 + padded ≠ data.length ∨
      data.drop (offset + 32 + length) ≠ List.replicate (padded - length) 0)
    (.text "ABI string has trailing or non-zero padding")
  return Slice.slice (offset + 32) length data

def decodeABIString (data : Bytes) : Outcome Bytes := do
  reject (data.length < 64 ∨ Words.decode (Slice.slice 24 8 data) ≠ 32 ∨ ¬zeros data 0 24)
    (.text "non-canonical ABI string arguments")
  decodeABITailString data 32

def decodeABIStringUint256 (data : Bytes) : Outcome (Bytes × UInt64) := do
  reject (data.length < 96 ∨ ¬zeros data 0 24 ∨ Words.decode (Slice.slice 24 8 data) ≠ 64 ∨
      ¬zeros data 32 56)
    (.text "non-canonical ABI string,uint256 arguments")
  let value ← decodeABITailString data 64
  return (value, UInt64.ofNat (Words.decode (Slice.slice 56 8 data)))

/-- `strings.ToLower`, of which only the ASCII letters can matter to the digits read next. -/
def toLower (data : Bytes) : Bytes := data.map fun byte => if 65 ≤ byte ∧ byte ≤ 90 then byte + 32 else byte

def decodeOperation (op : Operation) (arguments : Bytes) : Outcome (Bytes × UInt64) :=
  match op with
  | .addObserver | .remove => do
    let nodeID ← decodeABIString arguments
    return (nodeID, 0)
  | .addSealer | .setWeight => decodeABIStringUint256 arguments

def checkVoteWeight (weight : UInt64) : Outcome Unit :=
  reject (weight = 0 ∨ maxVoteWeight < weight) (.text "validator vote weight is outside [1, 2^63-1]")

def applyOperation (config : TrustConfig) (byNode : ByNode) (op : Operation) (publicKeyBody : Bytes)
    (weight : UInt64) : Outcome ByNode :=
  let canonicalID := canonicalNodeID publicKeyBody
  match op with
  | .addSealer => do
    checkVoteWeight weight
    match byNode.lookup canonicalID with
    | some validator => return byNode.insert canonicalID { validator with voteWeight := weight }
    | none =>
      let params ← parametersForMode config.cryptoMode
      let validator : ValidatorDescriptor := {
        nodeID := canonicalID
        algorithm := params.chainSignatureAlgorithm
        publicKeyEncoding := params.publicKeyEncoding
        publicKey := 0x04 :: publicKeyBody
        voteWeight := weight }
      validateValidator primitives validator params
      return byNode.insert canonicalID validator
  | .addObserver | .remove => return byNode.erase canonicalID
  | .setWeight =>
    match byNode.lookup canonicalID with
    | none => throw (.text "successful setWeight targets a non-validator")
    | some validator => do
      checkVoteWeight weight
      return byNode.insert canonicalID { validator with voteWeight := weight }

def selectOperation (config : TrustConfig) (input : Bytes) : Outcome Operation := do
  reject (input.length < 4) (.text "missing ABI selector")
  let selectors ← operations.mapM fun (signature, op) => do
    return (← abiSelectorForMode primitives config.cryptoMode signature, op)
  let unsupported ← rpbftOperations.mapM fun signature => do
    return (← abiSelectorForMode primitives config.cryptoMode signature, signature)
  match unsupported.lookup (input.take 4) with
  | some signature => throw (.text s!"RPBFT validator mutation {signature} is unsupported")
  | none =>
    match selectors.lookup (input.take 4) with
    | none => throw (.text ("unsupported consensus precompile selector 0x" ++ Anchor.hexEncode (input.take 4)))
    | some op => return op

def applyConsensusMutation (config : TrustConfig) (state : ValidatorState) (input : Bytes) :
    Outcome ValidatorState := do
  let op ← selectOperation primitives config input
  let (nodeID, weight) ← decodeOperation op (input.drop 4)
  match Hex.decode (toLower nodeID) with
  | none => throw (.text "validator node ID is not a 128-character hexadecimal public key")
  | some publicKeyBody =>
    reject (publicKeyBody.length ≠ bcosConsensusPublicKeyBytes)
      (.text "validator node ID is not a 128-character hexadecimal public key")
    let byNode ← applyOperation primitives config state.byNode op publicKeyBody weight
    recomputeValidatorTotal { state with byNode }

def merkleLevel (hashAlgorithm : String) : List Bytes → Outcome (List Bytes)
  | [] => .ok []
  | [last] => do
    let digest ← hashNativeEvidence primitives.hashes hashAlgorithm last
    return [digest]
  | left :: right :: rest => do
    let digest ← hashNativeEvidence primitives.hashes hashAlgorithm (left ++ right)
    let level ← merkleLevel hashAlgorithm rest
    return digest :: level

def merkleLevels (hashAlgorithm : String) : Nat → List Bytes → Outcome Bytes
  | 0, level => .ok (level.headD [])
  | fuel + 1, level =>
    if 1 < level.length then do
      let next ← merkleLevel primitives hashAlgorithm level
      merkleLevels hashAlgorithm fuel next
    else .ok (level.headD [])

def checkMerkleLeaves (index : Nat) : List Bytes → Outcome Unit
  | [] => .ok ()
  | leaf :: rest => do
    reject (leaf.length ≠ identifierBytes) (.text s!"invalid BCOS Merkle leaf {index}")
    checkMerkleLeaves (index + 1) rest

def buildBCOSMerkleRoot (leaves : List Bytes) (hashAlgorithm : String) : Outcome Bytes := do
  reject (leaves = []) (.text "empty BCOS Merkle tree")
  checkMerkleLeaves 0 leaves
  merkleLevels primitives hashAlgorithm leaves.length leaves

def verifyTransitionBlockRoots (hashAlgorithm : String) (evidence : ValidatorHistoryBlock) : Outcome Unit := do
  let root (leaves : List Bytes) := buildBCOSMerkleRoot primitives leaves hashAlgorithm
  reject (¬succeedsWith (root (evidence.transactions.map TransitionTransactionEvidence.transactionHash))
      (· = evidence.block.fields.transactionsRoot))
    (.text "transition transaction root mismatch")
  reject (¬succeedsWith (root (evidence.receipts.map TransitionReceiptEvidence.receiptHash))
      (· = evidence.block.fields.receiptsRoot))
    (.text "transition receipt root mismatch")

def applyTransactions (config : TrustConfig) (index : Nat) (derived : ValidatorState) :
    List (TransitionTransactionEvidence × TransitionReceiptEvidence) → Outcome ValidatorState
  | [] => .ok derived
  | (transaction, receipt) :: rest =>
    if transaction.fields.toAddress ≠ consensusPrecompileAddress ∨ receipt.fields.status ≠ 0 then
      applyTransactions config (index + 1) derived rest
    else do
      reject (receipt.fields.output.length ≠ 32)
        (.text s!"consensus precompile receipt {index} has a non-canonical return value")
      if receipt.fields.output ≠ List.replicate 32 0 then
        applyTransactions config (index + 1) derived rest
      else
        let derived ← (applyConsensusMutation primitives config derived transaction.fields.input).mapError
          fun failure => .text s!"consensus precompile transaction {index}: {failure.message}"
        applyTransactions config (index + 1) derived rest

def deriveNextValidatorState (config : TrustConfig) (current : ValidatorState)
    (evidence : ValidatorHistoryBlock) (nextHeader : NativeBlockHeaderFields) : Outcome ValidatorState :=
  if headerMatchesValidatorSet current nextHeader ∧ evidence.transactions = [] ∧ evidence.receipts = [] then
    stateOrderedByHeader current nextHeader
  else do
    reject (evidence.transactions = [] ∨ evidence.transactions.length ≠ evidence.receipts.length)
      (.text "validator change lacks a complete transaction/receipt list")
    verifyTransitionBlockRoots primitives config.chainHashAlgorithm evidence
    let derived ← applyTransactions primitives config 0 current (evidence.transactions.zip evidence.receipts)
    reject (¬headerMatchesValidatorSet derived nextHeader)
      (.text "next header validator set is not the exact result of successful consensus mutations")
    stateOrderedByHeader derived nextHeader

end

end TrustDB.FiscoBcos
