import TrustDB.Anchor
import TrustDB.Codec.Hex

/-!
Package `anchor/fiscobcos`, native evidence: the fields of transactions, receipts and block
headers, the byte strings that the chain hashes, and the structural checks on the blocks of a
validator history. A Go string of the chain is any byte string here; the hash functions are
parameters.
-/

namespace TrustDB.FiscoBcos

open Result

def maxNativeEvidenceFieldBytes : Nat := 4 * 2 ^ 20

def maxNativeEvidenceItems : Nat := 4096

def identifierBytes : Nat := 32

def maxRawTransactionBytes : Nat := 4 * 2 ^ 20

def maxRawReceiptBytes : Nat := 4 * 2 ^ 20

def maxRawHeaderBytes : Nat := 2 * 2 ^ 20

def maxCommitSignatures : Nat := 1024

def maxSignatureBytes : Nat := 1024

def maxConfigString : Nat := 4096

def hashKeccak256 : String := "keccak256"

structure ChainHashes where
  keccak256 : Bytes → Digest
  sm3 : Bytes → Digest

structure NativeLogFields where
  address : Bytes
  topics : List Bytes
  data : Bytes
  deriving Repr, DecidableEq, Inhabited

structure NativeReceiptFields where
  version : Int32
  gasUsed : Bytes
  contractAddress : Bytes
  status : Int32
  output : Bytes
  effectiveGasPrice : Option Bytes
  logs : List NativeLogFields
  blockNumber : Int64
  deriving Repr, DecidableEq, Inhabited

structure NativeTransactionFields where
  version : Int32
  chainID : Bytes
  groupID : Bytes
  blockLimit : Int64
  nonce : Bytes
  toAddress : Bytes
  input : Bytes
  abi : Bytes
  deriving Repr, DecidableEq, Inhabited

structure NativeParentInfo where
  blockNumber : Int64
  blockHash : Bytes
  deriving Repr, DecidableEq, Inhabited

structure NativeBlockHeaderFields where
  version : Int32
  parentInfo : List NativeParentInfo
  transactionsRoot : Bytes
  receiptsRoot : Bytes
  stateRoot : Bytes
  blockNumber : Int64
  gasUsed : Bytes
  timestamp : Int64
  sealer : Int64
  sealerList : List Bytes
  extraData : Bytes
  consensusWeights : List Int64
  deriving Repr, DecidableEq, Inhabited

structure BlockEvidence where
  fields : NativeBlockHeaderFields
  rawCanonicalHeader : Bytes
  blockHash : Bytes
  blockNumber : Nat
  deriving Repr, DecidableEq, Inhabited

structure CommitSignature where
  validatorNodeID : String
  signature : Bytes
  deriving Repr, DecidableEq, Inhabited

structure FinalityEvidence where
  signatures : List CommitSignature
  deriving Repr, DecidableEq, Inhabited

structure TransitionTransactionEvidence where
  fields : NativeTransactionFields
  rawHashPreimage : Bytes
  transactionHash : Bytes
  deriving Repr, DecidableEq, Inhabited

structure TransitionReceiptEvidence where
  fields : NativeReceiptFields
  rawCanonicalReceipt : Bytes
  receiptHash : Bytes
  deriving Repr, DecidableEq, Inhabited

structure ValidatorHistoryBlock where
  block : BlockEvidence
  finality : FinalityEvidence
  transactions : List TransitionTransactionEvidence
  receipts : List TransitionReceiptEvidence
  deriving Repr, DecidableEq, Inhabited

structure AnchorProof where
  chainHashAlgorithm : String
  chainID : Bytes
  groupID : Bytes
  deriving Repr, DecidableEq, Inhabited

def errIncompleteChainEvidence : Err := .text "FISCO BCOS chain evidence is incomplete"

def incompleteEvidence (detail : String) : Err :=
  .text ("FISCO BCOS chain evidence is incomplete: " ++ detail)

def invalidProof (detail : String) : Err := .text ("invalid FISCO BCOS anchor proof: " ++ detail)

def int32Bytes (value : Int32) : Bytes := Words.encode 4 value.toUInt32.toNat

def int64Bytes (value : Int64) : Bytes := Words.encode 8 value.toUInt64.toNat

def NativeLogFields.canonical (log : NativeLogFields) : Bytes :=
  log.address ++ log.topics.flatten ++ log.data

def checkLogSizes (receiptSize : Nat) : List NativeLogFields → Outcome Unit
  | [] => .ok ()
  | log :: rest => do
    reject (log.address.length = 0 ∨ maxNativeEvidenceFieldBytes < log.address.length ∨
        maxNativeEvidenceFieldBytes < log.data.length ∨ maxNativeEvidenceItems < log.topics.length)
      errIncompleteChainEvidence
    let receiptSize := receiptSize + (log.address.length + log.data.length + identifierBytes * log.topics.length)
    reject (maxRawReceiptBytes < receiptSize) errIncompleteChainEvidence
    checkLogSizes receiptSize rest

def marshalNativeReceiptPreimage (fields : NativeReceiptFields) : Outcome (Bytes × List Bytes) := do
  reject (fields.version < 0 ∨ fields.blockNumber < 0 ∨
      maxNativeEvidenceFieldBytes < fields.gasUsed.length ∨
      maxNativeEvidenceFieldBytes < fields.contractAddress.length ∨
      maxNativeEvidenceFieldBytes < fields.output.length ∨ maxNativeEvidenceItems < fields.logs.length)
    errIncompleteChainEvidence
  reject (1 ≤ fields.version ∧ fields.effectiveGasPrice = none)
    (incompleteEvidence s!"receipt version {fields.version.toInt} lacks effectiveGasPrice")
  let price := fields.effectiveGasPrice.getD []
  reject (maxNativeEvidenceFieldBytes < price.length) errIncompleteChainEvidence
  checkLogSizes (4 + fields.gasUsed.length + fields.contractAddress.length + 4 + fields.output.length + 8 +
    price.length) fields.logs
  reject (∃ log ∈ fields.logs, ∃ topic ∈ log.topics, topic.length ≠ identifierBytes)
    (incompleteEvidence "receipt log topic is not 32 bytes")
  let logs := fields.logs.map NativeLogFields.canonical
  let out := int32Bytes fields.version ++ fields.gasUsed ++ fields.contractAddress ++
    int32Bytes fields.status ++ fields.output ++ (if 1 ≤ fields.version then price else []) ++
    logs.flatten ++ int64Bytes fields.blockNumber
  reject (maxRawReceiptBytes < out.length) errIncompleteChainEvidence
  return (out, logs)

def marshalNativeTransactionHashPreimage (fields : NativeTransactionFields) : Outcome Bytes := do
  reject (fields.version ≠ 0 ∨ fields.blockLimit ≤ 0 ∨
      fields.chainID.length = 0 ∨ maxNativeEvidenceFieldBytes < fields.chainID.length ∨
      fields.groupID.length = 0 ∨ maxNativeEvidenceFieldBytes < fields.groupID.length ∨
      maxNativeEvidenceFieldBytes < fields.nonce.length ∨
      (fields.toAddress.length ≠ 0 ∧ fields.toAddress.length ≠ 20) ∨
      maxNativeEvidenceFieldBytes < fields.input.length ∨ maxNativeEvidenceFieldBytes < fields.abi.length)
    errIncompleteChainEvidence
  reject (maxRawTransactionBytes < 4 + fields.chainID.length + fields.groupID.length + 8 +
      fields.nonce.length + 2 * fields.toAddress.length + fields.input.length + fields.abi.length)
    errIncompleteChainEvidence
  return int32Bytes fields.version ++ fields.chainID ++ fields.groupID ++ int64Bytes fields.blockLimit ++
    fields.nonce ++ Hex.encode fields.toAddress ++ fields.input ++ fields.abi

def checkSealerSizes (headerSize : Nat) : List Bytes → Outcome Nat
  | [] => .ok headerSize
  | sealer :: rest => do
    reject (sealer.length = 0 ∨ maxNativeEvidenceFieldBytes < sealer.length) errIncompleteChainEvidence
    let headerSize := headerSize + sealer.length
    reject (maxRawHeaderBytes < headerSize) errIncompleteChainEvidence
    checkSealerSizes headerSize rest

def marshalNativeBlockHeaderPreimage (fields : NativeBlockHeaderFields) : Outcome Bytes := do
  reject (fields.version < 0 ∨ fields.blockNumber < 0 ∨ fields.timestamp < 0 ∨ fields.sealer < 0 ∨
      maxNativeEvidenceItems < fields.parentInfo.length ∨ maxNativeEvidenceItems < fields.sealerList.length ∨
      maxNativeEvidenceItems < fields.consensusWeights.length ∨
      maxNativeEvidenceFieldBytes < fields.gasUsed.length ∨
      maxNativeEvidenceFieldBytes < fields.extraData.length)
    errIncompleteChainEvidence
  reject (∃ root ∈ [fields.transactionsRoot, fields.receiptsRoot, fields.stateRoot],
      root.length ≠ identifierBytes)
    (incompleteEvidence "block header root is not 32 bytes")
  let headerSize ← checkSealerSizes (4 + fields.parentInfo.length * (8 + identifierBytes) +
    3 * identifierBytes + 8 + fields.gasUsed.length + 8 + 8 + fields.extraData.length +
    fields.consensusWeights.length * 8) fields.sealerList
  reject (maxRawHeaderBytes < headerSize) errIncompleteChainEvidence
  reject (∃ parent ∈ fields.parentInfo,
      parent.blockNumber < 0 ∨ parent.blockHash.length ≠ identifierBytes)
    (incompleteEvidence "invalid parent block identity")
  reject (∃ weight ∈ fields.consensusWeights, weight < 0) errIncompleteChainEvidence
  let out := int32Bytes fields.version ++
    (fields.parentInfo.flatMap fun parent => int64Bytes parent.blockNumber ++ parent.blockHash) ++
    fields.transactionsRoot ++ fields.receiptsRoot ++ fields.stateRoot ++ int64Bytes fields.blockNumber ++
    fields.gasUsed ++ int64Bytes fields.timestamp ++ int64Bytes fields.sealer ++
    fields.sealerList.flatten ++ fields.extraData ++ fields.consensusWeights.flatMap int64Bytes
  reject (maxRawHeaderBytes < out.length) errIncompleteChainEvidence
  return out

section

variable (hashes : ChainHashes)

def hashNativeEvidence (algorithm : String) (preimage : Bytes) : Outcome Bytes :=
  if algorithm = hashKeccak256 then .ok (hashes.keccak256 preimage).bytes
  else if algorithm = "sm3" then .ok (hashes.sm3 preimage).bytes
  else .error (.text "unsupported FISCO BCOS native evidence hash")

def checkHistorySignatures (index : Nat) (seen : List String) (position : Nat) :
    List CommitSignature → Outcome Unit
  | [] => .ok ()
  | commit :: rest => do
    reject (trimSpace commit.validatorNodeID = "" ∨
        maxConfigString < (utf8 commit.validatorNodeID).length ∨
        commit.signature.length = 0 ∨ maxSignatureBytes < commit.signature.length)
      (invalidProof s!"validator history block {index} signature {position} is incomplete or oversized")
    reject (commit.validatorNodeID ∈ seen)
      (invalidProof (s!"validator history block {index} duplicates signer " ++ commit.validatorNodeID.quote))
    checkHistorySignatures index (commit.validatorNodeID :: seen) (position + 1) rest

def succeedsWith {α : Type} (outcome : Outcome α) (test : α → Bool) : Bool :=
  outcome.toOption.any test

def checkHistoryTransaction (proof : AnchorProof) (index position : Nat)
    (transaction : TransitionTransactionEvidence) : Outcome Unit := do
  let preimage := marshalNativeTransactionHashPreimage transaction.fields
  reject (¬(succeedsWith preimage (· = transaction.rawHashPreimage) ∧
      transaction.rawHashPreimage.length ≠ 0 ∧ transaction.rawHashPreimage.length ≤ maxRawTransactionBytes ∧
      transaction.fields.chainID = proof.chainID ∧ transaction.fields.groupID = proof.groupID ∧
      transaction.transactionHash.length = identifierBytes))
    (invalidProof s!"validator history block {index} transaction {position} is incomplete")
  reject (¬succeedsWith (preimage >>= hashNativeEvidence hashes proof.chainHashAlgorithm)
      (· = transaction.transactionHash))
    (invalidProof s!"validator history block {index} transaction {position} hash mismatch")

def checkHistoryReceipt (proof : AnchorProof) (index position blockNumber : Nat)
    (receipt : TransitionReceiptEvidence) : Outcome Unit := do
  let canonicalReceipt := (marshalNativeReceiptPreimage receipt.fields).map Prod.fst
  reject (¬(succeedsWith canonicalReceipt (· = receipt.rawCanonicalReceipt) ∧
      receipt.rawCanonicalReceipt.length ≠ 0 ∧ receipt.rawCanonicalReceipt.length ≤ maxRawReceiptBytes ∧
      0 ≤ receipt.fields.blockNumber ∧ receipt.fields.blockNumber.toUInt64.toNat = blockNumber ∧
      receipt.receiptHash.length = identifierBytes))
    (invalidProof s!"validator history block {index} receipt {position} is incomplete")
  reject (¬succeedsWith (canonicalReceipt >>= hashNativeEvidence hashes proof.chainHashAlgorithm)
      (· = receipt.receiptHash))
    (invalidProof s!"validator history block {index} receipt {position} hash mismatch")

def checkHistoryEntries (proof : AnchorProof) (index blockNumber : Nat) (position : Nat) :
    List (TransitionTransactionEvidence × TransitionReceiptEvidence) → Outcome Unit
  | [] => .ok ()
  | (transaction, receipt) :: rest => do
    checkHistoryTransaction hashes proof index position transaction
    checkHistoryReceipt hashes proof index position blockNumber receipt
    checkHistoryEntries proof index blockNumber (position + 1) rest

def validateHistoryBlockStructure (proof : AnchorProof) (index : Nat) (item : ValidatorHistoryBlock) :
    Outcome Unit := do
  reject (item.block.rawCanonicalHeader.length = 0 ∨
      maxRawHeaderBytes < item.block.rawCanonicalHeader.length ∨
      item.block.blockHash.length ≠ identifierBytes)
    (invalidProof s!"validator history block {index} is incomplete or oversized")
  let canonicalHeader := marshalNativeBlockHeaderPreimage item.block.fields
  reject (¬(succeedsWith canonicalHeader (· = item.block.rawCanonicalHeader) ∧
      0 ≤ item.block.fields.blockNumber ∧ item.block.fields.blockNumber.toUInt64.toNat = item.block.blockNumber))
    (invalidProof s!"validator history block {index} has a non-canonical header")
  reject (¬succeedsWith (canonicalHeader >>= hashNativeEvidence hashes proof.chainHashAlgorithm)
      (· = item.block.blockHash))
    (invalidProof s!"validator history block {index} hash mismatch")
  reject (maxCommitSignatures < item.finality.signatures.length)
    (invalidProof s!"validator history block {index} signature count={item.finality.signatures.length}")
  checkHistorySignatures index [] 0 item.finality.signatures
  reject (item.transactions.length ≠ item.receipts.length ∨
      maxNativeEvidenceItems < item.transactions.length)
    (invalidProof s!"validator history block {index} transaction/receipt count mismatch")
  checkHistoryEntries hashes proof index item.block.blockNumber 0 (item.transactions.zip item.receipts)

end

end TrustDB.FiscoBcos
