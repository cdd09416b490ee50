import TrustDB.FiscoBcos.Finality
import TrustDB.HashTree.Shape

/-!
What a native hash binds. The pre-images are field after field without lengths between them, so
two readings of one hash agree in all hashed fields exactly if they cut the pre-image at the same
places; nothing in the checks makes them.
-/

namespace TrustDB.FiscoBcos

open Result List

open HashTree (CollisionFree)

def NativeTransactionFields.SameSplit (first second : NativeTransactionFields) : Prop :=
  first.nonce.length = second.nonce.length ∧ first.toAddress.length = second.toAddress.length ∧
    first.input.length = second.input.length

def NativeLogFields.shape (log : NativeLogFields) : Nat × Nat × Nat :=
  (log.address.length, log.topics.length, log.data.length)

def NativeReceiptFields.hashedPrice (fields : NativeReceiptFields) : Bytes :=
  if 1 ≤ fields.version then fields.effectiveGasPrice.getD [] else []

def NativeReceiptFields.SameSplit (first second : NativeReceiptFields) : Prop :=
  first.gasUsed.length = second.gasUsed.length ∧
    first.contractAddress.length = second.contractAddress.length ∧
    first.output.length = second.output.length ∧ first.hashedPrice.length = second.hashedPrice.length ∧
    first.logs.map NativeLogFields.shape = second.logs.map NativeLogFields.shape

structure NativeReceiptFields.SameHashed (first second : NativeReceiptFields) : Prop where
  gasUsed : first.gasUsed = second.gasUsed
  contractAddress : first.contractAddress = second.contractAddress
  status : first.status = second.status
  output : first.output = second.output
  price : first.hashedPrice = second.hashedPrice
  logs : first.logs = second.logs

section Encoding

theorem int32Bytes_injective {first second} (same : int32Bytes first = int32Bytes second) : first = second := by
  have numbers : first.toUInt32.toNat = second.toUInt32.toNat :=
    @Words.encode_injective 4 _ _ first.toUInt32.toNat_lt second.toUInt32.toNat_lt same
  have words := UInt32.toNat_inj.mp numbers
  cases first
  cases second
  exact congrArg Int32.ofUInt32 words

theorem int64Bytes_injective {first second} (same : int64Bytes first = int64Bytes second) : first = second := by
  have numbers : first.toUInt64.toNat = second.toUInt64.toNat :=
    @Words.encode_injective 8 _ _ first.toUInt64.toNat_lt second.toUInt64.toNat_lt same
  have words := UInt64.toNat_inj.mp numbers
  cases first
  cases second
  exact congrArg Int64.ofUInt64 words

@[simp] theorem int32Bytes_length (value : Int32) : (int32Bytes value).length = 4 := Words.encode_length 4 _

@[simp] theorem int64Bytes_length (value : Int64) : (int64Bytes value).length = 8 := Words.encode_length 8 _

end Encoding

section Transactions

variable {first second : NativeTransactionFields} {preimage : Bytes}

def NativeTransactionFields.body (fields : NativeTransactionFields) : Bytes :=
  int64Bytes fields.blockLimit ++
    (fields.nonce ++ (Hex.encode fields.toAddress ++ (fields.input ++ fields.abi)))

theorem marshalNativeTransactionHashPreimage_eq_ok
    (marshalled : marshalNativeTransactionHashPreimage first = .ok preimage) :
    first.version = 0 ∧
      preimage = int32Bytes first.version ++ (first.chainID ++ (first.groupID ++ first.body)) := by
  simp only [marshalNativeTransactionHashPreimage, bind_eq_ok, reject_eq_ok,
    return_eq_ok, not_or, not_not] at marshalled
  obtain ⟨_, ⟨version, -⟩, _, _, rfl⟩ := marshalled
  refine ⟨version, ?_⟩
  simp only [NativeTransactionFields.body, append_assoc]

theorem transaction_preimage_binds (firstMarshalled : marshalNativeTransactionHashPreimage first = .ok preimage)
    (secondMarshalled : marshalNativeTransactionHashPreimage second = .ok preimage)
    (chain : first.chainID = second.chainID) (group : first.groupID = second.groupID) :
    first.blockLimit = second.blockLimit ∧ (first.SameSplit second ↔ first = second) := by
  obtain ⟨firstVersion, firstBytes⟩ := marshalNativeTransactionHashPreimage_eq_ok firstMarshalled
  obtain ⟨secondVersion, secondBytes⟩ := marshalNativeTransactionHashPreimage_eq_ok secondMarshalled
  have version : first.version = second.version := firstVersion.trans secondVersion.symm
  have same := firstBytes.symm.trans secondBytes
  rw [version, chain, group] at same
  have bodies := append_cancel_left (append_cancel_left (append_cancel_left same))
  obtain ⟨limits, rest⟩ := append_inj bodies (by simp)
  have blockLimit := int64Bytes_injective limits
  refine ⟨blockLimit, ?_⟩
  constructor
  · rintro ⟨nonceLength, toLength, inputLength⟩
    obtain ⟨nonce, rest⟩ := append_inj rest nonceLength
    obtain ⟨address, rest⟩ := append_inj rest (by simp [toLength])
    obtain ⟨input, abi⟩ := append_inj rest inputLength
    have toAddress := Hex.encode_injective address
    cases first
    cases second
    simp_all
  · rintro rfl
    exact ⟨rfl, rfl, rfl⟩

end Transactions

section Receipts

variable {first second : NativeReceiptFields} {preimage : Bytes} {logs otherLogs : List Bytes}

def NativeReceiptFields.WideTopics (fields : NativeReceiptFields) : Prop :=
  ∀ log ∈ fields.logs, ∀ topic ∈ log.topics, topic.length = identifierBytes

theorem marshalNativeReceiptPreimage_eq_ok
    (marshalled : marshalNativeReceiptPreimage first = .ok (preimage, logs)) :
    first.WideTopics ∧ preimage = int32Bytes first.version ++ (first.gasUsed ++ (first.contractAddress ++
      (int32Bytes first.status ++ (first.output ++ (first.hashedPrice ++
        (first.logs.map NativeLogFields.canonical).flatten))))) ++ int64Bytes first.blockNumber := by
  simp only [marshalNativeReceiptPreimage, bind_eq_ok, reject_eq_ok, return_eq_ok, Prod.mk.injEq, not_exists, not_and,
    not_not] at marshalled
  obtain ⟨_, _, _, _, _, _, _, _, _, topics, _, _, rfl, _⟩ := marshalled
  refine ⟨topics, ?_⟩
  simp only [NativeReceiptFields.hashedPrice, append_assoc]

theorem log_eq_of_canonical {first second : NativeLogFields} (shape : first.shape = second.shape)
    (firstWide : ∀ topic ∈ first.topics, topic.length = identifierBytes)
    (secondWide : ∀ topic ∈ second.topics, topic.length = identifierBytes)
    (same : first.canonical = second.canonical) : first = second := by
  simp only [NativeLogFields.shape, Prod.mk.injEq] at shape
  simp only [NativeLogFields.canonical, append_assoc] at same
  obtain ⟨address, rest⟩ := append_inj same shape.1
  obtain ⟨flat, data⟩ := append_inj' rest shape.2.2
  have widths : first.topics.map length = second.topics.map length := by
    rw [map_congr_left firstWide, map_congr_left secondWide, map_const', map_const', shape.2.1]
  have topics := eq_iff_flatten_eq.mpr ⟨flat, widths⟩
  cases first
  cases second
  simp_all

theorem canonical_length {log : NativeLogFields} (wide : ∀ topic ∈ log.topics, topic.length = identifierBytes) :
    log.canonical.length = log.shape.1 + identifierBytes * log.shape.2.1 + log.shape.2.2 := by
  have flat : log.topics.flatten.length = identifierBytes * log.topics.length := by
    rw [length_flatten, map_congr_left wide, map_const', sum_replicate_nat, Nat.mul_comm]
  simp only [NativeLogFields.canonical, length_append, flat, NativeLogFields.shape]

theorem logs_eq_of_flatten {first second : List NativeLogFields}
    (firstWide : ∀ log ∈ first, ∀ topic ∈ log.topics, topic.length = identifierBytes)
    (secondWide : ∀ log ∈ second, ∀ topic ∈ log.topics, topic.length = identifierBytes)
    (shapes : first.map NativeLogFields.shape = second.map NativeLogFields.shape)
    (same : (first.map NativeLogFields.canonical).flatten = (second.map NativeLogFields.canonical).flatten) :
    first = second := by
  induction first generalizing second with
  | nil =>
    cases second with
    | nil => rfl
    | cons log rest => simp at shapes
  | cons log rest ih =>
    cases second with
    | nil => simp at shapes
    | cons other others =>
      simp only [map_cons, cons.injEq] at shapes
      simp only [map_cons, flatten_cons] at same
      have logWide := firstWide log mem_cons_self
      have otherWide := secondWide other mem_cons_self
      obtain ⟨heads, tails⟩ := append_inj same
        (by rw [canonical_length logWide, canonical_length otherWide, shapes.1])
      rw [log_eq_of_canonical shapes.1 logWide otherWide heads]
      rw [ih (fun log member => firstWide log (mem_cons_of_mem _ member))
        (fun log member => secondWide log (mem_cons_of_mem _ member)) shapes.2 tails]

theorem receipt_preimage_binds (firstMarshalled : marshalNativeReceiptPreimage first = .ok (preimage, logs))
    (secondMarshalled : marshalNativeReceiptPreimage second = .ok (preimage, otherLogs)) :
    first.version = second.version ∧ first.blockNumber = second.blockNumber ∧
      (first.SameSplit second ↔ first.SameHashed second) := by
  obtain ⟨firstWide, firstBytes⟩ := marshalNativeReceiptPreimage_eq_ok firstMarshalled
  obtain ⟨secondWide, secondBytes⟩ := marshalNativeReceiptPreimage_eq_ok secondMarshalled
  have same := firstBytes.symm.trans secondBytes
  obtain ⟨front, number⟩ := append_inj' same (by simp)
  obtain ⟨version, rest⟩ := append_inj front (by simp)
  refine ⟨int32Bytes_injective version, int64Bytes_injective number, ?_⟩
  constructor
  · rintro ⟨gasLength, addressLength, outputLength, priceLength, shapes⟩
    obtain ⟨gasUsed, rest⟩ := append_inj rest gasLength
    obtain ⟨contractAddress, rest⟩ := append_inj rest addressLength
    obtain ⟨status, rest⟩ := append_inj rest (by simp)
    obtain ⟨output, rest⟩ := append_inj rest outputLength
    obtain ⟨price, flat⟩ := append_inj rest priceLength
    exact ⟨gasUsed, contractAddress, int32Bytes_injective status, output, price,
      logs_eq_of_flatten firstWide secondWide shapes flat⟩
  · intro hashed
    exact ⟨by rw [hashed.gasUsed], by rw [hashed.contractAddress], by rw [hashed.output],
      by rw [hashed.price], by rw [hashed.logs]⟩

end Receipts

section Checks

variable {hashes : ChainHashes} {proof : AnchorProof} {index : Nat} {item : ValidatorHistoryBlock}
  {transaction : TransitionTransactionEvidence} {receipt : TransitionReceiptEvidence}

theorem succeedsWith_eq_true {α : Type} {outcome : Outcome α} {test : α → Bool} :
    succeedsWith outcome test = true ↔ ∃ value, outcome = .ok value ∧ test value = true := by
  cases outcome <;> simp [succeedsWith, Except.toOption]

theorem checkHistoryTransaction_eq_ok {position : Nat}
    (checked : checkHistoryTransaction hashes proof index position transaction = .ok ()) :
    marshalNativeTransactionHashPreimage transaction.fields = .ok transaction.rawHashPreimage ∧
      transaction.fields.chainID = proof.chainID ∧ transaction.fields.groupID = proof.groupID ∧
      hashNativeEvidence hashes proof.chainHashAlgorithm transaction.rawHashPreimage =
        .ok transaction.transactionHash := by
  simp only [checkHistoryTransaction, bind_eq_ok, reject_eq_ok, not_not,
    succeedsWith_eq_true, decide_eq_true_eq] at checked
  obtain ⟨_, ⟨⟨preimage, marshalled, rfl⟩, _, _, chain, group, _⟩, digest, ⟨again, marshalledAgain, hashed⟩, rfl⟩ :=
    checked
  cases marshalled.symm.trans marshalledAgain
  exact ⟨marshalled, chain, group, hashed⟩

theorem checkHistoryReceipt_eq_ok {position blockNumber : Nat}
    (checked : checkHistoryReceipt hashes proof index position blockNumber receipt = .ok ()) :
    (∃ logs, marshalNativeReceiptPreimage receipt.fields = .ok (receipt.rawCanonicalReceipt, logs)) ∧
      hashNativeEvidence hashes proof.chainHashAlgorithm receipt.rawCanonicalReceipt =
        .ok receipt.receiptHash := by
  simp only [checkHistoryReceipt, bind_eq_ok, reject_eq_ok, not_not,
    succeedsWith_eq_true, decide_eq_true_eq] at checked
  obtain ⟨_, ⟨⟨preimage, marshalled, rfl⟩, _⟩, digest, ⟨again, marshalledAgain, hashed⟩, rfl⟩ := checked
  cases marshalled.symm.trans marshalledAgain
  refine ⟨?_, hashed⟩
  cases outcome : marshalNativeReceiptPreimage receipt.fields with
  | error failure =>
    rw [outcome] at marshalled
    cases marshalled
  | ok pair =>
    obtain ⟨bytes, logs⟩ := pair
    rw [outcome] at marshalled
    cases marshalled
    exact ⟨logs, rfl⟩

theorem checkHistoryEntries_eq_ok {blockNumber position entries}
    (checked : checkHistoryEntries hashes proof index blockNumber position entries = .ok ()) :
    ∀ entry ∈ entries, ∃ place, checkHistoryTransaction hashes proof index place entry.1 = .ok () ∧
      checkHistoryReceipt hashes proof index place blockNumber entry.2 = .ok () := by
  induction entries generalizing position with
  | nil => simp
  | cons entry rest ih =>
    obtain ⟨transaction, receipt⟩ := entry
    simp only [checkHistoryEntries, bind_eq_ok] at checked
    obtain ⟨_, first, _, second, later⟩ := checked
    intro other member
    rcases mem_cons.mp member with same | behind
    · rw [same]
      exact ⟨position, first, second⟩
    · exact ih later other behind

section

variable (valid : validateHistoryBlockStructure hashes proof index item = .ok ())

include valid

theorem validateHistoryBlockStructure_entries :
    item.transactions.length = item.receipts.length ∧
      checkHistoryEntries hashes proof index item.block.blockNumber 0
        (item.transactions.zip item.receipts) = .ok () := by
  simp only [validateHistoryBlockStructure, bind_eq_ok, reject_eq_ok, not_or, not_not] at valid
  obtain ⟨_, _, _, _, _, _, _, _, _, _, _, counts, checked⟩ := valid
  exact ⟨counts.1, checked⟩

theorem validHistory_transaction (member : transaction ∈ item.transactions) :
    ∃ place, checkHistoryTransaction hashes proof index place transaction = .ok () := by
  obtain ⟨counts, checked⟩ := validateHistoryBlockStructure_entries valid
  have zipped : (item.transactions.zip item.receipts).map Prod.fst = item.transactions :=
    map_fst_zip (by omega)
  rw [← zipped] at member
  obtain ⟨entry, present, rfl⟩ := mem_map.mp member
  obtain ⟨place, first, -⟩ := checkHistoryEntries_eq_ok checked entry present
  exact ⟨place, first⟩

theorem validHistory_receipt (member : receipt ∈ item.receipts) :
    ∃ place, checkHistoryReceipt hashes proof index place item.block.blockNumber receipt = .ok () := by
  obtain ⟨counts, checked⟩ := validateHistoryBlockStructure_entries valid
  have zipped : (item.transactions.zip item.receipts).map Prod.snd = item.receipts :=
    map_snd_zip (by omega)
  rw [← zipped] at member
  obtain ⟨entry, present, rfl⟩ := mem_map.mp member
  obtain ⟨place, -, second⟩ := checkHistoryEntries_eq_ok checked entry present
  exact ⟨place, second⟩

end

end Checks

/-- Two blocks of validator histories on one chain and group that pass the structural checks. Where
a transaction of one and a transaction of the other have the same hash, they have the same block
limit, and they are the same transaction exactly if they cut the pre-image at the same places; where
two receipts have the same hash, they have the same version and block number, and they agree in all
that is hashed exactly if they cut the pre-image at the same places. -/
theorem native_hash_binds_same_split {hashes : ChainHashes} {proof : AnchorProof} {firstIndex secondIndex : Nat}
    {first second : ValidatorHistoryBlock}
    (firstValid : validateHistoryBlockStructure hashes proof firstIndex first = .ok ())
    (secondValid : validateHistoryBlockStructure hashes proof secondIndex second = .ok ()) :
    (∀ transaction ∈ first.transactions, ∀ other ∈ second.transactions,
      CollisionFree (hashNativeEvidence hashes proof.chainHashAlgorithm)
        [transaction.rawHashPreimage, other.rawHashPreimage] →
      transaction.transactionHash = other.transactionHash →
      transaction.fields.blockLimit = other.fields.blockLimit ∧
        (transaction.fields.SameSplit other.fields ↔ transaction.fields = other.fields)) ∧
    (∀ receipt ∈ first.receipts, ∀ other ∈ second.receipts,
      CollisionFree (hashNativeEvidence hashes proof.chainHashAlgorithm)
        [receipt.rawCanonicalReceipt, other.rawCanonicalReceipt] →
      receipt.receiptHash = other.receiptHash →
      receipt.fields.version = other.fields.version ∧ receipt.fields.blockNumber = other.fields.blockNumber ∧
        (receipt.fields.SameSplit other.fields ↔ receipt.fields.SameHashed other.fields)) := by
  constructor
  · intro transaction member other otherMember free same
    obtain ⟨_, checked⟩ := validHistory_transaction firstValid member
    obtain ⟨_, otherChecked⟩ := validHistory_transaction secondValid otherMember
    obtain ⟨marshalled, chain, group, hashed⟩ := checkHistoryTransaction_eq_ok checked
    obtain ⟨otherMarshalled, otherChain, otherGroup, otherHashed⟩ := checkHistoryTransaction_eq_ok otherChecked
    have preimages : transaction.rawHashPreimage = other.rawHashPreimage :=
      free _ (by simp) _ (by simp) (by rw [hashed, otherHashed, same])
    rw [← preimages] at otherMarshalled
    exact transaction_preimage_binds marshalled otherMarshalled (chain.trans otherChain.symm)
      (group.trans otherGroup.symm)
  · intro receipt member other otherMember free same
    obtain ⟨_, checked⟩ := validHistory_receipt firstValid member
    obtain ⟨_, otherChecked⟩ := validHistory_receipt secondValid otherMember
    obtain ⟨⟨logs, marshalled⟩, hashed⟩ := checkHistoryReceipt_eq_ok checked
    obtain ⟨⟨otherLogs, otherMarshalled⟩, otherHashed⟩ := checkHistoryReceipt_eq_ok otherChecked
    have preimages : receipt.rawCanonicalReceipt = other.rawCanonicalReceipt :=
      free _ (by simp) _ (by simp) (by rw [hashed, otherHashed, same])
    rw [← preimages] at otherMarshalled
    exact receipt_preimage_binds marshalled otherMarshalled

namespace Sample

def contract : Bytes := List.replicate 20 0xaa

def call : TransitionTransactionEvidence :=
  transaction (utf8 "7") contract (Hex.encode consensusPrecompileAddress ++ addSealerCall 2 3)

def forgery : TransitionTransactionEvidence :=
  transaction (utf8 "7" ++ Hex.encode contract) consensusPrecompileAddress (addSealerCall 2 3)

def called : ValidatorHistoryBlock := historyBlock call

def forged : ValidatorHistoryBlock := historyBlock forgery

def start : ValidatorState := ((validatorStateFromConfig config).toOption).getD ⟨[], ∅, 0⟩

def unchanged : NativeBlockHeaderFields :=
  header 6 (List.replicate 32 1) (List.replicate 32 2) [(1, 4)]

theorem called_valid : validateHistoryBlockStructure primitives.hashes proof 0 called = .ok () := by
  apply toOption_eq_some.mp
  decide +kernel

theorem forged_valid : validateHistoryBlockStructure primitives.hashes proof 0 forged = .ok () := by
  apply toOption_eq_some.mp
  decide +kernel

def after (evidence : ValidatorHistoryBlock) (next : NativeBlockHeaderFields) : Option (List String × UInt64) :=
  (deriveNextValidatorState primitives config start evidence next).toOption.map fun state =>
    (state.ordered.map ValidatorDescriptor.nodeID, state.total)

end Sample

open Sample

/-- One block, one transaction hash, one receipt, and two readings that both pass the checks: a call
that leaves the validators as they are, and a call of the precompile that adds one. -/
theorem transaction_hash_does_not_bind_call :
    validateHistoryBlockStructure Sample.primitives.hashes Sample.proof 0 Sample.called = .ok () ∧
      validateHistoryBlockStructure Sample.primitives.hashes Sample.proof 0 Sample.forged = .ok () ∧
      Sample.called.block = Sample.forged.block ∧ Sample.called.receipts = Sample.forged.receipts ∧
      Sample.called.transactions = [Sample.call] ∧ Sample.forged.transactions = [Sample.forgery] ∧
      Sample.call.transactionHash = Sample.forgery.transactionHash ∧
      Sample.call.fields.toAddress = Sample.contract ∧
      Sample.forgery.fields.toAddress = consensusPrecompileAddress ∧
      Sample.after Sample.called Sample.unchanged = some ([canonicalNodeID (Sample.keyBody 1)], 4) ∧
      Sample.after Sample.forged Sample.nextHeader =
        some ([canonicalNodeID (Sample.keyBody 2), canonicalNodeID (Sample.keyBody 1)], 7) := by
  refine ⟨Sample.called_valid, Sample.forged_valid, ?_⟩
  decide +kernel

theorem native_hash_binds_sample :
    Sample.call.fields.blockLimit = Sample.forgery.fields.blockLimit ∧
      ¬Sample.call.fields.SameSplit Sample.forgery.fields := by
  have preimages : Sample.call.rawHashPreimage = Sample.forgery.rawHashPreimage := by decide +kernel
  have digests : Sample.call.transactionHash = Sample.forgery.transactionHash := by decide +kernel
  have free : CollisionFree (hashNativeEvidence Sample.primitives.hashes Sample.proof.chainHashAlgorithm)
      [Sample.call.rawHashPreimage, Sample.forgery.rawHashPreimage] := by
    intro first firstMember second secondMember _
    simp only [preimages, List.mem_cons, List.not_mem_nil, or_false, or_self] at firstMember secondMember
    rw [firstMember, secondMember]
  obtain ⟨blockLimit, split⟩ := (native_hash_binds_same_split Sample.called_valid Sample.forged_valid).1
    Sample.call (List.mem_singleton_self _) Sample.forgery (List.mem_singleton_self _) free digests
  have different : Sample.call.fields ≠ Sample.forgery.fields := by decide +kernel
  exact ⟨blockLimit, fun same => different (split.mp same)⟩

end TrustDB.FiscoBcos
