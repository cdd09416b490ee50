import TrustDB.FiscoBcos.Validators
import TrustDB.Quorum

/-!
The weights of the validator set. The stored total is the exact sum of the weights in every
state that the mutations lead to, and two blocks that are both final under one state share
signers of more than the faulty weight.
-/

namespace TrustDB.FiscoBcos

open Result List

def ValidatorDescriptor.weight (validator : ValidatorDescriptor) : Nat := validator.voteWeight.toNat

def ByNode.validators (byNode : ByNode) : List ValidatorDescriptor := byNode.entries.map Sigma.snd

def ByNode.weightOf (byNode : ByNode) (nodeID : String) : Nat :=
  ((byNode.lookup nodeID).map ValidatorDescriptor.weight).getD 0

def FinalityEvidence.signers (finality : FinalityEvidence) : List String :=
  finality.signatures.map CommitSignature.validatorNodeID

structure Exact (state : ValidatorState) : Prop where
  positive : 0 < state.total.toNat
  total : state.total.toNat = (state.byNode.validators.map ValidatorDescriptor.weight).sum
  ordered : state.ordered.Perm state.byNode.validators

section

variable {primitives : ChainPrimitives} {config : TrustConfig} {state next : ValidatorState}
  {byNode : ByNode} {header : NativeBlockHeaderFields} {validators : List ValidatorDescriptor}

theorem add64_toNat {left right} (fits : (add64 left right).2 = false) :
    (add64 left right).1.toNat = left.toNat + right.toNat := by
  simp only [add64, decide_eq_false_iff_not, Nat.not_le] at fits
  rw [add64, UInt64.toNat_add, Nat.mod_eq_of_lt fits]

theorem toNat_pos {total : UInt64} (nonzero : total ≠ 0) : 0 < total.toNat := by
  apply Nat.pos_of_ne_zero
  intro zero
  exact nonzero (UInt64.toNat_inj.mp zero)

section Totals

theorem addTrustedValidator_eq_ok {validator} (added : addTrustedValidator state validator = .ok next) :
    next.ordered = state.ordered ∧ next.byNode.validators = validator :: state.byNode.validators ∧
      next.total.toNat = state.total.toNat + validator.weight := by
  simp only [addTrustedValidator, bind_eq_ok, reject_eq_ok, return_eq_ok] at added
  obtain ⟨_, _, _, fresh, _, fits, rfl⟩ := added
  refine ⟨rfl, ?_, add64_toNat (by simpa using fits)⟩
  simp only [ByNode.validators, AList.entries_insert_of_notMem fresh, map_cons]

theorem addTrustedValidators_eq_ok (added : validators.foldlM addTrustedValidator state = .ok next) :
    next.ordered = state.ordered ∧ next.byNode.validators = validators.reverse ++ state.byNode.validators ∧
      next.total.toNat = state.total.toNat + (validators.map ValidatorDescriptor.weight).sum := by
  induction validators generalizing state with
  | nil =>
    cases added
    simp
  | cons validator rest ih =>
    simp only [foldlM_cons, bind_eq_ok] at added
    obtain ⟨between, first, later⟩ := added
    obtain ⟨sameOrder, more, sum⟩ := addTrustedValidator_eq_ok first
    obtain ⟨order, all, total⟩ := ih later
    refine ⟨order.trans sameOrder, ?_, ?_⟩
    · rw [all, more, reverse_cons, append_assoc]
      rfl
    · rw [total, sum, map_cons, sum_cons]
      omega

theorem validatorStateFromConfig_exact (trusted : validatorStateFromConfig config = .ok state) : Exact state := by
  simp only [validatorStateFromConfig, bind_eq_ok, reject_eq_ok, return_eq_ok] at trusted
  obtain ⟨_, _, added, folded, _, bounds, rfl⟩ := trusted
  obtain ⟨order, all, total⟩ := addTrustedValidators_eq_ok folded
  have listed : added.byNode.validators = config.validators.reverse := by
    rw [all]
    simp [ByNode.validators]
  constructor
  · exact toNat_pos fun zero => bounds (.inl zero)
  · rw [listed, total, map_reverse, sum_reverse]
    simp
  · rw [order, listed]
    exact (reverse_perm _).symm

theorem sumWeights_eq_ok {start total} (summed : sumWeights start validators = .ok total) :
    total.toNat = start.toNat + (validators.map ValidatorDescriptor.weight).sum := by
  induction validators generalizing start with
  | nil =>
    cases summed
    simp
  | cons validator rest ih =>
    simp only [sumWeights, bind_eq_ok, reject_eq_ok] at summed
    obtain ⟨_, fits, later⟩ := summed
    rw [ih later, add64_toNat (by simpa using fits), map_cons, sum_cons]
    change start.toNat + validator.weight + _ = _
    omega

theorem recomputeValidatorTotal_eq_ok (recomputed : recomputeValidatorTotal state = .ok next) :
    0 < next.total.toNat ∧
      next.total.toNat = (next.byNode.validators.map ValidatorDescriptor.weight).sum := by
  simp only [recomputeValidatorTotal, bind_eq_ok, reject_eq_ok, return_eq_ok] at recomputed
  obtain ⟨total, summed, _, nonzero, rfl⟩ := recomputed
  refine ⟨toNat_pos nonzero, ?_⟩
  have sum := sumWeights_eq_ok summed
  rw [UInt64.toNat_zero, Nat.zero_add] at sum
  exact sum

theorem applyConsensusMutation_eq_ok {input}
    (applied : applyConsensusMutation primitives config state input = .ok next) : 0 < next.total.toNat ∧
      next.total.toNat = (next.byNode.validators.map ValidatorDescriptor.weight).sum := by
  simp only [applyConsensusMutation, bind_eq_ok] at applied
  obtain ⟨op, _, ⟨nodeID, weight⟩, _, applied⟩ := applied
  split at applied
  · cases applied
  · simp only [bind_eq_ok] at applied
    obtain ⟨_, _, byNode, _, recomputed⟩ := applied
    exact recomputeValidatorTotal_eq_ok recomputed

theorem applyTransactions_eq_ok {index entries} (positive : 0 < state.total.toNat)
    (total : state.total.toNat = (state.byNode.validators.map ValidatorDescriptor.weight).sum)
    (applied : applyTransactions primitives config index state entries = .ok next) : 0 < next.total.toNat ∧
      next.total.toNat = (next.byNode.validators.map ValidatorDescriptor.weight).sum := by
  induction entries generalizing index state with
  | nil =>
    cases applied
    exact ⟨positive, total⟩
  | cons entry rest ih =>
    obtain ⟨transaction, receipt⟩ := entry
    unfold applyTransactions at applied
    split at applied
    · exact ih positive total applied
    · simp only [bind_eq_ok] at applied
      obtain ⟨_, _, applied⟩ := applied
      split at applied
      · exact ih positive total applied
      · simp only [bind_eq_ok, mapError_eq_ok] at applied
        obtain ⟨between, mutated, later⟩ := applied
        obtain ⟨positive, total⟩ := applyConsensusMutation_eq_ok mutated
        exact ih positive total later

end Totals

section Order

theorem ByNode.lookup_of_mem {entry} (member : entry ∈ byNode.entries) : byNode.lookup entry.1 = some entry.2 :=
  AList.mem_lookup_iff.mpr member

theorem ByNode.map_lookup_keys :
    byNode.keys.map (fun nodeID => (byNode.lookup nodeID).getD default) = byNode.validators := by
  simp only [AList.keys, keys, ByNode.validators, map_map]
  apply map_congr_left
  intro entry member
  simp [ByNode.lookup_of_mem member]

theorem headerMatchesFrom_eq_true {seen pairs} (distinct : seen.Nodup)
    (present : ∀ nodeID ∈ seen, nodeID ∈ byNode.keys) (matched : headerMatchesFrom byNode seen pairs = true) :
    (pairs.map (fun pair => canonicalNodeID pair.1) ++ seen).Perm byNode.keys := by
  induction pairs generalizing seen with
  | nil =>
    simp only [headerMatchesFrom, decide_eq_true_eq] at matched
    rw [map_nil, nil_append]
    refine (subperm_of_subset distinct present).perm_of_length_le ?_
    simp [AList.keys, keys, matched]
  | cons pair rest ih =>
    obtain ⟨rawNodeID, weight⟩ := pair
    simp only [headerMatchesFrom] at matched
    split at matched
    · cases matched
    · split at matched
      · cases matched
      · rename_i validator found
        split at matched
        · cases matched
        · split at matched
          · cases matched
          · rename_i unseen
            have member : canonicalNodeID rawNodeID ∈ byNode.keys :=
              AList.mem_keys.mpr (AList.lookup_isSome.mp (by simp [found]))
            have listed := ih (nodup_cons.mpr ⟨unseen, distinct⟩)
              (by
                intro nodeID given
                rcases mem_cons.mp given with same | earlier
                · rw [same]
                  exact member
                · exact present nodeID earlier) matched
            exact perm_middle.symm.trans listed

theorem headerMatchesValidatorSet_eq_true (matched : headerMatchesValidatorSet state header = true) :
    (header.sealerList.map canonicalNodeID).Perm state.byNode.keys := by
  unfold headerMatchesValidatorSet at matched
  split at matched
  · cases matched
  · rename_i lengths
    have same : header.sealerList.length = header.consensusWeights.length := by omega
    have listed := headerMatchesFrom_eq_true nodup_nil (by simp) matched
    rw [append_nil] at listed
    have sealers : (header.sealerList.zip header.consensusWeights).map (fun pair => canonicalNodeID pair.1) =
        header.sealerList.map canonicalNodeID := by
      have zipped : (header.sealerList.zip header.consensusWeights).map Prod.fst = header.sealerList :=
        map_fst_zip (by omega)
      have unzipped := congrArg (map canonicalNodeID) zipped
      rwa [map_map] at unzipped
    rwa [sealers] at listed

theorem stateOrderedByHeader_exact (positive : 0 < state.total.toNat)
    (total : state.total.toNat = (state.byNode.validators.map ValidatorDescriptor.weight).sum)
    (ordered : stateOrderedByHeader state header = .ok next) : Exact next := by
  simp only [stateOrderedByHeader, bind_eq_ok, reject_eq_ok, not_not, return_eq_ok] at ordered
  obtain ⟨_, matched, rfl⟩ := ordered
  refine ⟨positive, total, ?_⟩
  have listed := (headerMatchesValidatorSet_eq_true matched).map
    fun nodeID => (state.byNode.lookup nodeID).getD default
  rwa [ByNode.map_lookup_keys, map_map] at listed

theorem deriveNextValidatorState_exact {evidence} (exact : Exact state)
    (derived : deriveNextValidatorState primitives config state evidence header = .ok next) : Exact next := by
  unfold deriveNextValidatorState at derived
  split at derived
  · exact stateOrderedByHeader_exact exact.positive exact.total derived
  · simp only [bind_eq_ok] at derived
    obtain ⟨_, _, _, _, between, applied, _, _, ordered⟩ := derived
    obtain ⟨positive, total⟩ := applyTransactions_eq_ok exact.positive exact.total applied
    exact stateOrderedByHeader_exact positive total ordered

end Order

section Signatures

theorem signedWeightFrom_eq_ok {blockHash seen start signed index commits}
    (counted : signedWeightFrom primitives config state blockHash seen start index commits = .ok signed) :
    (commits.map CommitSignature.validatorNodeID).Nodup ∧
      (∀ commit ∈ commits, commit.validatorNodeID ∉ seen ∧ commit.validatorNodeID ∈ state.byNode.keys) ∧
      signed.toNat = start.toNat +
        ((commits.map CommitSignature.validatorNodeID).map state.byNode.weightOf).sum := by
  induction commits generalizing seen start index with
  | nil =>
    cases counted
    simp
  | cons commit rest ih =>
    simp only [signedWeightFrom, bind_eq_ok, reject_eq_ok] at counted
    obtain ⟨_, unseen, counted⟩ := counted
    split at counted
    · cases counted
    · rename_i validator found
      simp only [bind_eq_ok, mapError_eq_ok, reject_eq_ok] at counted
      obtain ⟨_, _, _, fits, later⟩ := counted
      obtain ⟨distinct, members, sum⟩ := ih later
      have member : commit.validatorNodeID ∈ state.byNode.keys :=
        AList.mem_keys.mpr (AList.lookup_isSome.mp (by simp [found]))
      have weight : state.byNode.weightOf commit.validatorNodeID = validator.weight := by
        simp [ByNode.weightOf, found]
      refine ⟨?_, ?_, ?_⟩
      · rw [map_cons]
        refine nodup_cons.mpr ⟨?_, distinct⟩
        intro again
        obtain ⟨other, present, same⟩ := mem_map.mp again
        exact (members other present).1 (by simp [same])
      · intro other present
        rcases mem_cons.mp present with same | later
        · rw [same]
          exact ⟨unseen, member⟩
        · obtain ⟨fresh, known⟩ := members other later
          exact ⟨fun earlier => fresh (mem_cons_of_mem _ earlier), known⟩
      · rw [sum, add64_toNat (by simpa using fits)]
        simp only [map_cons, sum_cons, weight]
        change start.toNat + validator.weight + _ = _
        omega

theorem requiredWeight_toNat {total : UInt64} (positive : 0 < total.toNat) :
    (total - (total - 1) / 3).toNat = Quorum.required total.toNat := by
  have one : (1 : UInt64).toNat = 1 := rfl
  have three : (3 : UInt64).toNat = 3 := rfl
  have less : (total - 1).toNat = total.toNat - 1 :=
    UInt64.toNat_sub_of_le total 1 (UInt64.le_iff_toNat_le.mpr positive)
  have third : ((total - 1) / 3).toNat = (total.toNat - 1) / 3 := by
    rw [UInt64.toNat_div, less, three]
  have smaller : (total - 1) / 3 ≤ total := by
    rw [UInt64.le_iff_toNat_le, third]
    omega
  rw [UInt64.toNat_sub_of_le total _ smaller, third]
  rfl

theorem verifyFinalityAgainstState_eq_ok {block finality} (positive : 0 < state.total.toNat)
    (accepted : verifyFinalityAgainstState primitives config state block finality = .ok ()) :
    finality.signers.Nodup ∧ (∀ nodeID ∈ finality.signers, nodeID ∈ state.byNode.keys) ∧
      Quorum.required state.total.toNat ≤ (finality.signers.map state.byNode.weightOf).sum := by
  simp only [verifyFinalityAgainstState, bind_eq_ok, reject_eq_ok, UInt64.not_lt] at accepted
  obtain ⟨_, _, signed, counted, enough⟩ := accepted
  obtain ⟨distinct, members, sum⟩ := signedWeightFrom_eq_ok counted
  refine ⟨distinct, ?_, ?_⟩
  · intro nodeID member
    obtain ⟨commit, present, rfl⟩ := mem_map.mp member
    exact (members commit present).2
  · rw [UInt64.le_iff_toNat_le, requiredWeight_toNat positive, sum] at enough
    simpa [FinalityEvidence.signers] using enough

theorem ByNode.sum_weightOf_keys :
    (byNode.keys.map byNode.weightOf).sum = (byNode.validators.map ValidatorDescriptor.weight).sum := by
  simp only [AList.keys, keys, ByNode.validators, map_map]
  congr 1
  apply map_congr_left
  intro entry member
  simp [ByNode.weightOf, ByNode.lookup_of_mem member]

theorem signers_overlap {first second : List String} (exact : Exact state)
    (firstDistinct : first.Nodup) (firstKnown : ∀ nodeID ∈ first, nodeID ∈ state.byNode.keys)
    (firstQuorum : Quorum.required state.total.toNat ≤ (first.map state.byNode.weightOf).sum)
    (secondDistinct : second.Nodup) (secondKnown : ∀ nodeID ∈ second, nodeID ∈ state.byNode.keys)
    (secondQuorum : Quorum.required state.total.toNat ≤ (second.map state.byNode.weightOf).sum) :
    (state.total.toNat - 1) / 3 + 1 ≤ ((first.filter (· ∈ second)).map state.byNode.weightOf).sum := by
  have whole : ∑ nodeID ∈ state.byNode.keys.toFinset, state.byNode.weightOf nodeID = state.total.toNat := by
    rw [sum_toFinset _ state.byNode.keys_nodup, ByNode.sum_weightOf_keys, exact.total]
  have shared : (first.filter (· ∈ second)).toFinset = first.toFinset ∩ second.toFinset := by
    ext nodeID
    simp
  have firstIn : first.toFinset ⊆ state.byNode.keys.toFinset := by
    intro nodeID member
    simpa using firstKnown nodeID (by simpa using member)
  have secondIn : second.toFinset ⊆ state.byNode.keys.toFinset := by
    intro nodeID member
    simpa using secondKnown nodeID (by simpa using member)
  rw [← whole, ← sum_toFinset _ firstDistinct] at firstQuorum
  rw [← whole, ← sum_toFinset _ secondDistinct] at secondQuorum
  have overlap := Quorum.faulty_lt_overlap state.byNode.weightOf firstIn secondIn
    (by rw [whole]; exact exact.positive) firstQuorum secondQuorum
  rw [whole, ← shared, sum_toFinset _ (firstDistinct.filter _)] at overlap
  exact overlap

end Signatures

def deriveHistory (primitives : ChainPrimitives) (config : TrustConfig) (start : ValidatorState)
    (history : List (ValidatorHistoryBlock × NativeBlockHeaderFields)) : Outcome ValidatorState :=
  history.foldlM (fun state (evidence, nextHeader) =>
    deriveNextValidatorState primitives config state evidence nextHeader) start

theorem deriveHistory_exact {start history} (exact : Exact start)
    (derived : deriveHistory primitives config start history = .ok state) : Exact state := by
  induction history generalizing start with
  | nil =>
    cases derived
    exact exact
  | cons entry rest ih =>
    simp only [deriveHistory, foldlM_cons, bind_eq_ok] at derived
    obtain ⟨between, first, later⟩ := derived
    exact ih (deriveNextValidatorState_exact exact first) later

end

/-- In every state that histories lead to from a trusted configuration, the stored total is the
sum of the weights as natural numbers, and whatever two blocks the state finalises, the validators
counted for both carry more weight than may be faulty. -/
theorem finality_quorums_overlap {primitives : ChainPrimitives} {config : TrustConfig}
    {start state : ValidatorState} {history : List (ValidatorHistoryBlock × NativeBlockHeaderFields)}
    (trusted : validatorStateFromConfig config = .ok start)
    (derived : deriveHistory primitives config start history = .ok state) :
    state.total.toNat = (state.ordered.map ValidatorDescriptor.weight).sum ∧
      state.total.toNat = (state.byNode.validators.map ValidatorDescriptor.weight).sum ∧
      ∀ firstBlock firstFinality secondBlock secondFinality,
        verifyFinalityAgainstState primitives config state firstBlock firstFinality = .ok () →
        verifyFinalityAgainstState primitives config state secondBlock secondFinality = .ok () →
        (state.total.toNat - 1) / 3 + 1 ≤
          ((firstFinality.signers.filter (· ∈ secondFinality.signers)).map state.byNode.weightOf).sum := by
  have exact := deriveHistory_exact (validatorStateFromConfig_exact trusted) derived
  refine ⟨?_, exact.total, ?_⟩
  · rw [exact.total]
    exact ((exact.ordered.map ValidatorDescriptor.weight).sum_eq).symm
  · intro firstBlock firstFinality secondBlock secondFinality firstAccepted secondAccepted
    obtain ⟨firstDistinct, firstKnown, firstQuorum⟩ :=
      verifyFinalityAgainstState_eq_ok exact.positive firstAccepted
    obtain ⟨secondDistinct, secondKnown, secondQuorum⟩ :=
      verifyFinalityAgainstState_eq_ok exact.positive secondAccepted
    exact signers_overlap exact firstDistinct firstKnown firstQuorum secondDistinct secondKnown secondQuorum

namespace Sample

def chainDigest (factor : UInt8) (data : Bytes) : Digest :=
  .ofBytes ([data.foldl (fun state byte => state * factor + byte + 7) 1,
    data.foldr (fun byte state => state * factor + byte + 5) 2] ++ data.reverse.take 15 ++ data.take 15)

def primitives : ChainPrimitives where
  hashes := { keccak256 := chainDigest 31, sm3 := chainDigest 29 }
  unmarshalPubkey := fun _ => true
  sigToPub := fun _ signature => .ok (0x04 :: List.replicate 64 (signature.getD 63 0))
  newSM2PublicKey := fun _ => .ok ()
  calculateSM2Hash := fun _ blockHash _ => .ok blockHash
  sm2Verify := fun _ _ _ _ => true

def keyBody (name : UInt8) : Bytes := List.replicate 64 name

def validator (name : UInt8) (voteWeight : UInt64) : ValidatorDescriptor where
  nodeID := canonicalNodeID (keyBody name)
  algorithm := "ecdsa-secp256k1"
  publicKeyEncoding := "sec1-uncompressed-65-byte-secp256k1"
  publicKey := 0x04 :: keyBody name
  voteWeight := voteWeight

def config : TrustConfig where
  cryptoMode := .standard
  chainHashAlgorithm := hashKeccak256
  validatorQuorumPolicy := quorumPolicyPBFTV2
  validators := [validator 1 4]
  sm2UserID := ""

def commit (name : UInt8) : CommitSignature where
  validatorNodeID := canonicalNodeID (keyBody name)
  signature := List.replicate 31 0 ++ [1] ++ List.replicate 31 0 ++ [name] ++ [0]

def commits : FinalityEvidence := { signatures := [commit 1, commit 2] }

def word (value : Nat) : Bytes := List.replicate 24 0 ++ Words.encode 8 value

/-- The call `addSealer(nodeID, weight)`. -/
def addSealerCall (name : UInt8) (weight : Nat) : Bytes :=
  ((abiSelectorForMode primitives .standard "addSealer(string,uint256)").toOption.getD []) ++
    word 64 ++ word weight ++ word 128 ++ Hex.encode (keyBody name)

def proof : AnchorProof where
  chainHashAlgorithm := hashKeccak256
  chainID := utf8 "chain0"
  groupID := utf8 "group0"

def transaction (nonce toAddress input : Bytes) : TransitionTransactionEvidence :=
  let fields : NativeTransactionFields := {
    version := 0, chainID := proof.chainID, groupID := proof.groupID, blockLimit := 500, nonce, toAddress
    input, abi := [] }
  let preimage := (marshalNativeTransactionHashPreimage fields).toOption.getD []
  { fields, rawHashPreimage := preimage, transactionHash := (chainDigest 31 preimage).bytes }

def receipt : TransitionReceiptEvidence :=
  let fields : NativeReceiptFields := {
    version := 0, gasUsed := utf8 "21000", contractAddress := [], status := 0, output := List.replicate 32 0
    effectiveGasPrice := none, logs := [], blockNumber := 5 }
  let preimage := ((marshalNativeReceiptPreimage fields).toOption.map Prod.fst).getD []
  { fields, rawCanonicalReceipt := preimage, receiptHash := (chainDigest 31 preimage).bytes }

def header (number : Int64) (transactionsRoot receiptsRoot : Bytes) (sealers : List (UInt8 × Int64)) :
    NativeBlockHeaderFields where
  version := 0
  parentInfo := []
  transactionsRoot := transactionsRoot
  receiptsRoot := receiptsRoot
  stateRoot := List.replicate 32 9
  blockNumber := number
  gasUsed := []
  timestamp := 0
  sealer := 0
  sealerList := sealers.map fun sealer => keyBody sealer.1
  extraData := []
  consensusWeights := sealers.map Prod.snd

def block (fields : NativeBlockHeaderFields) : BlockEvidence :=
  let preimage := (marshalNativeBlockHeaderPreimage fields).toOption.getD []
  { fields, rawCanonicalHeader := preimage, blockHash := (chainDigest 31 preimage).bytes
    blockNumber := fields.blockNumber.toUInt64.toNat }

def historyBlock (entry : TransitionTransactionEvidence) : ValidatorHistoryBlock where
  block := block (header 5 entry.transactionHash receipt.receiptHash [(1, 4)])
  finality := { signatures := [] }
  transactions := [entry]
  receipts := [receipt]

def joined : ValidatorHistoryBlock :=
  historyBlock (transaction (utf8 "7") consensusPrecompileAddress (addSealerCall 2 3))

def nextHeader : NativeBlockHeaderFields :=
  header 6 (List.replicate 32 1) (List.replicate 32 2) [(2, 3), (1, 4)]

def otherHeader : NativeBlockHeaderFields :=
  header 6 (List.replicate 32 3) (List.replicate 32 2) [(2, 3), (1, 4)]

end Sample

open Sample

theorem finality_quorums_overlap_sample : ∃ start state,
    validatorStateFromConfig Sample.config = .ok start ∧
      deriveHistory Sample.primitives Sample.config start [(Sample.joined, Sample.nextHeader)] = .ok state ∧
      state.total = 7 ∧
      (state.total.toNat - 1) / 3 + 1 ≤ ((Sample.commits.signers.filter (· ∈ Sample.commits.signers)).map
        state.byNode.weightOf).sum := by
  have ran : ((validatorStateFromConfig Sample.config).toOption.bind fun start =>
      (deriveHistory Sample.primitives Sample.config start [(Sample.joined, Sample.nextHeader)]).toOption.map
        fun state => (state.total,
          (verifyFinalityAgainstState Sample.primitives Sample.config state (Sample.block Sample.nextHeader)
            Sample.commits).toOption,
          (verifyFinalityAgainstState Sample.primitives Sample.config state (Sample.block Sample.otherHeader)
            Sample.commits).toOption)) = some (7, some (), some ()) := by
    decide +kernel
  obtain ⟨start, trusted, ran⟩ := Option.bind_eq_some_iff.mp ran
  obtain ⟨state, derived, seen⟩ := toOption_map_eq_some.mp ran
  have trusted := toOption_eq_some.mp trusted
  simp only [Prod.mk.injEq, toOption_eq_some] at seen
  exact ⟨start, state, trusted, derived, seen.1,
    (finality_quorums_overlap trusted derived).2.2 _ _ _ _ seen.2.1 seen.2.2⟩

end TrustDB.FiscoBcos
