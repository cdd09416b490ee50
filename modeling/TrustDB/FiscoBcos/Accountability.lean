import TrustDB.FiscoBcos.Binding
import TrustDB.FiscoBcos.Composition
import TrustDB.FiscoBcos.MerklePath
import TrustDB.HashTree.Shape

/-!
Two histories from one configuration. Up to the first block in which they differ they lead through
the same states, where they list the transactions of the blocks that they share alike; there the
validators that signed both blocks carry more weight than may be faulty.
-/

namespace TrustDB.FiscoBcos

open Result List Option HashTree

open HashTree.Paired (Apart above eq_of_map_eq height mem_of_mem_pairUp pairUp)

section Roots

variable {primitives : ChainPrimitives} {hashAlgorithm : String} {first second : List Bytes} {root : Bytes}

def treePreimages (hashes : ChainHashes) (hashAlgorithm : String) (leaves : List Bytes) : List Bytes :=
  (range (height leaves.length)).flatMap fun rounds =>
    (pairUp (above (groupHash hashes hashAlgorithm) rounds leaves)).map flatten

theorem mem_treePreimages {hashes leaves group rounds} (below : rounds < height leaves.length)
    (member : group ∈ pairUp (above (groupHash hashes hashAlgorithm) rounds leaves)) :
    group.flatten ∈ treePreimages hashes hashAlgorithm leaves :=
  mem_flatMap.mpr ⟨rounds, mem_range.mpr below, mem_map_of_mem member⟩

theorem merkleRoot_binds (firstBuilt : buildBCOSMerkleRoot primitives first hashAlgorithm = .ok root)
    (secondBuilt : buildBCOSMerkleRoot primitives second hashAlgorithm = .ok root)
    (free : CollisionFree (nativeDigest primitives.hashes hashAlgorithm)
      (treePreimages primitives.hashes hashAlgorithm first ++ treePreimages primitives.hashes hashAlgorithm second))
    (firstLeaves : ∀ preimage ∈ treePreimages primitives.hashes hashAlgorithm second,
      nativeDigest primitives.hashes hashAlgorithm preimage ∉ first)
    (secondLeaves : ∀ preimage ∈ treePreimages primitives.hashes hashAlgorithm first,
      nativeDigest primitives.hashes hashAlgorithm preimage ∉ second) : first = second := by
  have apart : Apart (groupHash primitives.hashes hashAlgorithm) first second := by
    refine ⟨?_, ?_, ?_⟩
    · intro rounds below others otherBelow group member other otherMember same
      refine flatten_injective
        (fun hash inside => above_isHash (by omega) firstBuilt hash (mem_of_mem_pairUp member inside))
        (fun hash inside => above_isHash (by omega) secondBuilt hash (mem_of_mem_pairUp otherMember inside)) ?_
      exact free _ (mem_append_left _ (mem_treePreimages below member)) _
        (mem_append_right _ (mem_treePreimages otherBelow otherMember)) same
    · exact fun rounds below group member => firstLeaves _ (mem_treePreimages below member)
    · exact fun rounds below group member => secondLeaves _ (mem_treePreimages below member)
  exact apart.leaves_eq (buildBCOSMerkleRoot_eq_ok.mp firstBuilt).1 (buildBCOSMerkleRoot_eq_ok.mp secondBuilt).1
    ((above_of_built firstBuilt).trans (above_of_built secondBuilt).symm)

end Roots

namespace AnchorEvidence

variable (evidence : AnchorEvidence)

def trail : List ValidatorHistoryBlock :=
  evidence.validatorHistory ++
    [{ block := evidence.block, finality := evidence.finality, transactions := [], receipts := [] }]

def upTo (height : Nat) : AnchorEvidence :=
  match evidence.trail[height]? with
  | some item => { evidence with
      block := item.block
      finality := item.finality
      validatorHistory := evidence.validatorHistory.take height }
  | none => evidence

def headers : List NativeBlockHeaderFields := evidence.trail.map fun item => item.block.fields

def transactions : List TransitionTransactionEvidence :=
  evidence.validatorHistory.flatMap ValidatorHistoryBlock.transactions

def receipts : List TransitionReceiptEvidence :=
  evidence.validatorHistory.flatMap ValidatorHistoryBlock.receipts

def entryPreimages : List Bytes :=
  evidence.transactions.map TransitionTransactionEvidence.rawHashPreimage ++
    evidence.receipts.map TransitionReceiptEvidence.rawCanonicalReceipt

def rootPreimages (hashes : ChainHashes) (hashAlgorithm : String) : List Bytes :=
  evidence.validatorHistory.flatMap fun item =>
    treePreimages hashes hashAlgorithm (item.transactions.map TransitionTransactionEvidence.transactionHash) ++
      treePreimages hashes hashAlgorithm (item.receipts.map TransitionReceiptEvidence.receiptHash)

def preimages (hashes : ChainHashes) (hashAlgorithm : String) : List Bytes :=
  evidence.trail.map (fun item => item.block.rawCanonicalHeader) ++ evidence.entryPreimages ++
    evidence.rootPreimages hashes hashAlgorithm

end AnchorEvidence

/-- A collision-free hash and injective encodings, for all that two histories hash and encode. -/
structure SoundEncoding (hashes : ChainHashes) (hashAlgorithm : String) (first second : AnchorEvidence) :
    Prop where
  hash : CollisionFree (nativeDigest hashes hashAlgorithm)
    (first.preimages hashes hashAlgorithm ++ second.preimages hashes hashAlgorithm)
  headers : CollisionFree (fun fields => (marshalNativeBlockHeaderPreimage fields).toOption)
    (first.headers ++ second.headers)
  transactions : CollisionFree (fun fields => (marshalNativeTransactionHashPreimage fields).toOption)
    ((first.transactions ++ second.transactions).map TransitionTransactionEvidence.fields)
  receipts : CollisionFree (fun fields => (marshalNativeReceiptPreimage fields).toOption.map Prod.fst)
    ((first.receipts ++ second.receipts).map TransitionReceiptEvidence.fields)
  kinds : (first.entryPreimages ++ second.entryPreimages).all fun preimage =>
    !(first.rootPreimages hashes hashAlgorithm ++ second.rootPreimages hashes hashAlgorithm).elem preimage

def ListedAlike (first second : AnchorEvidence) : Prop :=
  ∀ (index : Nat) (item other : ValidatorHistoryBlock), first.validatorHistory[index]? = some item →
    second.validatorHistory[index]? = some other → item.block.blockHash = other.block.blockHash →
      (item.transactions = [] ↔ other.transactions = [])

section Encoding

variable {primitives : ChainPrimitives} {hashAlgorithm : String} {first second : AnchorEvidence}
  {item other : ValidatorHistoryBlock} {evidence : AnchorEvidence} {root : Bytes}

structure Bound (hashes : ChainHashes) (hashAlgorithm : String) (block : BlockEvidence) : Prop where
  marshalled : marshalNativeBlockHeaderPreimage block.fields = .ok block.rawCanonicalHeader
  hashed : nativeDigest hashes hashAlgorithm block.rawCanonicalHeader = block.blockHash
  number : block.fields.blockNumber.toUInt64.toNat = block.blockNumber

/-- The entries of a block are paired, and their hashes are those of their fields. -/
structure BoundEntries (hashes : ChainHashes) (hashAlgorithm : String) (item : ValidatorHistoryBlock) : Prop where
  paired : item.transactions.length = item.receipts.length
  transactions : ∀ transaction ∈ item.transactions,
    marshalNativeTransactionHashPreimage transaction.fields = .ok transaction.rawHashPreimage ∧
      nativeDigest hashes hashAlgorithm transaction.rawHashPreimage = transaction.transactionHash
  receipts : ∀ receipt ∈ item.receipts,
    (∃ logs, marshalNativeReceiptPreimage receipt.fields = .ok (receipt.rawCanonicalReceipt, logs)) ∧
      nativeDigest hashes hashAlgorithm receipt.rawCanonicalReceipt = receipt.receiptHash

theorem SoundEncoding.block_eq (encoding : SoundEncoding primitives.hashes hashAlgorithm first second)
    (member : item ∈ first.trail) (otherMember : other ∈ second.trail)
    (bound : Bound primitives.hashes hashAlgorithm item.block)
    (otherBound : Bound primitives.hashes hashAlgorithm other.block)
    (same : item.block.blockHash = other.block.blockHash) : item.block = other.block := by
  have raw : item.block.rawCanonicalHeader = other.block.rawCanonicalHeader := by
    refine encoding.hash _ ?_ _ ?_ (bound.hashed.trans (same.trans otherBound.hashed.symm))
    · exact mem_append_left _ (mem_append_left _ (mem_append_left _ (mem_map_of_mem member)))
    · exact mem_append_right _ (mem_append_left _ (mem_append_left _ (mem_map_of_mem otherMember)))
  have fields : item.block.fields = other.block.fields := by
    refine encoding.headers _ (mem_append_left _ (mem_map_of_mem member)) _
      (mem_append_right _ (mem_map_of_mem otherMember)) ?_
    change (marshalNativeBlockHeaderPreimage item.block.fields).toOption =
      (marshalNativeBlockHeaderPreimage other.block.fields).toOption
    rw [bound.marshalled, otherBound.marshalled, raw]
  have number : item.block.blockNumber = other.block.blockNumber := by
    rw [← bound.number, ← otherBound.number, fields]
  cases left : item.block
  cases right : other.block
  simp_all

theorem mem_transactions {transaction} (member : item ∈ evidence.validatorHistory)
    (inside : transaction ∈ item.transactions) : transaction ∈ evidence.transactions :=
  mem_flatMap.mpr ⟨item, member, inside⟩

theorem mem_receipts {receipt} (member : item ∈ evidence.validatorHistory) (inside : receipt ∈ item.receipts) :
    receipt ∈ evidence.receipts :=
  mem_flatMap.mpr ⟨item, member, inside⟩

theorem entries_hashed {hashes} :
    first.entryPreimages ++ second.entryPreimages ⊆
      first.preimages hashes hashAlgorithm ++ second.preimages hashes hashAlgorithm := by
  intro entry
  simp only [AnchorEvidence.preimages, mem_append]
  tauto

theorem roots_hashed {hashes} :
    first.rootPreimages hashes hashAlgorithm ++ second.rootPreimages hashes hashAlgorithm ⊆
      first.preimages hashes hashAlgorithm ++ second.preimages hashes hashAlgorithm := by
  intro inner
  simp only [AnchorEvidence.preimages, mem_append]
  tauto

structure Entries (hashes : ChainHashes) (hashAlgorithm : String) (evidence : AnchorEvidence) {ε : Type}
    (preimage hash : ε → Bytes) (entries : List ε) : Prop where
  listed : ∀ entry ∈ entries, preimage entry ∈ evidence.entryPreimages
  hashed : ∀ entry ∈ entries, nativeDigest hashes hashAlgorithm (preimage entry) = hash entry
  tree : treePreimages hashes hashAlgorithm (entries.map hash) ⊆ evidence.rootPreimages hashes hashAlgorithm

section

variable {hashes : ChainHashes} (bound : BoundEntries hashes hashAlgorithm item)
  (member : item ∈ evidence.validatorHistory)

include bound member

theorem BoundEntries.ofTransactions : Entries hashes hashAlgorithm evidence
    TransitionTransactionEvidence.rawHashPreimage TransitionTransactionEvidence.transactionHash item.transactions where
  listed := fun _ own => mem_append_left _ (mem_map_of_mem (mem_transactions member own))
  hashed := fun entry own => (bound.transactions entry own).2
  tree := fun _ inside => mem_flatMap.mpr ⟨item, member, mem_append_left _ inside⟩

theorem BoundEntries.ofReceipts : Entries hashes hashAlgorithm evidence
    TransitionReceiptEvidence.rawCanonicalReceipt TransitionReceiptEvidence.receiptHash item.receipts where
  listed := fun _ own => mem_append_right _ (mem_map_of_mem (mem_receipts member own))
  hashed := fun entry own => (bound.receipts entry own).2
  tree := fun _ inside => mem_flatMap.mpr ⟨item, member, mem_append_right _ inside⟩

end

section

variable (encoding : SoundEncoding primitives.hashes hashAlgorithm first second)

include encoding

theorem SoundEncoding.entry_not_inner {entry inner}
    (isEntry : entry ∈ first.entryPreimages ++ second.entryPreimages)
    (isInner : inner ∈ first.rootPreimages primitives.hashes hashAlgorithm ++
      second.rootPreimages primitives.hashes hashAlgorithm) :
    nativeDigest primitives.hashes hashAlgorithm inner ≠ nativeDigest primitives.hashes hashAlgorithm entry := by
  intro same
  have equal := encoding.hash inner (roots_hashed isInner) entry (entries_hashed isEntry) same
  have apart := all_eq_true.mp encoding.kinds entry isEntry
  rw [equal] at isInner
  simp [isInner] at apart

theorem SoundEncoding.entries_eq {ε : Type} {preimage hash : ε → Bytes} {left right : List ε}
    (entries : Entries primitives.hashes hashAlgorithm first preimage hash left)
    (others : Entries primitives.hashes hashAlgorithm second preimage hash right)
    (determined : ∀ entry ∈ left, ∀ other ∈ right, preimage entry = preimage other → hash entry = hash other →
      entry = other)
    (built : buildBCOSMerkleRoot primitives (left.map hash) hashAlgorithm = .ok root)
    (otherBuilt : buildBCOSMerkleRoot primitives (right.map hash) hashAlgorithm = .ok root) : left = right := by
  have hashes : left.map hash = right.map hash := by
    refine merkleRoot_binds built otherBuilt ?_ ?_ ?_
    · refine encoding.hash.mono fun inner inside => roots_hashed ?_
      exact mem_append.mpr ((mem_append.mp inside).imp (@entries.tree inner) (@others.tree inner))
    · intro inner inside again
      obtain ⟨entry, own, same⟩ := mem_map.mp again
      rw [← entries.hashed entry own] at same
      exact encoding.entry_not_inner (mem_append_left _ (entries.listed entry own))
        (mem_append_right _ (others.tree inside)) same.symm
    · intro inner inside again
      obtain ⟨entry, own, same⟩ := mem_map.mp again
      rw [← others.hashed entry own] at same
      exact encoding.entry_not_inner (mem_append_right _ (others.listed entry own))
        (mem_append_left _ (entries.tree inside)) same.symm
  refine eq_of_map_eq (fun entry own other otherOwn same => ?_) hashes
  refine determined entry own other otherOwn (encoding.hash _ ?_ _ ?_ ?_) same
  · exact entries_hashed (mem_append_left _ (entries.listed entry own))
  · exact entries_hashed (mem_append_right _ (others.listed other otherOwn))
  · rw [entries.hashed entry own, others.hashed other otherOwn, same]

variable (member : item ∈ first.validatorHistory) (otherMember : other ∈ second.validatorHistory)
  (bound : BoundEntries primitives.hashes hashAlgorithm item)
  (otherBound : BoundEntries primitives.hashes hashAlgorithm other)

include member otherMember bound otherBound

theorem SoundEncoding.transactions_eq
    (built : buildBCOSMerkleRoot primitives (item.transactions.map TransitionTransactionEvidence.transactionHash)
      hashAlgorithm = .ok root)
    (otherBuilt : buildBCOSMerkleRoot primitives
      (other.transactions.map TransitionTransactionEvidence.transactionHash) hashAlgorithm = .ok root) :
    item.transactions = other.transactions := by
  refine encoding.entries_eq (bound.ofTransactions member) (otherBound.ofTransactions otherMember) ?_ built otherBuilt
  intro left leftOwn right rightOwn raw same
  have fields : left.fields = right.fields := by
    refine encoding.transactions _ (mem_map_of_mem (mem_append_left _ (mem_transactions member leftOwn))) _
      (mem_map_of_mem (mem_append_right _ (mem_transactions otherMember rightOwn))) ?_
    change (marshalNativeTransactionHashPreimage left.fields).toOption =
      (marshalNativeTransactionHashPreimage right.fields).toOption
    rw [(bound.transactions left leftOwn).1, (otherBound.transactions right rightOwn).1, raw]
  cases left
  cases right
  simp_all

theorem SoundEncoding.receipts_eq
    (built : buildBCOSMerkleRoot primitives (item.receipts.map TransitionReceiptEvidence.receiptHash)
      hashAlgorithm = .ok root)
    (otherBuilt : buildBCOSMerkleRoot primitives (other.receipts.map TransitionReceiptEvidence.receiptHash)
      hashAlgorithm = .ok root) :
    item.receipts = other.receipts := by
  refine encoding.entries_eq (bound.ofReceipts member) (otherBound.ofReceipts otherMember) ?_ built otherBuilt
  intro left leftOwn right rightOwn raw same
  obtain ⟨⟨leftLogs, leftMarshalled⟩, -⟩ := bound.receipts left leftOwn
  obtain ⟨⟨rightLogs, rightMarshalled⟩, -⟩ := otherBound.receipts right rightOwn
  have fields : left.fields = right.fields := by
    refine encoding.receipts _ (mem_map_of_mem (mem_append_left _ (mem_receipts member leftOwn))) _
      (mem_map_of_mem (mem_append_right _ (mem_receipts otherMember rightOwn))) ?_
    change (marshalNativeReceiptPreimage left.fields).toOption.map Prod.fst =
      (marshalNativeReceiptPreimage right.fields).toOption.map Prod.fst
    rw [leftMarshalled, rightMarshalled, raw]
    rfl
  cases left
  cases right
  simp_all

end

end Encoding

section Checks

variable {library : ProofLibrary} {evidence : AnchorEvidence} {item : ValidatorHistoryBlock} {done : Unit}

theorem checkBlockEvidence_bound (checked : checkBlockEvidence library evidence = .ok done) :
    Bound library.primitives.hashes evidence.chainHashAlgorithm evidence.block := by
  simp only [checkBlockEvidence, bind_eq_ok, reject_eq_ok, not_not, succeedsWith_eq_true,
    decide_eq_true_eq] at checked
  obtain ⟨_, _, _, ⟨⟨preimage, marshalled, rfl⟩, _, number⟩, digest, ⟨again, marshalledAgain, hashed⟩, rfl⟩ :=
    checked
  cases marshalled.symm.trans marshalledAgain
  exact ⟨marshalled, (hashNativeEvidence_eq_ok.mp hashed).2, number⟩

theorem validateHistoryBlockStructure_bound {hashes proof index}
    (valid : validateHistoryBlockStructure hashes proof index item = .ok ()) :
    Bound hashes proof.chainHashAlgorithm item.block ∧ BoundEntries hashes proof.chainHashAlgorithm item := by
  constructor
  · simp only [validateHistoryBlockStructure, bind_eq_ok, reject_eq_ok, not_not,
      succeedsWith_eq_true, decide_eq_true_eq] at valid
    obtain ⟨_, _, _, ⟨⟨preimage, marshalled, rfl⟩, _, number⟩, _, ⟨digest, ⟨again, marshalledAgain, hashed⟩, rfl⟩, _⟩ :=
      valid
    cases marshalled.symm.trans marshalledAgain
    exact ⟨marshalled, (hashNativeEvidence_eq_ok.mp hashed).2, number⟩
  · refine ⟨(validateHistoryBlockStructure_entries valid).1, ?_, ?_⟩
    · intro transaction member
      obtain ⟨place, checked⟩ := validHistory_transaction valid member
      obtain ⟨marshalled, -, -, hashed⟩ := checkHistoryTransaction_eq_ok checked
      exact ⟨marshalled, (hashNativeEvidence_eq_ok.mp hashed).2⟩
    · intro receipt member
      obtain ⟨place, checked⟩ := validHistory_receipt valid member
      obtain ⟨marshalled, hashed⟩ := checkHistoryReceipt_eq_ok checked
      exact ⟨marshalled, (hashNativeEvidence_eq_ok.mp hashed).2⟩

theorem checkHistoryBlocks_eq_ok {proof index history}
    (checked : checkHistoryBlocks library proof index history = .ok done) (member : item ∈ history) :
    ∃ place, validateHistoryBlockStructure library.primitives.hashes proof place item = .ok () := by
  induction history generalizing index with
  | nil => cases member
  | cons first rest ih =>
    simp only [checkHistoryBlocks, bind_eq_ok] at checked
    obtain ⟨_, valid, later⟩ := checked
    rcases mem_cons.mp member with same | behind
    · rw [same]
      exact ⟨index, valid⟩
    · exact ih later behind

theorem validateProofChainContext_bound {config}
    (fits : validateProofChainContext library evidence config = .ok done) :
    (∀ item ∈ evidence.trail, Bound library.primitives.hashes config.chainHashAlgorithm item.block) ∧
      ∀ item ∈ evidence.validatorHistory,
        BoundEntries library.primitives.hashes config.chainHashAlgorithm item := by
  simp only [validateProofChainContext, validateProofStructure, bind_eq_ok, reject_eq_ok, not_or,
    not_not] at fits
  obtain ⟨_, ⟨_, _, _, _, _, _, _, _, _, _, _, _, _, block, _, _, _, _, _, _, history⟩, _,
    ⟨_, _, sameHash, _⟩, _⟩ := fits
  rw [← sameHash]
  refine ⟨fun item member => ?_, fun item member => ?_⟩
  · rcases mem_append.mp member with earlier | last
    · obtain ⟨place, valid⟩ := checkHistoryBlocks_eq_ok history earlier
      exact (validateHistoryBlockStructure_bound valid).1
    · obtain rfl := mem_singleton.mp last
      exact checkBlockEvidence_bound block
  · obtain ⟨place, valid⟩ := checkHistoryBlocks_eq_ok history member
    exact (validateHistoryBlockStructure_bound valid).2

end Checks

section Trails

variable {primitives : ChainPrimitives} {config : TrustConfig} {state final otherFinal : ValidatorState}
  {current other : ValidatorHistoryBlock} {trail others : List ValidatorHistoryBlock}
  {header : NativeBlockHeaderFields}

def verifyTrail (primitives : ChainPrimitives) (config : TrustConfig) :
    ValidatorState → ValidatorHistoryBlock → List ValidatorHistoryBlock → Outcome ValidatorState
  | state, _, [] => .ok state
  | state, current, next :: rest => do
    let state ← verifySuccessor primitives config state current next.block next.finality
    verifyTrail primitives config state next rest

theorem verifyHistoryFrom_eq_trail (last : ValidatorHistoryBlock) :
    verifyHistoryFrom primitives config last.block last.finality state current trail =
      verifyTrail primitives config state current (trail ++ [last]) := by
  induction trail generalizing state current with
  | nil => exact (bind_pure _).symm
  | cons next rest ih =>
    simp only [verifyHistoryFrom, cons_append, verifyTrail]
    exact bind_congr fun between => ih

theorem verifySuccessor_eq_ok {block finality} :
    verifySuccessor primitives config state current block finality = .ok final ↔
      block.blockNumber = current.block.blockNumber + 1 ∧ hasExactParent block.fields current.block = true ∧
        deriveNextValidatorState primitives config state current block.fields = .ok final ∧
          verifyValidatorHeader final block.fields = .ok () ∧
            verifyFinalityAgainstState primitives config final block finality = .ok () := by
  simp only [verifySuccessor, bind_eq_ok, reject_eq_ok, mapError_eq_ok, return_eq_ok, not_or, not_not]
  constructor
  · rintro ⟨_, ⟨number, parent⟩, between, derived, _, header, _, signed, rfl⟩
    exact ⟨number, parent, derived, header, signed⟩
  · rintro ⟨number, parent, derived, header, signed⟩
    exact ⟨(), ⟨number, parent⟩, final, derived, (), header, (), signed, rfl⟩

theorem verifyTrail_number {index item}
    (verified : verifyTrail primitives config state current trail = .ok final)
    (found : trail[index]? = some item) : item.block.blockNumber = current.block.blockNumber + (index + 1) := by
  induction trail generalizing state current index with
  | nil => simp at found
  | cons next rest ih =>
    simp only [verifyTrail, bind_eq_ok] at verified
    obtain ⟨between, first, later⟩ := verified
    have number := (verifySuccessor_eq_ok.mp first).1
    cases index with
    | zero =>
      obtain rfl : next = item := by simpa using found
      exact number
    | succ index =>
      have more := ih later (by simpa using found)
      omega

structure Matched (primitives : ChainPrimitives) (hashAlgorithm : String) (item other : ValidatorHistoryBlock) :
    Prop where
  block : item.block.blockHash = other.block.blockHash → item.block = other.block
  listed : item.block.blockHash = other.block.blockHash → (item.transactions = [] ↔ other.transactions = [])
  paired : item.transactions.length = item.receipts.length
  otherPaired : other.transactions.length = other.receipts.length
  entries : item.block = other.block → verifyTransitionBlockRoots primitives hashAlgorithm item = .ok () →
    verifyTransitionBlockRoots primitives hashAlgorithm other = .ok () →
      item.transactions = other.transactions ∧ item.receipts = other.receipts

theorem deriveNextValidatorState_roots (listed : current.transactions ≠ [])
    (derived : deriveNextValidatorState primitives config state current header = .ok final) :
    verifyTransitionBlockRoots primitives config.chainHashAlgorithm current = .ok () := by
  unfold deriveNextValidatorState at derived
  split at derived
  · next unchanged => exact absurd unchanged.2.1 listed
  · simp only [bind_eq_ok] at derived
    obtain ⟨_, _, _, verified, _⟩ := derived
    exact verified

theorem Matched.entries_eq (matched : Matched primitives config.chainHashAlgorithm current other)
    (same : current.block = other.block) {otherHeader}
    (derived : deriveNextValidatorState primitives config state current header = .ok final)
    (otherDerived : deriveNextValidatorState primitives config state other otherHeader = .ok otherFinal) :
    current.transactions = other.transactions ∧ current.receipts = other.receipts := by
  have hashes : current.block.blockHash = other.block.blockHash := by rw [same]
  by_cases empty : current.transactions = []
  · have otherEmpty := (matched.listed hashes).mp empty
    have receipts := matched.paired
    have otherReceipts := matched.otherPaired
    rw [empty, length_nil, eq_comm, length_eq_zero_iff] at receipts
    rw [otherEmpty, length_nil, eq_comm, length_eq_zero_iff] at otherReceipts
    rw [empty, otherEmpty, receipts, otherReceipts]
    exact ⟨rfl, rfl⟩
  · have otherListed : other.transactions ≠ [] := fun none => empty ((matched.listed hashes).mpr none)
    exact matched.entries same (deriveNextValidatorState_roots empty derived)
      (deriveNextValidatorState_roots otherListed otherDerived)

theorem deriveNextValidatorState_members {otherHeader}
    (transactions : current.transactions = other.transactions) (receipts : current.receipts = other.receipts)
    (derived : deriveNextValidatorState primitives config state current header = .ok final)
    (otherDerived : deriveNextValidatorState primitives config state other otherHeader = .ok otherFinal) :
    final.byNode = otherFinal.byNode ∧ final.total = otherFinal.total := by
  by_cases empty : other.transactions = []
  · have kept {item : ValidatorHistoryBlock} {header : NativeBlockHeaderFields} {final : ValidatorState}
        (none : item.transactions = [])
        (derived : deriveNextValidatorState primitives config state item header = .ok final) :
        final.byNode = state.byNode ∧ final.total = state.total := by
      unfold deriveNextValidatorState at derived
      split at derived
      · exact stateOrderedByHeader_byNode derived
      · simp [bind_eq_ok, reject_eq_ok, none] at derived
    obtain ⟨members, total⟩ := kept (transactions.trans empty) derived
    obtain ⟨otherMembers, otherTotal⟩ := kept empty otherDerived
    exact ⟨members.trans otherMembers.symm, total.trans otherTotal.symm⟩
  · have listed : current.transactions ≠ [] := transactions ▸ empty
    simp only [deriveNextValidatorState, listed, empty, false_and, and_false, ↓reduceIte, bind_eq_ok]
      at derived otherDerived
    obtain ⟨_, _, _, _, between, applied, _, _, ordered⟩ := derived
    obtain ⟨_, _, _, _, otherBetween, otherApplied, _, _, otherOrdered⟩ := otherDerived
    rw [transactions, receipts] at applied
    cases applied.symm.trans otherApplied
    obtain ⟨members, total⟩ := stateOrderedByHeader_byNode ordered
    obtain ⟨otherMembers, otherTotal⟩ := stateOrderedByHeader_byNode otherOrdered
    exact ⟨members.trans otherMembers.symm, total.trans otherTotal.symm⟩

theorem deriveNextValidatorState_entries (same : current.block = other.block)
    (transactions : current.transactions = other.transactions) (receipts : current.receipts = other.receipts) :
    deriveNextValidatorState primitives config state current header =
      deriveNextValidatorState primitives config state other header := by
  simp only [deriveNextValidatorState, verifyTransitionBlockRoots, same, transactions, receipts]

structure Forks (primitives : ChainPrimitives) (config : TrustConfig) (state : ValidatorState)
    (current other : ValidatorHistoryBlock) (trail others : List ValidatorHistoryBlock) (index : Nat)
    (item otherItem : ValidatorHistoryBlock) (reached otherReached : ValidatorState) : Prop where
  below : (trail.take index).map ValidatorHistoryBlock.block = (others.take index).map ValidatorHistoryBlock.block
  found : trail[index]? = some item
  otherFound : others[index]? = some otherItem
  differ : item.block.blockHash ≠ otherItem.block.blockHash
  verified : verifyTrail primitives config state current (trail.take (index + 1)) = .ok reached
  otherVerified : verifyTrail primitives config state other (others.take (index + 1)) = .ok otherReached
  members : reached.byNode = otherReached.byNode
  total : reached.total = otherReached.total
  signed : verifyFinalityAgainstState primitives config reached item.block item.finality = .ok ()
  otherSigned :
    verifyFinalityAgainstState primitives config otherReached otherItem.block otherItem.finality = .ok ()

theorem same_or_forks (heads : Matched primitives config.chainHashAlgorithm current other)
    (matched : Forall₂ (Matched primitives config.chainHashAlgorithm) trail others)
    (same : current.block = other.block)
    (verified : verifyTrail primitives config state current trail = .ok final)
    (otherVerified : verifyTrail primitives config state other others = .ok otherFinal) :
    (trail.map ValidatorHistoryBlock.block = others.map ValidatorHistoryBlock.block ∧ final = otherFinal) ∨
      ∃ index item otherItem reached otherReached,
        Forks primitives config state current other trail others index item otherItem reached otherReached := by
  induction matched generalizing state current other with
  | nil =>
    left
    exact ⟨rfl, Except.ok.inj (verified.symm.trans otherVerified)⟩
  | @cons next otherNext rest otherRest pair _ ih =>
    simp only [verifyTrail, bind_eq_ok] at verified otherVerified
    obtain ⟨between, first, later⟩ := verified
    obtain ⟨otherBetween, otherFirst, otherLater⟩ := otherVerified
    obtain ⟨-, -, derived, -, signed⟩ := verifySuccessor_eq_ok.mp first
    obtain ⟨-, -, otherDerived, -, otherSigned⟩ := verifySuccessor_eq_ok.mp otherFirst
    obtain ⟨transactions, receipts⟩ := heads.entries_eq same derived otherDerived
    by_cases hashes : next.block.blockHash = otherNext.block.blockHash
    · -- One header: the derived states are equal, and the trails go on together.
      have blocks := pair.block hashes
      rw [deriveNextValidatorState_entries same transactions receipts, blocks] at derived
      cases derived.symm.trans otherDerived
      rcases ih pair blocks later otherLater with ⟨chain, ends⟩ |
        ⟨index, item, otherItem, reached, otherReached, forks⟩
      · left
        exact ⟨by rw [map_cons, map_cons, blocks, chain], ends⟩
      · right
        refine ⟨index + 1, item, otherItem, reached, otherReached, ?_, ?_, ?_, forks.differ, ?_, ?_,
          forks.members, forks.total, forks.signed, forks.otherSigned⟩
        · rw [take_succ_cons, take_succ_cons, map_cons, map_cons, blocks, forks.below]
        · rw [getElem?_cons_succ]
          exact forks.found
        · rw [getElem?_cons_succ]
          exact forks.otherFound
        · rw [take_succ_cons, verifyTrail, first, ok_bind]
          exact forks.verified
        · rw [take_succ_cons, verifyTrail, otherFirst, ok_bind]
          exact forks.otherVerified
    · right
      obtain ⟨members, total⟩ := deriveNextValidatorState_members transactions receipts derived otherDerived
      refine ⟨0, next, otherNext, between, otherBetween, rfl, rfl, rfl, hashes, ?_, ?_, members, total, signed,
        otherSigned⟩
      · simp only [take_succ_cons, take_zero, verifyTrail, first, ok_bind]
      · simp only [take_succ_cons, take_zero, verifyTrail, otherFirst, ok_bind]

theorem verifyTrail_exact (exact_ : Exact state)
    (verified : verifyTrail primitives config state current trail = .ok final) : Exact final := by
  induction trail generalizing state current with
  | nil =>
    cases verified
    exact exact_
  | cons next rest ih =>
    simp only [verifyTrail, bind_eq_ok] at verified
    obtain ⟨between, first, later⟩ := verified
    exact ih (deriveNextValidatorState_exact exact_ (verifySuccessor_eq_ok.mp first).2.2.1) later

theorem verifyFinalityAgainstState_total {block finality} (exact_ : Exact final)
    (members : final.byNode = otherFinal.byNode) (total : final.total = otherFinal.total)
    (signed : verifyFinalityAgainstState primitives config otherFinal block finality = .ok ()) :
    finality.signers.Nodup ∧ (∀ nodeID ∈ finality.signers, nodeID ∈ final.byNode.keys) ∧
      Quorum.required final.total.toNat ≤ (finality.signers.map final.byNode.weightOf).sum := by
  rw [members, total]
  refine verifyFinalityAgainstState_eq_ok ?_ signed
  rw [← total]
  exact exact_.positive

end Trails

section Histories

variable {library : ProofLibrary} {config : LocalTrustConfig} {first second evidence : AnchorEvidence}
  {state other start : ValidatorState} {head item : ValidatorHistoryBlock} {rest : List ValidatorHistoryBlock}

def AnchorEvidence.last (evidence : AnchorEvidence) : ValidatorHistoryBlock where
  block := evidence.block
  finality := evidence.finality
  transactions := []
  receipts := []

theorem SoundEncoding.matched
    (encoding : SoundEncoding library.primitives.hashes config.chainHashAlgorithm first second)
    (fits : validateProofChainContext library first config = .ok ())
    (otherFits : validateProofChainContext library second config = .ok ()) (alike : ListedAlike first second)
    (level : first.validatorHistory.length = second.validatorHistory.length) :
    Forall₂ (Matched library.primitives config.chainHashAlgorithm) first.trail second.trail := by
  obtain ⟨bound, boundEntries⟩ := validateProofChainContext_bound fits
  obtain ⟨otherBound, otherBoundEntries⟩ := validateProofChainContext_bound otherFits
  have blocks (item other : ValidatorHistoryBlock) (member : item ∈ first.trail) (otherMember : other ∈ second.trail) :
      item.block.blockHash = other.block.blockHash → item.block = other.block :=
    encoding.block_eq member otherMember (bound item member) (otherBound other otherMember)
  refine rel_append (forall₂_iff_get.mpr ⟨level, ?_⟩) (.cons ?_ .nil)
  · intro index inside otherInside
    have member := get_mem first.validatorHistory ⟨index, inside⟩
    have otherMember := get_mem second.validatorHistory ⟨index, otherInside⟩
    have entries := boundEntries _ member
    have otherEntries := otherBoundEntries _ otherMember
    refine ⟨blocks _ _ (mem_append_left _ member) (mem_append_left _ otherMember),
      alike index _ _ (getElem?_eq_getElem inside) (getElem?_eq_getElem otherInside), entries.paired,
      otherEntries.paired, ?_⟩
    intro same roots otherRoots
    simp only [verifyTransitionBlockRoots, bind_eq_ok, reject_eq_ok, not_not, succeedsWith_eq_true,
      decide_eq_true_eq] at roots otherRoots
    obtain ⟨_, ⟨_, transactions, rfl⟩, _, receipts, rfl⟩ := roots
    obtain ⟨_, ⟨_, otherTransactions, rfl⟩, _, otherReceipts, rfl⟩ := otherRoots
    rw [← same] at otherTransactions otherReceipts
    exact ⟨encoding.transactions_eq member otherMember entries otherEntries transactions otherTransactions,
      encoding.receipts_eq member otherMember entries otherEntries receipts otherReceipts⟩
  · exact ⟨blocks first.last second.last (mem_append_right _ (mem_singleton_self _))
      (mem_append_right _ (mem_singleton_self _)), fun _ => Iff.rfl, rfl, rfl, fun _ _ _ => ⟨rfl, rfl⟩⟩

theorem LaterHistory.trail_eq (later : LaterHistory library config evidence start head rest) :
    evidence.trail = head :: (rest ++ [evidence.last]) := by
  unfold AnchorEvidence.trail
  rw [later.history]
  rfl

theorem LaterHistory.upTo (later : LaterHistory library config evidence start head rest)
    (valid : validateTrustConfig library.net library.primitives config = .ok ()) {final reached index}
    (whole : verifyTrail library.primitives config.toTrustConfig start head (rest ++ [evidence.last]) = .ok final)
    (found : (rest ++ [evidence.last])[index]? = some item)
    (verified : verifyTrail library.primitives config.toTrustConfig start head
      ((rest ++ [evidence.last]).take (index + 1)) = .ok reached) :
    verifyValidatorHistory library config (evidence.upTo (index + 1)) = .ok reached ∧
      (evidence.upTo (index + 1)).block = item.block ∧ (evidence.upTo (index + 1)).finality = item.finality := by
  have inside : index < rest.length + 1 := by
    obtain ⟨small, -⟩ := List.getElem?_eq_some_iff.mp found
    simpa using small
  have trail : evidence.trail[index + 1]? = some item := by
    rw [later.trail_eq]
    exact found
  have cut : evidence.upTo (index + 1) = { evidence with
      block := item.block, finality := item.finality, validatorHistory := head :: rest.take index } := by
    unfold AnchorEvidence.upTo
    rw [trail, later.history]
    rfl
  have number := verifyTrail_number whole found
  rw [List.take_add_one, found, List.take_append_of_le_length (by omega), toList_some,
    ← verifyHistoryFrom_eq_trail item] at verified
  rw [cut]
  refine ⟨?_, rfl, rfl⟩
  have limit := later.limit
  rw [later.history, List.length_cons] at limit
  have length := later.length
  have start := later.number
  refine (verifyValidatorHistory_later valid ?_).mpr ⟨_, head, rest.take index, ⟨later.policy, later.trusted, rfl, ?_,
    ?_, later.number, later.hash, later.unsigned, later.header⟩, verified⟩
  · change _ < item.block.blockNumber
    omega
  · change (head :: rest.take index).length ≤ _
    rw [List.length_cons, List.length_take]
    omega
  · change item.block.blockNumber = _ + (head :: rest.take index).length
    rw [List.length_cons, List.length_take]
    omega

/-- The first height, counted from the checkpoint, at which two histories differ. Below it the
blocks are the same, and the two blocks there were accepted under the same members with the same
weights. -/
structure ForkAt (library : ProofLibrary) (config : LocalTrustConfig) (first second : AnchorEvidence)
    (height : Nat) (state other : ValidatorState) : Prop where
  positive : 0 < height
  number : (first.upTo height).block.blockNumber = config.trustedCheckpoint.blockNumber + height
  otherNumber : (second.upTo height).block.blockNumber = config.trustedCheckpoint.blockNumber + height
  below : (first.trail.take height).map ValidatorHistoryBlock.block =
    (second.trail.take height).map ValidatorHistoryBlock.block
  differ : (first.upTo height).block.blockHash ≠ (second.upTo height).block.blockHash
  accepted : verifyValidatorHistory library config (first.upTo height) = .ok state
  otherAccepted : verifyValidatorHistory library config (second.upTo height) = .ok other
  members : state.byNode = other.byNode
  total : state.total = other.total
  distinct : (first.upTo height).finality.signers.Nodup
  known : ∀ nodeID ∈ (first.upTo height).finality.signers, nodeID ∈ state.byNode.keys
  overlap : (state.total.toNat - 1) / 3 + 1 ≤ (((first.upTo height).finality.signers.filter
    (· ∈ (second.upTo height).finality.signers)).map state.byNode.weightOf).sum

section

variable (verified : verifyValidatorHistory library config evidence = .ok state)
include verified

theorem verifyValidatorHistory_checkpoint
    (level : evidence.block.blockNumber = config.trustedCheckpoint.blockNumber) :
    evidence.validatorHistory = [] ∧ evidence.block.blockHash = config.trustedCheckpoint.blockHash ∧
      validatorStateFromConfig config.toTrustConfig = .ok state := by
  simp only [verifyValidatorHistory, bind_eq_ok, reject_eq_ok] at verified
  obtain ⟨canonical, trusted, _, _, _, _, start, started, verified⟩ := verified
  obtain ⟨-, rfl⟩ := canonicalTrustConfig_eq_ok.mp trusted
  have checkpoint : (sortTrustConfig config).trustedCheckpoint = config.trustedCheckpoint := rfl
  rw [checkpoint, if_pos level] at verified
  simp only [bind_eq_ok, reject_eq_ok, not_or, not_not, length_eq_zero_iff, return_eq_ok] at verified
  obtain ⟨_, ⟨empty, hash⟩, _, _, _, _, rfl⟩ := verified
  exact ⟨empty, hash, started⟩

theorem verifyValidatorHistory_reached :
    config.trustedCheckpoint.blockNumber ≤ evidence.block.blockNumber := by
  simp only [verifyValidatorHistory, bind_eq_ok, reject_eq_ok, Nat.not_lt] at verified
  obtain ⟨canonical, trusted, _, _, _, reached, _⟩ := verified
  obtain ⟨-, rfl⟩ := canonicalTrustConfig_eq_ok.mp trusted
  exact reached

end

theorem same_chain_or_fork (valid : validateTrustConfig library.net library.primitives config = .ok ())
    (verified : verifyValidatorHistory library config first = .ok state)
    (otherVerified : verifyValidatorHistory library config second = .ok other)
    (level : first.block.blockNumber = second.block.blockNumber)
    (matched : first.validatorHistory.length = second.validatorHistory.length →
      Forall₂ (Matched library.primitives config.chainHashAlgorithm) first.trail second.trail) :
    (first.trail.map ValidatorHistoryBlock.block = second.trail.map ValidatorHistoryBlock.block ∧ state = other) ∨
      ∃ height reached otherReached, ForkAt library config first second height reached otherReached := by
  rcases Nat.eq_or_lt_of_le (verifyValidatorHistory_reached verified) with atCheckpoint | above
  · obtain ⟨empty, hash, started⟩ := verifyValidatorHistory_checkpoint verified atCheckpoint.symm
    obtain ⟨otherEmpty, otherHash, otherStarted⟩ :=
      verifyValidatorHistory_checkpoint otherVerified (level.symm.trans atCheckpoint.symm)
    have pairs := matched (by rw [empty, otherEmpty])
    simp only [AnchorEvidence.trail, empty, otherEmpty, nil_append, forall₂_cons] at pairs
    left
    refine ⟨?_, Except.ok.inj (started.symm.trans otherStarted)⟩
    simp only [AnchorEvidence.trail, empty, otherEmpty, nil_append, map_cons, map_nil]
    rw [show first.block = second.block from pairs.1.block (hash.trans otherHash.symm)]
  · obtain ⟨start, head, rest, later, run⟩ := (verifyValidatorHistory_later valid above).mp verified
    obtain ⟨otherStart, otherHead, otherRest, otherLater, otherRun⟩ :=
      (verifyValidatorHistory_later valid (level ▸ above)).mp otherVerified
    cases later.trusted.symm.trans otherLater.trusted
    have length := later.length
    have otherLength := otherLater.length
    have pairs := matched (by omega)
    rw [later.trail_eq, otherLater.trail_eq] at pairs ⊢
    obtain ⟨heads, tails⟩ := forall₂_cons.mp pairs
    have same := heads.block (later.hash.trans otherLater.hash.symm)
    have trail := (verifyHistoryFrom_eq_trail first.last).symm.trans run
    have otherTrail := (verifyHistoryFrom_eq_trail second.last).symm.trans otherRun
    rcases same_or_forks heads tails same trail otherTrail with ⟨chain, ends⟩ |
      ⟨index, item, otherItem, reached, otherReached, forks⟩
    · left
      exact ⟨by rw [map_cons, map_cons, same, chain], ends⟩
    · right
      obtain ⟨accepted, block, finality⟩ := later.upTo valid trail forks.found forks.verified
      obtain ⟨otherAccepted, otherBlock, otherFinality⟩ :=
        otherLater.upTo valid otherTrail forks.otherFound forks.otherVerified
      have exact_ := verifyTrail_exact (validatorStateFromConfig_exact later.trusted) forks.verified
      obtain ⟨distinct, known, quorum⟩ := verifyFinalityAgainstState_total exact_ rfl rfl forks.signed
      obtain ⟨otherDistinct, otherKnown, otherQuorum⟩ :=
        verifyFinalityAgainstState_total exact_ forks.members forks.total forks.otherSigned
      refine ⟨index + 1, reached, otherReached, Nat.succ_pos _, ?_, ?_, ?_, ?_, accepted, otherAccepted,
        forks.members, forks.total, ?_, ?_, ?_⟩
      · rw [block, verifyTrail_number trail forks.found, later.number]
      · rw [otherBlock, verifyTrail_number otherTrail forks.otherFound, otherLater.number]
      · rw [later.trail_eq, otherLater.trail_eq, take_succ_cons, take_succ_cons, map_cons, map_cons, same,
          forks.below]
      · rw [block, otherBlock]
        exact forks.differ
      · rw [finality]
        exact distinct
      · rw [finality]
        exact known
      · rw [finality, otherFinality]
        exact signers_overlap exact_ distinct known quorum otherDistinct otherKnown otherQuorum

def ValidatorState.weightWithin (state : ValidatorState) (nodes : List String) : Nat :=
  ((state.byNode.keys.filter (· ∈ nodes)).map state.byNode.weightOf).sum

theorem sum_le_weightWithin {state : ValidatorState} {signers nodes : List String} (distinct : signers.Nodup)
    (known : ∀ nodeID ∈ signers, nodeID ∈ state.byNode.keys) (inside : ∀ nodeID ∈ signers, nodeID ∈ nodes) :
    (signers.map state.byNode.weightOf).sum ≤ state.weightWithin nodes := by
  have subset : signers ⊆ state.byNode.keys.filter (· ∈ nodes) := by
    intro nodeID member
    simpa using ⟨known nodeID member, inside nodeID member⟩
  obtain ⟨kept, same, sublist⟩ := subperm_of_subset distinct subset
  rw [← (same.map state.byNode.weightOf).sum_eq]
  exact (sublist.map _).sum_le_sum fun _ _ => Nat.zero_le _

/-- Forks are accountable, where the blocks that two histories share are listed alike. At the first
height at which they differ, the validators that signed both blocks carry more weight than may be
faulty; with less faulty weight the histories are the same chain and lead to the same state. -/
theorem forks_are_accountable {canonical : LocalTrustConfig}
    (trusted : canonicalTrustConfig library.toTrustLibrary config = .ok canonical)
    (fits : validateProofChainContext library first canonical = .ok ())
    (otherFits : validateProofChainContext library second canonical = .ok ())
    (verified : verifyValidatorHistory library config first = .ok state)
    (otherVerified : verifyValidatorHistory library config second = .ok other)
    (level : first.block.blockNumber = second.block.blockNumber)
    (encoding : SoundEncoding library.primitives.hashes config.chainHashAlgorithm first second)
    (alike : ListedAlike first second) :
    (first.block.blockHash ≠ second.block.blockHash →
      ∃ height reached otherReached, ForkAt library config first second height reached otherReached) ∧
    ∀ byzantine : List String,
      (∀ height reached, verifyValidatorHistory library config (first.upTo height) = .ok reached →
        reached.weightWithin byzantine < (reached.total.toNat - 1) / 3 + 1) →
      (∀ height, (first.upTo height).block.blockHash ≠ (second.upTo height).block.blockHash →
        ∀ nodeID ∈ (first.upTo height).finality.signers, nodeID ∈ (second.upTo height).finality.signers →
          nodeID ∈ byzantine) →
      first.trail.map ValidatorHistoryBlock.block = second.trail.map ValidatorHistoryBlock.block ∧
        state = other := by
  obtain ⟨valid, rfl⟩ := canonicalTrustConfig_eq_ok.mp trusted
  have split := same_chain_or_fork valid verified otherVerified level
    (@SoundEncoding.matched library (sortTrustConfig config) first second encoding fits otherFits alike)
  constructor
  · intro differ
    rcases split with ⟨chain, -⟩ | fork
    · have last := congrArg getLast? chain
      simp only [AnchorEvidence.trail, map_append, map_cons, map_nil,
        getLast?_append, getLast?_singleton, Option.some_or, Option.some.injEq] at last
      exact absurd (congrArg BlockEvidence.blockHash last) differ
    · exact fork
  · intro byzantine few honest
    rcases split with same | ⟨height, reached, otherReached, fork⟩
    · exact same
    · have weight := few height reached fork.accepted
      have bounded := sum_le_weightWithin (fork.distinct.filter (· ∈ (second.upTo height).finality.signers))
        (fun nodeID member => fork.known nodeID (mem_of_mem_filter member))
        (fun nodeID member => honest height fork.differ nodeID (mem_of_mem_filter member)
          (by simpa using (mem_filter.mp member).2))
      have overlap := fork.overlap
      omega

end Histories

namespace Sample

def rival : BlockEvidence := block { sixth.fields with timestamp := 1 }

def rivalEvidence : AnchorEvidence :=
  anchorEvidence checkpointBlock rival soleCommit [silent checkpointBlock { signatures := [] }]

def overtaken : ValidatorHistoryBlock :=
  historyBlock (transaction (utf8 "7") consensusPrecompileAddress (addSealerCall 2 100))

def laterCommit : FinalityEvidence := { signatures := [commit 2] }

def listedEvidence : AnchorEvidence :=
  anchorEvidence overtaken.block (child overtaken.block 6 9 [(2, 100), (1, 4)]) laterCommit [overtaken]

def omittedEvidence : AnchorEvidence :=
  anchorEvidence overtaken.block (child overtaken.block 6 9 [(1, 4)]) soleCommit
    [silent overtaken.block { signatures := [] }]

end Sample

open Sample

/-- The blocks on top of the checkpoint share no signer, and they were accepted under different totals. -/
theorem omitted_transactions_hide_a_fork : ∃ canonical state other,
    canonicalTrustConfig Sample.library.toTrustLibrary (Sample.localConfig Sample.overtaken.block) = .ok canonical ∧
      validateProofChainContext Sample.library Sample.listedEvidence canonical = .ok () ∧
      validateProofChainContext Sample.library Sample.omittedEvidence canonical = .ok () ∧
      verifyValidatorHistory Sample.library (Sample.localConfig Sample.overtaken.block) Sample.listedEvidence =
        .ok state ∧
      verifyValidatorHistory Sample.library (Sample.localConfig Sample.overtaken.block) Sample.omittedEvidence =
        .ok other ∧
      SoundEncoding Sample.library.primitives.hashes (Sample.localConfig Sample.overtaken.block).chainHashAlgorithm
        Sample.listedEvidence Sample.omittedEvidence ∧
      Sample.listedEvidence.block.blockNumber = Sample.omittedEvidence.block.blockNumber ∧
      Sample.listedEvidence.block.blockHash ≠ Sample.omittedEvidence.block.blockHash ∧
      Sample.listedEvidence.validatorHistory.map ValidatorHistoryBlock.block =
        Sample.omittedEvidence.validatorHistory.map ValidatorHistoryBlock.block ∧
      state.total = 104 ∧ other.total = 4 ∧
      Sample.listedEvidence.finality.signers.filter (· ∈ Sample.omittedEvidence.finality.signers) = [] := by
  have ran : ((canonicalTrustConfig Sample.library.toTrustLibrary
      (Sample.localConfig Sample.overtaken.block)).toOption.bind fun canonical =>
        (verifyValidatorHistory Sample.library (Sample.localConfig Sample.overtaken.block)
          Sample.listedEvidence).toOption.bind fun state =>
            (verifyValidatorHistory Sample.library (Sample.localConfig Sample.overtaken.block)
              Sample.omittedEvidence).toOption.map fun other =>
                ((validateProofChainContext Sample.library Sample.listedEvidence canonical).toOption,
                  (validateProofChainContext Sample.library Sample.omittedEvidence canonical).toOption,
                  state.total, other.total)) = some (some (), some (), 104, 4) := by
    decide +kernel
  obtain ⟨canonical, trusted, ran⟩ := Option.bind_eq_some_iff.mp ran
  obtain ⟨state, verified, ran⟩ := Option.bind_eq_some_iff.mp ran
  obtain ⟨other, otherVerified, seen⟩ := toOption_map_eq_some.mp ran
  rw [toOption_eq_some] at trusted verified
  simp only [Prod.mk.injEq, toOption_eq_some] at seen
  obtain ⟨fits, otherFits, total, otherTotal⟩ := seen
  refine ⟨canonical, state, other, trusted, fits, otherFits, verified, otherVerified,
    ⟨by decide +kernel, by decide +kernel, by decide +kernel, by decide +kernel, by decide +kernel⟩,
    by decide +kernel, by decide +kernel, by decide +kernel, total, otherTotal, by decide +kernel⟩

/-- The only validator signed two blocks, and is to blame with all its weight. -/
theorem forks_are_accountable_sample : ∃ height state other,
    ForkAt Sample.library (Sample.localConfig Sample.checkpointBlock) Sample.shortEvidence Sample.rivalEvidence
      height state other := by
  have ran : ((canonicalTrustConfig Sample.library.toTrustLibrary
      (Sample.localConfig Sample.checkpointBlock)).toOption.bind fun canonical =>
        (verifyValidatorHistory Sample.library (Sample.localConfig Sample.checkpointBlock)
          Sample.shortEvidence).toOption.bind fun _ =>
            (verifyValidatorHistory Sample.library (Sample.localConfig Sample.checkpointBlock)
              Sample.rivalEvidence).toOption.map fun _ =>
                ((validateProofChainContext Sample.library Sample.shortEvidence canonical).toOption,
                  (validateProofChainContext Sample.library Sample.rivalEvidence canonical).toOption)) =
      some (some (), some ()) := by
    decide +kernel
  obtain ⟨canonical, trusted, ran⟩ := Option.bind_eq_some_iff.mp ran
  obtain ⟨state, verified, ran⟩ := Option.bind_eq_some_iff.mp ran
  obtain ⟨other, otherVerified, seen⟩ := toOption_map_eq_some.mp ran
  rw [toOption_eq_some] at trusted verified
  simp only [Prod.mk.injEq, toOption_eq_some] at seen
  have encoding : SoundEncoding Sample.library.primitives.hashes
      (Sample.localConfig Sample.checkpointBlock).chainHashAlgorithm Sample.shortEvidence Sample.rivalEvidence :=
    ⟨by decide +kernel, by decide +kernel, by decide +kernel, by decide +kernel, by decide +kernel⟩
  have alike : ListedAlike Sample.shortEvidence Sample.rivalEvidence := by
    intro index item other found otherFound _
    have listed : Sample.shortEvidence.validatorHistory = Sample.rivalEvidence.validatorHistory := rfl
    rw [listed, otherFound, Option.some.injEq] at found
    rw [found]
  exact (forks_are_accountable trusted seen.1 seen.2 verified otherVerified (by decide +kernel) encoding alike).1
    (by decide +kernel)

end TrustDB.FiscoBcos
