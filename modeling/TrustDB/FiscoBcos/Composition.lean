import TrustDB.FiscoBcos.Agreement

/-!
Advancing the checkpoint in the middle of a history. The advanced configuration stores the members
of the running state in the order of the last header; the state rebuilt from them agrees with the
running one, so the rest of the history is verified from it in the same way.
-/

namespace TrustDB.FiscoBcos

open Result List

def Keyed (byNode : ByNode) : Prop :=
  ∀ nodeID validator, byNode.lookup nodeID = some validator → validator.nodeID = nodeID

section

variable {byNode : ByNode} {primitives : ChainPrimitives} {config : TrustConfig} {state next : ValidatorState}

theorem Keyed.insert (keyed : Keyed byNode) {nodeID validator} (own : validator.nodeID = nodeID) :
    Keyed (byNode.insert nodeID validator) := by
  intro other member found
  by_cases same : other = nodeID
  · subst same
    rw [AList.lookup_insert] at found
    exact Option.some.inj found ▸ own
  · rw [AList.lookup_insert_ne same] at found
    exact keyed other member found

theorem Keyed.erase (keyed : Keyed byNode) (nodeID : String) : Keyed (byNode.erase nodeID) := by
  intro other member found
  by_cases same : other = nodeID
  · subst same
    rw [AList.lookup_erase] at found
    cases found
  · rw [AList.lookup_erase_ne same] at found
    exact keyed other member found

theorem Keyed.entries_eq (keyed : Keyed byNode) :
    byNode.entries = byNode.validators.map fun validator => ⟨validator.nodeID, validator⟩ := by
  rw [ByNode.validators, map_map]
  refine (map_id byNode.entries).symm.trans (map_congr_left ?_)
  intro entry member
  change entry = ⟨entry.2.nodeID, entry.2⟩
  rw [keyed entry.1 entry.2 (ByNode.lookup_of_mem member)]

theorem addTrustedValidators_keyed {validators : List ValidatorDescriptor} (keyed : Keyed state.byNode)
    (added : validators.foldlM addTrustedValidator state = .ok next) : Keyed next.byNode := by
  induction validators generalizing state with
  | nil =>
    cases added
    exact keyed
  | cons validator rest ih =>
    simp only [foldlM_cons, bind_eq_ok] at added
    obtain ⟨between, first, later⟩ := added
    simp only [addTrustedValidator, bind_eq_ok, reject_eq_ok, return_eq_ok] at first
    obtain ⟨_, _, _, _, _, _, rfl⟩ := first
    exact ih (keyed.insert rfl) later

theorem validatorStateFromConfig_keyed (trusted : validatorStateFromConfig config = .ok state) :
    Keyed state.byNode := by
  simp only [validatorStateFromConfig, bind_eq_ok, reject_eq_ok, return_eq_ok] at trusted
  obtain ⟨_, _, added, folded, _, _, rfl⟩ := trusted
  exact addTrustedValidators_keyed (fun nodeID validator found => by simp at found) folded

theorem applyOperation_keyed {other op publicKeyBody weight} (keyed : Keyed byNode)
    (applied : applyOperation primitives config byNode op publicKeyBody weight = .ok other) : Keyed other := by
  cases op with
  | addSealer =>
    simp only [applyOperation, bind_eq_ok] at applied
    obtain ⟨_, _, applied⟩ := applied
    cases found : byNode.lookup (canonicalNodeID publicKeyBody) with
    | some validator =>
      simp only [found, return_eq_ok] at applied
      subst applied
      exact keyed.insert (keyed _ validator found)
    | none =>
      simp only [found, bind_eq_ok, return_eq_ok] at applied
      obtain ⟨_, _, _, _, rfl⟩ := applied
      exact keyed.insert rfl
  | addObserver =>
    obtain rfl : byNode.erase (canonicalNodeID publicKeyBody) = other := Except.ok.inj applied
    exact keyed.erase _
  | remove =>
    obtain rfl : byNode.erase (canonicalNodeID publicKeyBody) = other := Except.ok.inj applied
    exact keyed.erase _
  | setWeight =>
    simp only [applyOperation] at applied
    cases found : byNode.lookup (canonicalNodeID publicKeyBody) with
    | some validator =>
      simp only [found, bind_eq_ok, return_eq_ok] at applied
      obtain ⟨_, _, rfl⟩ := applied
      exact keyed.insert (keyed _ validator found)
    | none => simp [found] at applied

theorem applyConsensusMutation_keyed {input} (keyed : Keyed state.byNode)
    (applied : applyConsensusMutation primitives config state input = .ok next) : Keyed next.byNode := by
  simp only [applyConsensusMutation, bind_eq_ok] at applied
  obtain ⟨op, _, ⟨nodeID, weight⟩, _, applied⟩ := applied
  split at applied
  · cases applied
  · simp only [bind_eq_ok, recomputeValidatorTotal, return_eq_ok] at applied
    obtain ⟨_, _, other, mutated, _, _, _, _, rfl⟩ := applied
    exact applyOperation_keyed keyed mutated

theorem applyTransactions_keyed {index entries} (keyed : Keyed state.byNode)
    (applied : applyTransactions primitives config index state entries = .ok next) : Keyed next.byNode := by
  induction entries generalizing index state with
  | nil =>
    cases applied
    exact keyed
  | cons entry rest ih =>
    obtain ⟨transaction, receipt⟩ := entry
    unfold applyTransactions at applied
    split at applied
    · exact ih keyed applied
    · simp only [bind_eq_ok] at applied
      obtain ⟨_, _, applied⟩ := applied
      split at applied
      · exact ih keyed applied
      · simp only [bind_eq_ok, mapError_eq_ok] at applied
        obtain ⟨between, mutated, later⟩ := applied
        exact ih (applyConsensusMutation_keyed keyed mutated) later

theorem stateOrderedByHeader_byNode {header} (ordered : stateOrderedByHeader state header = .ok next) :
    next.byNode = state.byNode ∧ next.total = state.total := by
  simp only [stateOrderedByHeader, bind_eq_ok, reject_eq_ok, return_eq_ok] at ordered
  obtain ⟨_, _, rfl⟩ := ordered
  exact ⟨rfl, rfl⟩

theorem deriveNextValidatorState_keyed {evidence header} (keyed : Keyed state.byNode)
    (derived : deriveNextValidatorState primitives config state evidence header = .ok next) :
    Keyed next.byNode := by
  unfold deriveNextValidatorState at derived
  split at derived
  · rw [(stateOrderedByHeader_byNode derived).1]
    exact keyed
  · simp only [bind_eq_ok] at derived
    obtain ⟨_, _, _, _, between, applied, _, _, ordered⟩ := derived
    rw [(stateOrderedByHeader_byNode ordered).1]
    exact applyTransactions_keyed keyed applied

structure Sound (state : ValidatorState) : Prop where
  exact_ : Exact state
  keyed : Keyed state.byNode

theorem validatorStateFromConfig_sound (trusted : validatorStateFromConfig config = .ok state) : Sound state :=
  ⟨validatorStateFromConfig_exact trusted, validatorStateFromConfig_keyed trusted⟩

theorem verifySuccessor_sound {current block finality} (sound : Sound state)
    (verified : verifySuccessor primitives config state current block finality = .ok next) : Sound next := by
  simp only [verifySuccessor, bind_eq_ok, mapError_eq_ok, return_eq_ok] at verified
  obtain ⟨_, _, between, derived, _, _, _, _, rfl⟩ := verified
  exact ⟨deriveNextValidatorState_exact sound.exact_ derived, deriveNextValidatorState_keyed sound.keyed derived⟩

theorem verifyHistoryFrom_sound {block finality current rest} (sound : Sound state)
    (verified : verifyHistoryFrom primitives config block finality state current rest = .ok next) :
    Sound next := by
  induction rest generalizing state current with
  | nil => exact verifySuccessor_sound sound verified
  | cons item rest ih =>
    simp only [verifyHistoryFrom, bind_eq_ok] at verified
    obtain ⟨between, first, later⟩ := verified
    exact ih (verifySuccessor_sound sound first) later

theorem Sound.agree (sound : Sound state) (other : Sound next) (same : state.ordered = next.ordered) :
    Agree state next := by
  have members : state.byNode.validators.Perm next.byNode.validators :=
    (sound.exact_.ordered.symm.trans (.of_eq same)).trans other.exact_.ordered
  refine ⟨same, ?_, UInt64.toNat_inj.mp ?_⟩
  · rw [sound.keyed.entries_eq, other.keyed.entries_eq]
    exact members.map _
  · rw [sound.exact_.total, other.exact_.total, (members.map ValidatorDescriptor.weight).sum_eq]

end

section

variable {primitives : ChainPrimitives} {params : ModeParameters}

def Canonical (validator : ValidatorDescriptor) : Prop :=
  succeedsWith (canonicalNodeIDForPublicKey validator.publicKey) (· = validator.nodeID) = true ∧
    validator.voteWeight ≠ 0

theorem validateValidator_canonical {validator done}
    (valid : validateValidator primitives validator params = .ok done) :
    Canonical validator ∧ validator.voteWeight ≤ maxVoteWeight := by
  simp only [validateValidator, bind_eq_ok, reject_eq_ok, not_or, not_not, UInt64.not_lt] at valid
  obtain ⟨_, _, _, _, _, ⟨length, head⟩, _, ⟨weight, small⟩, _, _, nodeID⟩ := valid
  refine ⟨⟨?_, weight⟩, small⟩
  have key : canonicalNodeIDForPublicKey validator.publicKey = .ok (canonicalNodeID (validator.publicKey.drop 1)) := by
    rw [canonicalNodeIDForPublicKey, reject_of_not]
    · rfl
    · rintro (long | other)
      · exact long length
      · exact other head
  rw [key]
  exact decide_eq_true nodeID.symm

theorem checkValidators_eq_ok {seen total validators done} (bounded : total ≤ maxVoteWeight)
    (checked : checkValidators primitives params seen total validators = .ok done) :
    (∀ validator ∈ validators, Canonical validator) ∧ (validators.map ValidatorDescriptor.nodeID).Nodup ∧
      (∀ validator ∈ validators, validator.nodeID ∉ seen) ∧
        total.toNat + (validators.map ValidatorDescriptor.weight).sum ≤ maxVoteWeight.toNat := by
  induction validators generalizing seen total with
  | nil => simpa using UInt64.le_iff_toNat_le.mp bounded
  | cons validator rest ih =>
    simp only [checkValidators, bind_eq_ok, reject_eq_ok, UInt64.not_lt] at checked
    obtain ⟨_, valid, _, room, _, fresh, later⟩ := checked
    obtain ⟨canonical, small⟩ := validateValidator_canonical valid
    have sum : (total + validator.voteWeight).toNat = total.toNat + validator.weight ∧
        total.toNat + validator.weight ≤ maxVoteWeight.toNat := by
      have left := UInt64.le_iff_toNat_le.mp room
      rw [UInt64.toNat_sub_of_le _ _ small] at left
      have most := UInt64.le_iff_toNat_le.mp small
      have limit : maxVoteWeight.toNat < 2 ^ 64 := maxVoteWeight.toNat_lt
      rw [UInt64.toNat_add]
      unfold ValidatorDescriptor.weight
      omega
    obtain ⟨canonicals, distinct, unseen, total⟩ :=
      ih (UInt64.le_iff_toNat_le.mpr (by omega)) later
    refine ⟨?_, ?_, ?_, ?_⟩
    · exact forall_mem_cons.mpr ⟨canonical, canonicals⟩
    · rw [map_cons, nodup_cons]
      refine ⟨fun again => ?_, distinct⟩
      obtain ⟨other, member, same⟩ := mem_map.mp again
      exact unseen other member (by simp [same])
    · refine forall_mem_cons.mpr ⟨fresh, fun other member earlier => ?_⟩
      exact unseen other member (mem_cons_of_mem _ earlier)
    · rw [map_cons, sum_cons]
      omega

theorem addTrustedValidators_succeed {state : ValidatorState} {validators : List ValidatorDescriptor}
    (canonical : ∀ validator ∈ validators, Canonical validator)
    (distinct : (validators.map ValidatorDescriptor.nodeID).Nodup)
    (fresh : ∀ validator ∈ validators, validator.nodeID ∉ state.byNode)
    (fits : state.total.toNat + (validators.map ValidatorDescriptor.weight).sum < 2 ^ 64) :
    ∃ next, validators.foldlM addTrustedValidator state = .ok next := by
  induction validators generalizing state with
  | nil => exact ⟨state, rfl⟩
  | cons validator rest ih =>
    rw [map_cons, nodup_cons] at distinct
    rw [map_cons, sum_cons] at fits
    have noCarry : (add64 state.total validator.voteWeight).2 = false := by
      have small : state.total.toNat + validator.voteWeight.toNat < 2 ^ 64 := by
        unfold ValidatorDescriptor.weight at fits
        omega
      simpa [add64] using small
    have sum := add64_toNat noCarry
    have added : addTrustedValidator state validator = .ok { state with
        byNode := state.byNode.insert validator.nodeID validator
        total := (add64 state.total validator.voteWeight).1 } := by
      obtain ⟨nodeID, weight⟩ := canonical validator mem_cons_self
      simp only [addTrustedValidator, bind_eq_ok, reject_eq_ok]
      exact ⟨(), by simp [nodeID, weight], (), fresh validator mem_cons_self, (), by simp [noCarry], rfl⟩
    obtain ⟨next, folded⟩ := @ih ⟨state.ordered, state.byNode.insert validator.nodeID validator,
        (add64 state.total validator.voteWeight).1⟩
      (fun other member => canonical other (mem_cons_of_mem _ member)) distinct.2
      (by
        intro other member known
        rcases (AList.mem_insert _).mp known with same | earlier
        · exact distinct.1 (mem_map.mpr ⟨other, member, same⟩)
        · exact fresh other (mem_cons_of_mem _ member) earlier)
      (by
        change (add64 state.total validator.voteWeight).1.toNat + _ < _
        rw [sum]
        change state.total.toNat + validator.weight + _ < _
        omega)
    exact ⟨next, by rw [foldlM_cons, added, ok_bind, folded]⟩

theorem validatorStateFromConfig_of_valid {net config}
    (valid : validateTrustConfig net primitives config = .ok ()) :
    ∃ state, validatorStateFromConfig config.toTrustConfig = .ok state ∧ state.ordered = config.validators := by
  simp only [validateTrustConfig, bind_eq_ok, reject_eq_ok, not_or, not_not] at valid
  obtain ⟨_, _, _, _, params, _, _, _, _, _, _, _, _, _, _, _, _, _, _, _, _, _, _, _, _, policy, _, _, _,
    ⟨nonempty, _⟩, _, checked, _⟩ := valid
  have zero : (0 : UInt64) ≤ maxVoteWeight := by decide
  obtain ⟨canonical, distinct, -, total⟩ := checkValidators_eq_ok zero checked
  rw [UInt64.toNat_zero, Nat.zero_add] at total
  have limit : maxVoteWeight.toNat < 2 ^ 64 := maxVoteWeight.toNat_lt
  obtain ⟨added, folded⟩ := @addTrustedValidators_succeed
    { ordered := config.validators, byNode := ∅, total := 0 } config.validators canonical distinct
    (by simp) (by rw [UInt64.toNat_zero]; omega)
  obtain ⟨order, -, sum⟩ := addTrustedValidators_eq_ok folded
  rw [UInt64.toNat_zero, Nat.zero_add] at sum
  refine ⟨added, ?_, order⟩
  simp only [validatorStateFromConfig, bind_eq_ok, reject_eq_ok]
  refine ⟨(), not_not.mpr policy, added, folded, (), ?_, rfl⟩
  rintro (none | more)
  · have some : config.validators ≠ [] := fun empty => nonempty (by simp [empty])
    obtain ⟨validator, rest, shape⟩ := exists_cons_of_ne_nil some
    have weight := toNat_pos (canonical validator (by simp [shape])).2
    rw [none, UInt64.toNat_zero, shape, map_cons, sum_cons] at sum
    unfold ValidatorDescriptor.weight at sum
    omega
  · have above := UInt64.lt_iff_toNat_lt.mp more
    omega

end

section

variable {primitives : ChainPrimitives} {config : TrustConfig} {state next : ValidatorState}
  {current : ValidatorHistoryBlock} {rest : List ValidatorHistoryBlock} {block : BlockEvidence}
  {finality : FinalityEvidence}

theorem verifyHistoryFrom_append (item : ValidatorHistoryBlock) (further : List ValidatorHistoryBlock) :
    verifyHistoryFrom primitives config block finality state current (rest ++ item :: further) =
      verifyHistoryFrom primitives config item.block item.finality state current rest >>= fun reached =>
        verifyHistoryFrom primitives config block finality reached item further := by
  induction rest generalizing state current with
  | nil => rfl
  | cons following rest ih =>
    simp only [cons_append, verifyHistoryFrom, bind_assoc]
    exact bind_congr fun between => ih

theorem verifyHistoryFrom_unsigned (other : FinalityEvidence) :
    verifyHistoryFrom primitives config block finality state { current with finality := other } rest =
      verifyHistoryFrom primitives config block finality state current rest := by
  cases rest with
  | nil => rfl
  | cons following rest => rfl

section

variable (validators : List ValidatorDescriptor)

include validators

theorem applyTransactions_validators (index : Nat)
    (entries : List (TransitionTransactionEvidence × TransitionReceiptEvidence)) :
    applyTransactions primitives { config with validators } index state entries =
      applyTransactions primitives config index state entries := by
  have mutation (state : ValidatorState) (input : Bytes) :
      applyConsensusMutation primitives { config with validators } state input =
        applyConsensusMutation primitives config state input := rfl
  induction entries generalizing index state with
  | nil => rfl
  | cons entry rest ih => simp only [applyTransactions, mutation, ih]

theorem signedWeightFrom_validators (blockHash : Bytes) (seen : List String)
    (signedWeight : UInt64) (index : Nat) (commits : List CommitSignature) :
    signedWeightFrom primitives { config with validators } state blockHash seen signedWeight index commits =
      signedWeightFrom primitives config state blockHash seen signedWeight index commits := by
  induction commits generalizing seen signedWeight index with
  | nil => rfl
  | cons commit rest ih => simp only [signedWeightFrom, ih]

theorem verifySuccessor_validators :
    verifySuccessor primitives { config with validators } state current block finality =
      verifySuccessor primitives config state current block finality := by
  simp only [verifySuccessor, deriveNextValidatorState, verifyFinalityAgainstState, applyTransactions_validators,
    signedWeightFrom_validators]

theorem verifyHistoryFrom_validators :
    verifyHistoryFrom primitives { config with validators } block finality state current rest =
      verifyHistoryFrom primitives config block finality state current rest := by
  induction rest generalizing state current with
  | nil => exact verifySuccessor_validators validators
  | cons following rest ih =>
    simp only [verifyHistoryFrom, verifySuccessor_validators]
    exact bind_congr fun between => ih

end

theorem verifySuccessor_header
    (verified : verifySuccessor primitives config state current block finality = .ok next) :
    verifyValidatorHeader next block.fields = .ok () := by
  simp only [verifySuccessor, bind_eq_ok, mapError_eq_ok, return_eq_ok] at verified
  obtain ⟨_, _, between, _, _, header, _, _, rfl⟩ := verified
  exact header

theorem verifyHistoryFrom_header
    (verified : verifyHistoryFrom primitives config block finality state current rest = .ok next) :
    verifyValidatorHeader next block.fields = .ok () := by
  induction rest generalizing state current with
  | nil => exact verifySuccessor_header verified
  | cons following rest ih =>
    simp only [verifyHistoryFrom, bind_eq_ok] at verified
    obtain ⟨between, -, later⟩ := verified
    exact ih later

end

section

variable {library : ProofLibrary} {config advanced : LocalTrustConfig} {evidence : AnchorEvidence}
  {state : ValidatorState}

theorem verifyValidatorHistory_above (verified : verifyValidatorHistory library config evidence = .ok state)
    (nonempty : evidence.validatorHistory ≠ []) :
    validateTrustConfig library.net library.primitives config = .ok () ∧
      config.trustedCheckpoint.blockNumber < evidence.block.blockNumber := by
  simp only [verifyValidatorHistory, bind_eq_ok, reject_eq_ok] at verified
  obtain ⟨canonical, trusted, _, _, _, reached, start, _, verified⟩ := verified
  obtain ⟨valid, rfl⟩ := canonicalTrustConfig_eq_ok.mp trusted
  have checkpoint : (sortTrustConfig config).trustedCheckpoint = config.trustedCheckpoint := rfl
  rw [checkpoint] at reached verified
  refine ⟨valid, ?_⟩
  by_cases same : evidence.block.blockNumber = config.trustedCheckpoint.blockNumber
  · rw [if_pos same] at verified
    simp only [bind_eq_ok, reject_eq_ok, not_or, not_not, length_eq_zero_iff] at verified
    obtain ⟨_, ⟨empty, _⟩, _⟩ := verified
    exact absurd empty nonempty
  · omega

/-- An advanced configuration: the state that the history led to, at the block that it led to. -/
structure Advanced (library : ProofLibrary) (config : LocalTrustConfig) (evidence : AnchorEvidence)
    (advanced : LocalTrustConfig) (start : ValidatorState) (first : ValidatorHistoryBlock)
    (rest : List ValidatorHistoryBlock) (reached : ValidatorState) : Prop where
  valid : validateTrustConfig library.net library.primitives config = .ok ()
  history : LaterHistory library config evidence start first rest
  verified : verifyHistoryFrom library.primitives config.toTrustConfig evidence.block evidence.finality start first
    rest = .ok reached
  advancedValid : validateTrustConfig library.net library.primitives advanced = .ok ()
  policy : advanced.validatorTransitionPolicy = config.validatorTransitionPolicy
  checkpoint : advanced.trustedCheckpoint = { blockNumber := evidence.block.blockNumber
                                              blockHash := evidence.block.blockHash }
  chain : advanced.toTrustConfig = { config.toTrustConfig with validators := reached.ordered }

theorem advanceTrustConfigCheckpoint_eq_ok
    (moved : advanceTrustConfigCheckpoint library config evidence = .ok advanced) :
    ∃ start first rest reached, Advanced library config evidence advanced start first rest reached := by
  simp only [advanceTrustConfigCheckpoint, bind_eq_ok, reject_eq_ok, Nat.not_le,
    canonicalTrustConfig_eq_ok] at moved
  obtain ⟨_, ⟨valid, rfl⟩, _, _, reached, verified, _, higher, digest, _, stored, rfl⟩ := moved
  obtain ⟨start, first, rest, later, run⟩ :=
    (verifyValidatorHistory_later (validateTrustConfig_sort.mpr valid) higher).mp verified
  refine ⟨start, first, rest, reached, valid, ?_, run, validateTrustConfig_sort.mpr stored, rfl, rfl, rfl⟩
  exact ⟨later.policy, later.trusted, later.history, later.limit, later.length, later.number, later.hash,
    later.unsigned, later.header⟩

def AnchorEvidence.startingAt (evidence : AnchorEvidence) (item : ValidatorHistoryBlock)
    (further : List ValidatorHistoryBlock) : AnchorEvidence :=
  { evidence with validatorHistory := { item with finality := { signatures := [] } } :: further }

section

variable {start reached : ValidatorState} {first item : ValidatorHistoryBlock}
  {rest further : List ValidatorHistoryBlock} {target : AnchorEvidence}

section

variable (advancement : Advanced library config evidence advanced start first rest reached)

include advancement

theorem Advanced.resumed :
    ∃ resumed, validatorStateFromConfig advanced.toTrustConfig = .ok resumed ∧ Agree reached resumed := by
  obtain ⟨resumed, trusted, ordered⟩ := validatorStateFromConfig_of_valid advancement.advancedValid
  have sound := verifyHistoryFrom_sound (validatorStateFromConfig_sound advancement.history.trusted)
    advancement.verified
  refine ⟨resumed, trusted, sound.agree (validatorStateFromConfig_sound trusted) ?_⟩
  rw [ordered, advancement.chain]

theorem Advanced.verifies_whole
    (history : target.validatorHistory = evidence.validatorHistory ++ item :: further)
    (limit : target.validatorHistory.length ≤ maxValidatorHistoryBlocks) :
    verifyValidatorHistory library config target = .ok state ↔
      target.block.blockNumber = evidence.block.blockNumber + (further.length + 1) ∧
        verifyHistoryFrom library.primitives config.toTrustConfig target.block target.finality start first
          (rest ++ item :: further) = .ok state := by
  have whole : target.validatorHistory = first :: (rest ++ item :: further) := by
    rw [history, advancement.history.history, cons_append]
  have size := congrArg length history
  rw [length_append, length_cons] at size
  have length := advancement.history.length
  constructor
  · intro verified
    obtain ⟨valid, later⟩ := verifyValidatorHistory_above verified (by simp [whole])
    obtain ⟨other, head, tail, checked, run⟩ := (verifyValidatorHistory_later valid later).mp verified
    obtain ⟨rfl, rfl⟩ : head = first ∧ tail = rest ++ item :: further :=
      cons.inj (checked.history.symm.trans whole)
    cases advancement.history.trusted.symm.trans checked.trusted
    have total := checked.length
    exact ⟨by omega, run⟩
  · rintro ⟨number, run⟩
    refine (verifyValidatorHistory_later advancement.valid (by omega)).mpr ⟨start, first, _, ?_, run⟩
    exact ⟨advancement.history.policy, advancement.history.trusted, whole, limit, by omega,
      advancement.history.number, advancement.history.hash, advancement.history.unsigned,
      advancement.history.header⟩

theorem Advanced.verifies_part {resumed}
    (trusted : validatorStateFromConfig advanced.toTrustConfig = .ok resumed) (agree : Agree reached resumed)
    (same : item.block = evidence.block) (limit : further.length + 1 ≤ maxValidatorHistoryBlocks) :
    verifyValidatorHistory library advanced (target.startingAt item further) = .ok state ↔
      target.block.blockNumber = evidence.block.blockNumber + (further.length + 1) ∧
        verifyHistoryFrom library.primitives advanced.toTrustConfig target.block target.finality resumed
          { item with finality := { signatures := [] } } further = .ok state := by
  have checkpoint : advanced.trustedCheckpoint.blockNumber = evidence.block.blockNumber := by
    rw [advancement.checkpoint]
  constructor
  · intro verified
    obtain ⟨valid, later⟩ := verifyValidatorHistory_above verified (by simp [AnchorEvidence.startingAt])
    obtain ⟨other, head, tail, checked, run⟩ := (verifyValidatorHistory_later valid later).mp verified
    obtain ⟨rfl, rfl⟩ := cons.inj checked.history
    cases trusted.symm.trans checked.trusted
    refine ⟨?_, run⟩
    rw [← checkpoint]
    exact checked.length
  · rintro ⟨number, run⟩
    have later : advanced.trustedCheckpoint.blockNumber < (target.startingAt item further).block.blockNumber := by
      change _ < target.block.blockNumber
      omega
    refine (verifyValidatorHistory_later advancement.advancedValid later).mpr ⟨resumed, _, further, ?_, run⟩
    have header : verifyValidatorHeader resumed item.block.fields = .ok () := by
      rw [same, ← agree.verifyHeader]
      exact verifyHistoryFrom_header advancement.verified
    refine ⟨advancement.policy.trans advancement.history.policy, trusted, rfl, limit, ?_, ?_, ?_, rfl, header⟩
    · rw [checkpoint]
      exact number
    · rw [checkpoint]
      exact congrArg BlockEvidence.blockNumber same
    · rw [advancement.checkpoint]
      exact congrArg BlockEvidence.blockHash same

end

theorem Advanced.similar (advancement : Advanced library config evidence advanced start first rest reached)
    {resumed : ValidatorState} (agree : Agree reached resumed) (same : item.block = evidence.block)
    (signed : item.finality = evidence.finality) (block : BlockEvidence) (finality : FinalityEvidence)
    (further : List ValidatorHistoryBlock) :
    Similar Agree
      (verifyHistoryFrom library.primitives config.toTrustConfig block finality start first
        (rest ++ item :: further))
      (verifyHistoryFrom library.primitives advanced.toTrustConfig block finality resumed
        { item with finality := { signatures := [] } } further) := by
  have upTo : verifyHistoryFrom library.primitives config.toTrustConfig item.block item.finality start first rest =
      .ok reached := by
    rw [same, signed]
    exact advancement.verified
  have onward : verifyHistoryFrom library.primitives advanced.toTrustConfig block finality resumed
      { item with finality := { signatures := [] } } further =
        verifyHistoryFrom library.primitives config.toTrustConfig block finality resumed item further := by
    rw [advancement.chain]
    exact (verifyHistoryFrom_unsigned _).trans (verifyHistoryFrom_validators reached.ordered)
  rw [verifyHistoryFrom_append, upTo, ok_bind, onward]
  exact verifyHistoryFrom_similar agree block finality item further

end

/-- Trust checkpoints compose: whether a history is verified from the original configuration or, from
the block that the checkpoint was advanced to, from the advanced one, is all the same, and the two
verifications return the same members in the same order with the same weights and total. -/
theorem checkpoints_compose {target : AnchorEvidence} {transactions : List TransitionTransactionEvidence}
    {receipts : List TransitionReceiptEvidence} {further : List ValidatorHistoryBlock}
    (moved : advanceTrustConfigCheckpoint library config evidence = .ok advanced)
    (history : target.validatorHistory = evidence.validatorHistory ++
      { block := evidence.block, finality := evidence.finality, transactions, receipts } :: further)
    (limit : target.validatorHistory.length ≤ maxValidatorHistoryBlocks) :
    let part := target.startingAt
      { block := evidence.block, finality := evidence.finality, transactions, receipts } further
    ((∃ state, verifyValidatorHistory library config target = .ok state) ↔
      ∃ state, verifyValidatorHistory library advanced part = .ok state) ∧
    ∀ state other, verifyValidatorHistory library config target = .ok state →
      verifyValidatorHistory library advanced part = .ok other → Agree state other := by
  intro part
  obtain ⟨start, first, rest, reached, advancement⟩ := advanceTrustConfigCheckpoint_eq_ok moved
  obtain ⟨resumed, trusted, agree⟩ := advancement.resumed
  have similar := @Advanced.similar _ _ _ _ _ _ _ ⟨evidence.block, evidence.finality, transactions, receipts⟩ _
    advancement _ agree rfl rfl target.block target.finality further
  have shortEnough : further.length + 1 ≤ maxValidatorHistoryBlocks := by
    rw [history, length_append, length_cons] at limit
    omega
  have whole (state : ValidatorState) : verifyValidatorHistory library config target = .ok state ↔ _ :=
    advancement.verifies_whole history limit
  have tail (state : ValidatorState) : verifyValidatorHistory library advanced part = .ok state ↔ _ :=
    advancement.verifies_part trusted agree rfl shortEnough
  refine ⟨⟨?_, ?_⟩, ?_⟩
  · rintro ⟨state, verified⟩
    obtain ⟨number, run⟩ := (whole state).mp verified
    obtain ⟨other, resumedRun, -⟩ := similar.forward run
    exact ⟨other, (tail other).mpr ⟨number, resumedRun⟩⟩
  · rintro ⟨other, verified⟩
    obtain ⟨number, run⟩ := (tail other).mp verified
    obtain ⟨state, wholeRun, -⟩ := similar.backward run
    exact ⟨state, (whole state).mpr ⟨number, wholeRun⟩⟩
  · intro state other verified otherVerified
    obtain ⟨image, reachedRun, agreed⟩ := similar.forward ((whole state).mp verified).2
    obtain rfl : image = other := Except.ok.inj (reachedRun.symm.trans ((tail other).mp otherVerified).2)
    exact agreed

end

namespace Sample

def net : NetLibrary where
  parseURL := fun _ => none
  splitHostPort := fun _ => some ("node", "20200")
  atoi := fun _ => some 20200
  parseAddr := fun _ => none
  joinHostPort := fun host port => host ++ ":" ++ port
  toLower := fun text => text

def library : ProofLibrary where
  primitives := primitives
  hashes := .sample
  net := net
  marshalTrustConfig := fun config => .ok (utf8 config.chainID)
  marshalValidatorSet := fun policy _ _ => .ok (utf8 policy)
  marshalChainContext := fun context => .ok context.validatorSetDigest
  validateAnchored := fun _ => .ok ()

def contractBinding : ContractBinding where
  address := replicate 20 7
  codeHash := replicate 32 8
  protocolVersion := trustDBAnchorV1ProtocolVersion
  eventSignature := trustDBAnchorV1EventSignature

def child (parent : BlockEvidence) (number : Int64) (stateRoot : UInt8) (sealers : List (UInt8 × Int64)) :
    BlockEvidence :=
  block { header number (replicate 32 1) (replicate 32 2) sealers with
    parentInfo := [{ blockNumber := number - 1, blockHash := parent.blockHash }]
    stateRoot := replicate 32 stateRoot }

def localConfig (checkpoint : BlockEvidence) : LocalTrustConfig := { config with
  schemaVersion := schemaTrustConfig
  protocolHashAlgorithm := "sha256"
  chainSignatureAlgorithm := "ecdsa-secp256k1"
  chainID := "chain0"
  groupID := "group0"
  genesisHash := replicate 32 6
  trustedCheckpoint := { blockNumber := checkpoint.blockNumber, blockHash := checkpoint.blockHash }
  checkpointGeneration := 1
  previousConfigDigest := []
  contract := contractBinding
  endpoints := ["node:20200"]
  readQuorum := 1
  accountProvider := {
    provider := "local", keyID := "key", keyReference := "file", algorithm := "ecdsa-secp256k1" }
  certificates := {
    transportMode := "tls"
    trustedCAReferences := ["ca"]
    trustedCACertificateHashes := [replicate 32 5]
    pinnedPeerCertificateHashes := []
    clientSigningCertificateRef := "client"
    clientSigningKeyRef := "client-key"
    clientEncryptionCertificateRef := ""
    clientEncryptionKeyRef := "" }
  validatorTransitionPolicy := validatorPolicyTransitions }

def anchorEvidence (checkpoint block : BlockEvidence) (finality : FinalityEvidence)
    (validatorHistory : List ValidatorHistoryBlock) : AnchorEvidence where
  schemaVersion := schemaAnchorProof
  formatVersion := proofVersion
  cryptoMode := .standard
  protocolHashAlgorithm := "sha256"
  chainHashAlgorithm := hashKeccak256
  chainSignatureAlgorithm := "ecdsa-secp256k1"
  chainID := "chain0"
  groupID := "group0"
  genesisHash := replicate 32 6
  trustedCheckpoint := { blockNumber := checkpoint.blockNumber, blockHash := checkpoint.blockHash }
  chainContextID := ((chainContextID library.toTrustLibrary (localConfig checkpoint)).toOption).getD []
  contract := contractBinding
  anchored := []
  block := block
  finality := finality
  validatorHistory := validatorHistory

def checkpointBlock : BlockEvidence := block (header 5 (replicate 32 1) (replicate 32 2) [(1, 4)])

def silent (block : BlockEvidence) (finality : FinalityEvidence) : ValidatorHistoryBlock where
  block := block
  finality := finality
  transactions := []
  receipts := []

def soleCommit : FinalityEvidence := { signatures := [commit 1] }

def sixth : BlockEvidence := child checkpointBlock 6 9 [(1, 4)]

def seventh : BlockEvidence := child sixth 7 9 [(1, 4)]

def shortEvidence : AnchorEvidence :=
  anchorEvidence checkpointBlock sixth soleCommit [silent checkpointBlock { signatures := [] }]

def longEvidence : AnchorEvidence :=
  anchorEvidence checkpointBlock seventh soleCommit
    [silent checkpointBlock { signatures := [] }, silent sixth soleCommit]

end Sample

open Sample

/-- One block above the checkpoint the trust is advanced; the next block is then verified from there. -/
theorem checkpoints_compose_sample : ∃ advanced state,
    advanceTrustConfigCheckpoint Sample.library (Sample.localConfig Sample.checkpointBlock)
        Sample.shortEvidence = .ok advanced ∧
      verifyValidatorHistory Sample.library advanced
        (Sample.longEvidence.startingAt (Sample.silent Sample.sixth Sample.soleCommit) []) = .ok state := by
  have moves : (advanceTrustConfigCheckpoint Sample.library (Sample.localConfig Sample.checkpointBlock)
      Sample.shortEvidence).toOption.isSome = true := by decide +kernel
  have verifies : (verifyValidatorHistory Sample.library (Sample.localConfig Sample.checkpointBlock)
      Sample.longEvidence).toOption.isSome = true := by decide +kernel
  obtain ⟨advanced, moved⟩ := Option.isSome_iff_exists.mp moves
  obtain ⟨state, verified⟩ := Option.isSome_iff_exists.mp verifies
  rw [toOption_eq_some] at moved verified
  obtain ⟨other, resumed⟩ := (checkpoints_compose moved rfl (by decide)).1.mp ⟨state, verified⟩
  exact ⟨advanced, other, moved, resumed⟩

end TrustDB.FiscoBcos
