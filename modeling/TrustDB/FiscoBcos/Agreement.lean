import TrustDB.FiscoBcos.Finality
import TrustDB.FiscoBcos.Transitions

/-!
Validator states up to the layout of the map. A run does not depend on the order in which the
members were entered: from states that agree, every step of the verification fails alike or leads
to states that agree again.
-/

namespace TrustDB.FiscoBcos

open Result

structure Agree (first second : ValidatorState) : Prop where
  ordered : first.ordered = second.ordered
  byNode : first.byNode.entries.Perm second.byNode.entries
  total : first.total = second.total

abbrev SameEntries (first second : ByNode) : Prop := first.entries.Perm second.entries

theorem Agree.lookup {first second} (agree : Agree first second) (nodeID : String) :
    first.byNode.lookup nodeID = second.byNode.lookup nodeID :=
  AList.perm_lookup agree.byNode

section

variable {primitives : ChainPrimitives} {config : TrustConfig} {first second : ValidatorState}

theorem sumWeights_eq (start : UInt64) (validators : List ValidatorDescriptor) :
    sumWeights start validators = if start.toNat + (validators.map ValidatorDescriptor.weight).sum < 2 ^ 64 then
        .ok (UInt64.ofNat (start.toNat + (validators.map ValidatorDescriptor.weight).sum))
      else .error (.text "validator weight sum overflows") := by
  induction validators generalizing start with
  | nil => simp [sumWeights, start.toNat_lt]
  | cons validator rest ih =>
    rw [List.map_cons, List.sum_cons]
    change (reject ((add64 start validator.voteWeight).2 = true) _ >>= fun _ =>
      sumWeights (add64 start validator.voteWeight).1 rest) = _
    cases carry : (add64 start validator.voteWeight).2 with
    | true =>
      have wrapped : 2 ^ 64 ≤ start.toNat + validator.weight := by
        simpa [add64, ValidatorDescriptor.weight] using carry
      rw [if_neg (by omega)]
      rfl
    | false =>
      have sum : (add64 start validator.voteWeight).1.toNat = start.toNat + validator.weight := add64_toNat carry
      rw [reject_of_not (by simp), ok_bind, ih, sum, Nat.add_assoc]

theorem sumWeights_perm {start validators others} (same : validators.Perm others) :
    sumWeights start validators = sumWeights start others := by
  rw [sumWeights_eq, sumWeights_eq, (same.map ValidatorDescriptor.weight).sum_eq]

theorem recomputeValidatorTotal_similar {byNode other} (ordered : first.ordered = second.ordered)
    (same : SameEntries byNode other) : Similar Agree (recomputeValidatorTotal { first with byNode })
      (recomputeValidatorTotal { second with byNode := other }) := by
  simp only [recomputeValidatorTotal, sumWeights_perm (same.map Sigma.snd)]
  refine Similar.after fun total => Similar.after fun _ => ?_
  exact .ok ⟨ordered, same, rfl⟩

theorem applyOperation_similar {byNode other} (same : SameEntries byNode other) (op : Operation)
    (publicKeyBody : Bytes) (weight : UInt64) :
    Similar SameEntries (applyOperation primitives config byNode op publicKeyBody weight)
      (applyOperation primitives config other op publicKeyBody weight) := by
  unfold applyOperation
  cases op with
  | addSealer =>
    simp only [AList.perm_lookup same]
    refine Similar.after fun _ => ?_
    cases other.lookup (canonicalNodeID publicKeyBody) with
    | some validator => exact .ok (AList.perm_insert same)
    | none =>
      refine Similar.after fun params => ?_
      refine Similar.after fun _ => ?_
      exact .ok (AList.perm_insert same)
  | addObserver => exact .ok (AList.perm_erase same)
  | remove => exact .ok (AList.perm_erase same)
  | setWeight =>
    simp only [AList.perm_lookup same]
    cases other.lookup (canonicalNodeID publicKeyBody) with
    | some validator => exact Similar.after fun _ => .ok (AList.perm_insert same)
    | none => exact .error _

theorem applyConsensusMutation_similar (agree : Agree first second) (input : Bytes) :
    Similar Agree (applyConsensusMutation primitives config first input)
      (applyConsensusMutation primitives config second input) := by
  unfold applyConsensusMutation
  refine Similar.after fun op => Similar.after fun (nodeID, weight) => ?_
  simp only
  cases Hex.decode (toLower nodeID) with
  | none => exact .error _
  | some publicKeyBody =>
    refine Similar.after fun _ => ?_
    refine (applyOperation_similar agree.byNode op publicKeyBody weight).bind fun byNode other same => ?_
    exact recomputeValidatorTotal_similar agree.ordered same

theorem applyTransactions_similar (agree : Agree first second) (index : Nat)
    (entries : List (TransitionTransactionEvidence × TransitionReceiptEvidence)) :
    Similar Agree (applyTransactions primitives config index first entries)
      (applyTransactions primitives config index second entries) := by
  induction entries generalizing index first second with
  | nil => exact .ok agree
  | cons entry rest ih =>
    obtain ⟨transaction, receipt⟩ := entry
    unfold applyTransactions
    split
    · exact ih agree (index + 1)
    · refine Similar.after fun _ => ?_
      split
      · exact ih agree (index + 1)
      · refine (applyConsensusMutation_similar agree transaction.fields.input).mapError.bind ?_
        exact fun derived other agree => ih agree (index + 1)

theorem headerMatchesFrom_perm {byNode other} (same : SameEntries byNode other) (seen : List String)
    (pairs : List (Bytes × Int64)) :
    headerMatchesFrom byNode seen pairs = headerMatchesFrom other seen pairs := by
  induction pairs generalizing seen with
  | nil => simp only [headerMatchesFrom, same.length_eq]
  | cons pair rest ih =>
    obtain ⟨rawNodeID, weight⟩ := pair
    simp only [headerMatchesFrom, AList.perm_lookup same, ih]

section

variable (agree : Agree first second)

include agree

theorem Agree.headerMatches (header : NativeBlockHeaderFields) :
    headerMatchesValidatorSet first header = headerMatchesValidatorSet second header := by
  simp only [headerMatchesValidatorSet, agree.byNode.length_eq, headerMatchesFrom_perm agree.byNode]

theorem stateOrderedByHeader_similar (header : NativeBlockHeaderFields) :
    Similar Agree (stateOrderedByHeader first header) (stateOrderedByHeader second header) := by
  simp only [stateOrderedByHeader, agree.headerMatches header, agree.lookup]
  exact Similar.after fun _ => .ok ⟨rfl, agree.byNode, agree.total⟩

theorem deriveNextValidatorState_similar (evidence : ValidatorHistoryBlock)
    (nextHeader : NativeBlockHeaderFields) :
    Similar Agree (deriveNextValidatorState primitives config first evidence nextHeader)
      (deriveNextValidatorState primitives config second evidence nextHeader) := by
  simp only [deriveNextValidatorState, agree.headerMatches nextHeader]
  split
  · exact stateOrderedByHeader_similar agree nextHeader
  · refine Similar.after fun _ => Similar.after fun _ => ?_
    refine (applyTransactions_similar agree 0 _).bind fun derived other agree => ?_
    rw [agree.headerMatches nextHeader]
    exact Similar.after fun _ => stateOrderedByHeader_similar agree nextHeader

theorem Agree.signedWeightFrom (blockHash : Bytes) (seen : List String)
    (signedWeight : UInt64) (index : Nat) (commits : List CommitSignature) :
    signedWeightFrom primitives config first blockHash seen signedWeight index commits =
      signedWeightFrom primitives config second blockHash seen signedWeight index commits := by
  induction commits generalizing seen signedWeight index with
  | nil => rfl
  | cons commit rest ih => simp only [FiscoBcos.signedWeightFrom, agree.lookup, ih]

theorem Agree.verifyFinality (block : BlockEvidence) (finality : FinalityEvidence) :
    verifyFinalityAgainstState primitives config first block finality =
      verifyFinalityAgainstState primitives config second block finality := by
  simp only [verifyFinalityAgainstState, agree.signedWeightFrom, agree.total]

theorem Agree.verifyHeader (header : NativeBlockHeaderFields) :
    verifyValidatorHeader first header = verifyValidatorHeader second header := by
  simp only [verifyValidatorHeader, agree.ordered]

theorem verifySuccessor_similar (current : ValidatorHistoryBlock)
    (nextBlock : BlockEvidence) (nextFinality : FinalityEvidence) :
    Similar Agree (verifySuccessor primitives config first current nextBlock nextFinality)
      (verifySuccessor primitives config second current nextBlock nextFinality) := by
  unfold verifySuccessor
  refine Similar.after fun _ => ?_
  refine (deriveNextValidatorState_similar agree current nextBlock.fields).mapError.bind fun state other agree => ?_
  rw [agree.verifyHeader, agree.verifyFinality]
  exact Similar.after fun _ => Similar.after fun _ => .ok agree

theorem verifyHistoryFrom_similar (block : BlockEvidence) (finality : FinalityEvidence)
    (current : ValidatorHistoryBlock) (rest : List ValidatorHistoryBlock) :
    Similar Agree (verifyHistoryFrom primitives config block finality first current rest)
      (verifyHistoryFrom primitives config block finality second current rest) := by
  induction rest generalizing first second current with
  | nil => exact verifySuccessor_similar agree current block finality
  | cons next rest ih =>
    unfold verifyHistoryFrom
    exact (verifySuccessor_similar agree current next.block next.finality).bind fun _ _ agree => ih agree next

end

end

end TrustDB.FiscoBcos
