import TrustDB.GlobalLog.Reader

/-!
Consistency proofs between two sizes of the log. The service reads them from stored nodes;
the package's own reference computes them from leaf hashes. A verifier that knows the two
sizes and the older root recomputes both roots from such a proof.
-/

namespace TrustDB.GlobalLog

open Result List Option CryptoSuite TrustCrypto Merkle Model HashTree ProofStore

section

variable (hashes : Hashes) (profile : Profile)

/-- The RFC 6962 consistency proof from the first `count` leaves to all of them. -/
def treeConsistency (leaves : List Digest) (count : Nat) : List Digest :=
  (rfcShape leaves.length).consistencyPath (hashNode hashes profile) (leafAt leaves) 0 count true

/-- The RFC 6962 check: both roots, recomputed from the sizes, the older root and the hashes
sent. A hash of the wrong length, one too few or one too many is refused. -/
def recomputeRoots (fromSize toSize : Nat) (rootFrom : Digest) (path : List Bytes) :
    Option (Digest × Digest) :=
  match (rfcShape toSize).consistencyRoots (hashNode hashes profile) Digest.ofBytes? rootFrom
    fromSize true path with
  | some (roots, []) => some roots
  | _ => none

def consistencyHashed (old new : List Digest) (path : List Bytes) : List (Digest × Digest) :=
  (rfcShape old.length).rootPairs (hashNode hashes profile) (leafAt old) 0 ++
    (rfcShape new.length).rootPairs (hashNode hashes profile) (leafAt new) 0 ++
    (rfcShape new.length).consistencyPairs (hashNode hashes profile) Digest.ofBytes?
      (treeRoot hashes profile old) old.length true path

variable {hashes profile}

theorem treeConsistency_take {leaves size} (count : Nat) (positive : 0 < size) (inside : size ≤ leaves.length) :
    treeConsistency hashes profile (leaves.take size) count =
      (rfcShape size).consistencyPath (hashNode hashes profile) (leafAt leaves) 0 count true := by
  rw [treeConsistency, length_take, Nat.min_eq_left inside]
  apply Shape.consistencyPath_congr
  intro position _ upper
  rw [rfcShape_size positive, Nat.zero_add] at upper
  exact leafAt_take upper

theorem recomputeRoots_eq_some {fromSize toSize rootFrom path roots} :
    recomputeRoots hashes profile fromSize toSize rootFrom path = some roots ↔
      (rfcShape toSize).consistencyRoots (hashNode hashes profile) Digest.ofBytes? rootFrom
        fromSize true path = some (roots, []) := by
  unfold recomputeRoots
  split <;> simp_all

theorem recomputeRoots_treeConsistency {leaves : List Digest} {count : Nat} (positive : 0 < count)
    (inside : count ≤ leaves.length) :
    recomputeRoots hashes profile count leaves.length (treeRoot hashes profile (leaves.take count))
        ((treeConsistency hashes profile leaves count).map Digest.bytes) =
      some (treeRoot hashes profile (leaves.take count), treeRoot hashes profile leaves) := by
  have older : treeRoot hashes profile (leaves.take count) =
      ((rfcShape leaves.length).take count).root (hashNode hashes profile) (leafAt leaves) 0 := by
    have sliced := treeRoot_slice hashes profile positive (by omega : 0 + count ≤ leaves.length)
    rwa [drop_zero, rangeRoot, ← rfcShape_take positive inside] at sliced
  have roots := Shape.consistencyRoots_path (hashNode hashes profile) Digest.ofBytes? Digest.bytes
    Digest.ofBytes?_bytes (leafAt leaves) (treeRoot hashes profile (leaves.take count))
    (rfcShape leaves.length) 0 count true [] positive (by rwa [rfcShape_size (by omega)])
    fun _ => older
  rw [append_nil, ← older] at roots
  exact recomputeRoots_eq_some.mpr roots

theorem take_eq_of_recomputeRoots {old new path} (positive : 0 < old.length) (ordered : old.length ≤ new.length)
    (free : CollisionFree (fun pair : Digest × Digest => hashNode hashes profile pair.1 pair.2)
      (consistencyHashed hashes profile old new path))
    (accepted : recomputeRoots hashes profile old.length new.length (treeRoot hashes profile old) path =
      some (treeRoot hashes profile old, treeRoot hashes profile new)) : new.take old.length = old := by
  have size : (rfcShape new.length).size = new.length := rfcShape_size (by omega)
  rw [recomputeRoots_eq_some] at accepted
  have shape := rfcShape_take positive ordered
  have agree := Shape.consistencyRoots_sound (leafAt old) (leafAt new) (rfcShape new.length) 0
    old.length true path [] positive (by rwa [size]) (by rw [shape]; exact free)
    (by rw [shape]; exact accepted)
  apply ext_getElem
  · rw [length_take]
    omega
  · intro index inTake inOld
    have same := agree index (Nat.zero_le _) (by omega)
    simp only [leafAt, getD_eq_getElem?_getD, getElem?_eq_getElem inOld,
      getElem?_eq_getElem (by omega : index < new.length), getD_some] at same
    rw [getElem_take, same]

theorem subproof_eq {digests provider} (same : HashesAsDefault hashes provider) :
    ∀ fuel start width count complete, 0 < count → count ≤ width → width ≤ fuel →
      start + width ≤ digests.length →
      subproof hashes fuel (((digests.map Digest.bytes).drop start).take width) count complete =
        .ok (((rfcShape width).consistencyPath (hashNode hashes (.ofProvider provider))
          (leafAt digests) start count complete).map Digest.bytes) := by
  intro fuel
  induction fuel with
  | zero => intro start width count complete positive within bound; omega
  | succ fuel ih =>
    intro start width count complete positive within bound inside
    have length : (((digests.map Digest.bytes).drop start).take width).length = width := by
      simp only [length_take, length_drop, length_map]
      omega
    rw [subproof, length]
    by_cases whole : count = width
    · subst whole
      have shared := Shape.consistencyPath_size (hashNode hashes (.ofProvider provider))
        (leafAt digests) (rfcShape count) start complete
      rw [rfcShape_size positive] at shared
      rw [if_pos rfl, shared, rootFromLeaves_slice same positive inside]
      cases complete <;> simp [rangeRoot]
    · have large : 2 ≤ width := by omega
      have below := split_lt large
      have splitPos := split_pos width
      have inner : ¬count = split width + (width - split width) := by omega
      have left : (((digests.map Digest.bytes).drop start).take width).take (split width) =
          ((digests.map Digest.bytes).drop start).take (split width) := by
        rw [take_take, Nat.min_eq_left (by omega)]
      have right : (((digests.map Digest.bytes).drop start).take width).drop (split width) =
          ((digests.map Digest.bytes).drop (start + split width)).take (width - split width) := by
        rw [drop_take, drop_drop]
      simp only [if_neg whole, Merkle.largestPowerOfTwoLessThan_eq_split large, left, right,
        rfcShape_split large, Shape.consistencyPath, rfcShape_size splitPos,
        rfcShape_size (by omega : 0 < width - split width), if_neg inner]
      by_cases goesLeft : count ≤ split width
      · have path := ih start (split width) count complete positive goesLeft (by omega) (by omega)
        have sibling := rootFromLeaves_slice same (by omega : 0 < width - split width)
          (by omega : start + split width + (width - split width) ≤ digests.length)
        rw [if_pos goesLeft, if_pos goesLeft, path, ok_bind, sibling]
        simp [rangeRoot]
      · have path := ih (start + split width) (width - split width) (count - split width) false
          (by omega) (by omega) (by omega) (by omega)
        have sibling := rootFromLeaves_slice same splitPos
          (by omega : start + split width ≤ digests.length)
        rw [if_neg goesLeft, if_neg goesLeft, path, ok_bind, sibling]
        simp [rangeRoot]

theorem consistencyProof_eq {digests provider} (same : HashesAsDefault hashes provider) {count}
    (positive : 0 < count) (inside : count ≤ digests.length) :
    GlobalLog.consistencyProof hashes (digests.map Digest.bytes) count =
      .ok ((treeConsistency hashes (.ofProvider provider) digests count).map Digest.bytes) := by
  have accepted : ¬(count = 0 ∨ (digests.map Digest.bytes).length < count) := by
    rw [length_map]
    omega
  rw [GlobalLog.consistencyProof, reject_of_not accepted, ok_bind, length_map, treeConsistency]
  by_cases whole : count = digests.length
  · have empty := Shape.consistencyPath_size (hashNode hashes (.ofProvider provider))
      (leafAt digests) (rfcShape digests.length) 0 true
    rw [rfcShape_size (by omega)] at empty
    rw [if_pos whole, whole, empty]
    rfl
  · have path := subproof_eq same digests.length 0 digests.length count true positive inside
      (le_rfl) (Nat.le_of_eq (Nat.zero_add digests.length))
    rw [drop_zero, take_of_length_le (by rw [length_map])] at path
    rw [if_neg whole, path]

end

theorem Represents.consistencyProof {hashes : Hashes} {codec : Codec} {service : Service} {tables : Tables}
    {ledger : Ledger hashes codec service.provider} (represented : Represents tables ledger)
    (stamps : Nat → Stamps) {fromSize toSize : Nat} (positive : 0 < fromSize) (ordered : fromSize ≤ toSize)
    (within : toSize ≤ ledger.entries.length) :
    Service.consistencyProof hashes service (quietStore service.provider stamps) tables fromSize
        toSize = .ok {
      fromTreeSize := fromSize
      toTreeSize := toSize
      auditPath := (treeConsistency hashes service.profile (ledger.digests.take toSize)
        fromSize).map Digest.bytes } := by
  have length := ledger.length_digests
  have path := consistencyProofRangeAux_eq (represented.serves stamps) toSize 0 toSize fromSize true
    positive ordered (le_rfl) (aligned_zero toSize) (by omega)
  rw [Service.consistencyProof, reject_of_not (by omega), ok_bind,
    Service.consistencyProofRange, path, ok_bind,
    treeConsistency_take fromSize (by omega) (by omega)]
  rfl

/-- Between any two sizes of a log the service returns the consistency proof of RFC 6962, which
is the one of the package's reference where that hashes as the log does. The sizes, the older
root and the proof give back both roots, and no proof relates trees that differ on the older
one's leaves. -/
theorem consistencyProof_of_history (hashes : Hashes) (codec : Codec) (service : Service)
    (history : List Pebble.Call) (stamps : Nat → Stamps) {state : GlobalLogState}
    {fromSize toSize : Nat}
    (stored : (tablesAfter hashes codec service.provider history).state = some state)
    (positive : 0 < fromSize) (ordered : fromSize ≤ toSize) (within : toSize ≤ state.treeSize) :
    ∃ (digests : List Digest) (path : List Bytes) (rootFrom rootTo : Digest),
      digests.length = toSize ∧
      (∀ position, position < toSize →
        ((tablesAfter hashes codec service.provider history).leaves.lookup position).map
          GlobalLogLeaf.leafHash = (digests.map Digest.bytes)[position]?) ∧
      Service.consistencyProof hashes service (quietStore service.provider stamps)
          (tablesAfter hashes codec service.provider history) fromSize toSize =
        .ok { fromTreeSize := fromSize, toTreeSize := toSize, auditPath := path } ∧
      path = (treeConsistency hashes service.profile digests fromSize).map Digest.bytes ∧
      (HashesAsDefault hashes service.provider →
        GlobalLog.consistencyProof hashes (digests.map Digest.bytes) fromSize = .ok path) ∧
      service.rootOf hashes ((digests.map Digest.bytes).take fromSize) = .ok rootFrom.bytes ∧
      service.rootOf hashes (digests.map Digest.bytes) = .ok rootTo.bytes ∧
      recomputeRoots hashes service.profile fromSize toSize rootFrom path =
        some (rootFrom, rootTo) ∧
      ∀ (old new : List Digest) (sent : List Bytes), old.length = fromSize → new.length = toSize →
        CollisionFree (fun pair : Digest × Digest => hashNode hashes service.profile pair.1 pair.2)
          (consistencyHashed hashes service.profile old new sent) →
        recomputeRoots hashes service.profile fromSize toSize
            (treeRoot hashes service.profile old) sent =
          some (treeRoot hashes service.profile old, treeRoot hashes service.profile new) →
        new.take fromSize = old := by
  obtain ⟨ledger, represented⟩ := tablesAfter_represents hashes codec service.provider history
  rw [represented.treeSize_eq stored] at within
  have length : (ledger.digests.take toSize).length = toSize := by
    rw [List.length_take, ledger.length_digests]
    omega
  refine ⟨ledger.digests.take toSize, _,
    treeRoot hashes service.profile ((ledger.digests.take toSize).take fromSize),
    treeRoot hashes service.profile (ledger.digests.take toSize), length, ?_,
    represented.consistencyProof stamps positive ordered within, rfl, ?_, ?_, ?_, ?_, ?_⟩
  · intro position below
    rw [represented.indexes.leaves, List.map_take, List.getElem?_take, if_pos below,
      ← ledger.leafHashes_eq, List.getElem?_map, Option.map_map]
    rfl
  · intro same
    exact consistencyProof_eq same positive (by omega)
  · rw [← List.map_take]
    exact rootFromLeavesForSuite_eq hashes service.provider
      (List.ne_nil_of_length_pos (by rw [List.length_take]; omega))
  · exact rootFromLeavesForSuite_eq hashes service.provider
      (List.ne_nil_of_length_pos (by omega))
  · have roots := @recomputeRoots_treeConsistency hashes service.profile
      (ledger.digests.take toSize) fromSize positive (by omega)
    rwa [length] at roots
  · rintro old new sent rfl rfl free accepted
    exact take_eq_of_recomputeRoots positive ordered free accepted

theorem consistencyProof_of_history_four :
    ∃ (digests : List Digest) (path : List Bytes) (rootFrom rootTo : Digest),
      Service.consistencyProof Hashes.sample (sampleService .intlV1Provider)
          (sampleStore .intlV1Provider) (sampleTables .intlV1Provider ["a", "b", "c", "d"]) 3 4 =
        .ok { fromTreeSize := 3, toTreeSize := 4, auditPath := path } ∧
      GlobalLog.consistencyProof Hashes.sample (digests.map Digest.bytes) 3 = .ok path ∧
      recomputeRoots Hashes.sample (Service.profile (sampleService .intlV1Provider)) 3 4 rootFrom
        path = some (rootFrom, rootTo) := by
  have four : (sampleTables .intlV1Provider ["a", "b", "c", "d"]).state.map GlobalLogState.treeSize =
      some 4 := by
    decide +kernel
  obtain ⟨state, stored, size⟩ := Option.map_eq_some_iff.mp four
  obtain ⟨digests, path, rootFrom, rootTo, _, _, proved, _, reference, _, _, roots, _⟩ :=
    consistencyProof_of_history Hashes.sample Codec.sample (sampleService .intlV1Provider)
      [sampleCall .intlV1Provider 9 ["a", "b", "c", "d"]] (fun _ => ⟨5, fun _ => 5, 5, 5⟩) stored
      (by omega : 0 < 3) (by omega : 3 ≤ 4) (by omega)
  exact ⟨digests, path, rootFrom, rootTo, proved, reference (.inl rfl), roots⟩

def smLeafHashes : List Bytes :=
  (List.range 4).filterMap fun index =>
    ((sampleTables .cnSMV1Provider ["a", "b", "c", "d"]).leaves.lookup index).map
      GlobalLogLeaf.leafHash

/-- The reference hashes with SHA-256 whatever suite the log has, so over a log with SM3 it is
not what the service returns. -/
theorem consistencyProof_differs_over_sm :
    ∃ (proof : GlobalConsistencyProof) (reference : List Bytes), smLeafHashes.length = 4 ∧
      Service.consistencyProof Hashes.sample (sampleService .cnSMV1Provider)
        (sampleStore .cnSMV1Provider) (sampleTables .cnSMV1Provider ["a", "b", "c", "d"]) 3 4 =
          .ok proof ∧
      GlobalLog.consistencyProof Hashes.sample smLeafHashes 3 = .ok reference ∧
      proof.auditPath ≠ reference := by
  let served := (Service.consistencyProof Hashes.sample (sampleService .cnSMV1Provider)
    (sampleStore .cnSMV1Provider) (sampleTables .cnSMV1Provider ["a", "b", "c", "d"]) 3 4).toOption.map
      GlobalConsistencyProof.auditPath
  let computed := (GlobalLog.consistencyProof Hashes.sample smLeafHashes 3).toOption.map id
  have leaves : smLeafHashes.length = 4 := by decide +kernel
  have both : served.isSome ∧ computed.isSome ∧ served ≠ computed := by decide +kernel
  obtain ⟨path, servedPath⟩ := Option.isSome_iff_exists.mp both.1
  obtain ⟨reference, computedPath⟩ := Option.isSome_iff_exists.mp both.2.1
  have differ : path ≠ reference := by
    intro same
    exact both.2.2 (by rw [servedPath, computedPath, same])
  obtain ⟨proof, proved, shown⟩ := toOption_map_eq_some.mp servedPath
  obtain ⟨_, referenced, rfl⟩ := toOption_map_eq_some.mp computedPath
  exact ⟨proof, _, leaves, proved, referenced, shown ▸ differ⟩

section Beyond

variable {hashes : Hashes} {service : Service} {σ : Type} {store : Store σ} {db : σ} {size : Nat}

/-- No leaf and no complete subtree is stored that reaches beyond the size of the log. -/
structure EndsAt (store : Store σ) (db : σ) (size : Nat) : Prop where
  leaf : ∀ index leaf, store.getGlobalLeaf db index = .ok (some leaf) → index < size
  node : ∀ level start node, store.getGlobalLogNode db level start = .ok (some node) → start + 2 ^ level ≤ size

theorem EndsAt.storedNodeHash (ends : EndsAt store db size) {start width hash}
    (read : Service.storedNodeHash store db start width = .ok (some hash)) : start + width ≤ size := by
  unfold Service.storedNodeHash at read
  by_cases complete : isPowerOfTwo width = true
  · obtain ⟨level, rfl⟩ := isPowerOfTwo_iff.mp complete
    simp only [complete, ↓reduceIte, trailingZeros64_two_pow, bind_eq_ok, return_eq_ok] at read
    obtain ⟨stored, found, shown⟩ := read
    obtain ⟨node, rfl, -⟩ := map_eq_some_iff.mp shown
    exact ends.node level start node found
  · simp [complete] at read

theorem subtreeRootAux_within (ends : EndsAt store db size) {root} :
    ∀ fuel start width, Service.subtreeRootAux hashes service store db fuel start width = .ok root →
      start + width ≤ size := by
  intro fuel
  induction fuel generalizing root with
  | zero => simp [Service.subtreeRootAux]
  | succ fuel ih =>
    intro start width built
    rw [Service.subtreeRootAux] at built
    by_cases empty : width = 0
    · simp [empty] at built
    by_cases single : width = 1
    · simp only [single, Nat.one_ne_zero, ↓reduceIte, Service.storedLeafHash, bind_eq_ok] at built
      obtain ⟨stored, read, shown⟩ := built
      cases stored with
      | none => simp at shown
      | some leaf =>
        have inside := ends.leaf start leaf read
        omega
    · simp only [empty, single, ↓reduceIte, bind_eq_ok] at built
      obtain ⟨stored, read, shown⟩ := built
      cases stored with
      | some hash => exact ends.storedNodeHash read
      | none =>
        simp only [bind_eq_ok] at shown
        obtain ⟨left, -, right, rightBuilt, -⟩ := shown
        have inside := ih _ _ rightBuilt
        split at inside
        · omega
        · have below := split_lt (by omega : 2 ≤ width)
          rw [largestPowerOfTwoLessThan64_eq_split (by omega)] at inside
          omega

theorem consistencyProofRangeAux_within (ends : EndsAt store db size) {path} :
    ∀ fuel start width count complete,
      Service.consistencyProofRangeAux hashes service store db fuel start width count complete = .ok path →
      start + width ≤ size ∨ complete = true ∧ count = width := by
  intro fuel
  induction fuel generalizing path with
  | zero => simp [Service.consistencyProofRangeAux]
  | succ fuel ih =>
    intro start width count complete built
    rw [Service.consistencyProofRangeAux] at built
    by_cases outside : count = 0 ∨ width < count
    · rw [if_pos outside] at built
      cases built
    rw [if_neg outside] at built
    by_cases whole : count = width
    · rw [if_pos whole] at built
      cases complete with
      | true => exact .inr ⟨rfl, whole⟩
      | false =>
        simp only [Bool.false_eq_true, ↓reduceIte, bind_eq_ok] at built
        obtain ⟨root, rootBuilt, -⟩ := built
        exact .inl (subtreeRootAux_within ends _ _ _ rootBuilt)
    · have below := split_lt (by omega : 2 ≤ width)
      simp only [if_neg whole, largestPowerOfTwoLessThan64_eq_split (by omega : 2 ≤ width)] at built
      left
      by_cases goesLeft : count ≤ split width
      · simp only [goesLeft, ↓reduceIte, bind_eq_ok] at built
        obtain ⟨left, -, right, rightBuilt, -⟩ := built
        have inside := subtreeRootAux_within ends _ _ _ rightBuilt
        omega
      · simp only [goesLeft, ↓reduceIte, bind_eq_ok] at built
        obtain ⟨right, rightBuilt, -⟩ := built
        rcases ih _ _ _ _ rightBuilt with inside | ⟨impossible, -⟩
        · omega
        · cases impossible

end Beyond

theorem Represents.endsAt {hashes : Hashes} {codec : Codec} {provider : Provider} {tables : Tables}
    {ledger : Ledger hashes codec provider} (represented : Represents tables ledger) (stamps : Nat → Stamps) :
    EndsAt (quietStore provider stamps) tables ledger.entries.length where
  leaf := by
    intro index leaf read
    simp only [quietStore, Pebble.store, raise, ok_bind, return_eq_ok] at read
    have found := (represented.indexes.leaves index).symm.trans read
    obtain ⟨entry, at_, -⟩ := map_eq_some_iff.mp found
    exact (List.getElem?_eq_some_iff.mp at_).1
  node := by
    intro level start node read
    simp only [quietStore, Pebble.store, raise, ok_bind, return_eq_ok] at read
    obtain ⟨block, inside, rfl, -⟩ := represented.indexes.nodeSound level start node read
    rwa [Nat.succ_mul] at inside

def loggedLeaves (tables : Tables) : Nat := (tables.state.map GlobalLogState.treeSize).getD 0

theorem Represents.loggedLeaves_eq {hashes : Hashes} {codec : Codec} {provider : Provider} {tables : Tables}
    {ledger : Ledger hashes codec provider} (represented : Represents tables ledger) :
    loggedLeaves tables = ledger.entries.length := by
  by_cases empty : ledger.entries = []
  · rw [loggedLeaves, represented.stateless empty, empty]
    rfl
  · obtain ⟨state, stored, -⟩ := represented.state empty
    rw [loggedLeaves, stored, map_some, getD_some, represented.treeSize_eq stored]

/-- A proof to a size that the log does not have is refused, unless the older size is the same one. -/
theorem consistencyProof_beyond_log (hashes : Hashes) (codec : Codec) (service : Service)
    (history : List Pebble.Call) (stamps : Nat → Stamps) {fromSize toSize : Nat} (positive : 0 < fromSize)
    (ordered : fromSize ≤ toSize)
    (beyond : loggedLeaves (tablesAfter hashes codec service.provider history) < toSize) :
    (∃ failure, Service.consistencyProof hashes service (quietStore service.provider stamps)
      (tablesAfter hashes codec service.provider history) fromSize toSize = .error failure) ↔
        fromSize ≠ toSize := by
  obtain ⟨ledger, represented⟩ := tablesAfter_represents hashes codec service.provider history
  rw [represented.loggedLeaves_eq] at beyond
  constructor
  · rintro ⟨failure, refused⟩ rfl
    obtain ⟨less, rfl⟩ : ∃ less, fromSize = less + 1 := ⟨fromSize - 1, by omega⟩
    rw [Service.consistencyProof, reject_of_not (by omega), ok_bind, Service.consistencyProofRange,
      Service.consistencyProofRangeAux, if_neg (by omega), if_pos rfl] at refused
    cases refused
  · intro differ
    cases answer : Service.consistencyProof hashes service (quietStore service.provider stamps)
        (tablesAfter hashes codec service.provider history) fromSize toSize with
    | error failure => exact ⟨failure, rfl⟩
    | ok proof =>
      simp only [Service.consistencyProof, bind_eq_ok] at answer
      obtain ⟨_, _, path, built, -⟩ := answer
      rcases consistencyProofRangeAux_within (represented.endsAt stamps) _ _ _ _ _ built with inside | ⟨-, same⟩
      · omega
      · exact absurd same differ

/-- A log of three leaves attests that the tree of size seven extends the tree of size seven. -/
theorem consistencyProof_attests_missing_tree :
    loggedLeaves (sampleTables .intlV1Provider ["a", "b", "c"]) = 3 ∧
      (Service.consistencyProof Hashes.sample (sampleService .intlV1Provider) (sampleStore .intlV1Provider)
        (sampleTables .intlV1Provider ["a", "b", "c"]) 7 7).toOption =
          some { fromTreeSize := 7, toTreeSize := 7, auditPath := [] } := by
  decide +kernel

theorem consistencyProof_beyond_log_sample :
    ∃ failure, Service.consistencyProof Hashes.sample (sampleService .intlV1Provider)
      (sampleStore .intlV1Provider) (sampleTables .intlV1Provider ["a", "b", "c"]) 2 7 = .error failure :=
  (consistencyProof_beyond_log Hashes.sample Codec.sample (sampleService .intlV1Provider)
    [sampleCall .intlV1Provider 9 ["a", "b", "c"]] (fun _ => ⟨5, fun _ => 5, 5, 5⟩) (by omega) (by omega)
    (by decide +kernel)).mpr (by omega)

end TrustDB.GlobalLog
