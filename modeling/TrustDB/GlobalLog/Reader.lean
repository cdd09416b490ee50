import TrustDB.GlobalLog.ExactlyOnce
import TrustDB.Merkle.Soundness

/-!
Proofs read back from the stored leaves and nodes. Every range the recursions ask for
is aligned, so each complete one was emitted as a node when its last leaf was appended,
however much the log has grown since.
-/

namespace TrustDB.GlobalLog

open Result List CryptoSuite TrustCrypto Merkle Model HashTree ProofStore

theorem largestPowerOfTwoLessThan64_eq_split {width : Nat} (large : 2 ≤ width) :
    largestPowerOfTwoLessThan64 width = split width := by
  rw [largestPowerOfTwoLessThan64, if_neg (by omega), split]

theorem isPowerOfTwo_iff {width : Nat} : isPowerOfTwo width = true ↔ ∃ level, width = 2 ^ level := by
  rw [isPowerOfTwo, decide_eq_true_eq]
  constructor
  · rintro ⟨positive, cleared⟩
    exact (Nat.and_sub_one_eq_zero_iff_isPowerOfTwo (by omega)).mp cleared
  · rintro ⟨level, rfl⟩
    have positive := Nat.two_pow_pos level
    exact ⟨positive, (Nat.and_sub_one_eq_zero_iff_isPowerOfTwo (by omega)).mpr ⟨level, rfl⟩⟩

theorem trailingZeros64_two_pow (level : Nat) : trailingZeros64 (2 ^ level) = level := by
  have positive := Nat.two_pow_pos level
  have cleared : 2 ^ level &&& (2 ^ level - 1) = 0 :=
    (Nat.and_sub_one_eq_zero_iff_isPowerOfTwo (by omega)).mpr ⟨level, rfl⟩
  rw [trailingZeros64, if_neg (by omega), cleared, Nat.sub_zero, Nat.log2_two_pow]

/-- The store hands out these leaf hashes and the roots of their complete subtrees. -/
structure Serves {σ : Type} (hashes : Hashes) (provider : Provider) (store : Store σ) (db : σ)
    (digests : List Digest) : Prop where
  leaf : ∀ index, index < digests.length → ∃ leaf, store.getGlobalLeaf db index = .ok (some leaf) ∧
    leaf.leafHash = (leafAt digests index).bytes
  node : ∀ level block, (block + 1) * 2 ^ level ≤ digests.length →
    ∃ node, store.getGlobalLogNode db level (block * 2 ^ level) = .ok (some node) ∧
      node.hash = (blockRoot (hashNode hashes (.ofProvider provider)) (leafAt digests) level block).bytes

section

variable {hashes : Hashes} {service : Service} {σ : Type} {store : Store σ} {db : σ}
  {digests : List Digest}

section

variable (serves : Serves hashes service.provider store db digests)

include serves

theorem subtreeRootAux_eq :
    ∀ fuel start width, 0 < width → width ≤ fuel → Aligned start width → start + width ≤ digests.length →
      Service.subtreeRootAux hashes service store db fuel start width =
        .ok (rangeRoot (hashNode hashes service.profile) (leafAt digests) start width).bytes := by
  intro fuel
  induction fuel with
  | zero => intro start width positive bound; omega
  | succ fuel ih =>
    intro start width positive bound aligned inside
    rw [Service.subtreeRootAux, if_neg (by omega)]
    by_cases single : width = 1
    · obtain ⟨leaf, read, hash⟩ := serves.leaf start (by omega)
      simp [single, Service.storedLeafHash, read, hash]
    · rw [if_neg single]
      by_cases complete : isPowerOfTwo width = true
      · obtain ⟨level, rfl⟩ := isPowerOfTwo_iff.mp complete
        obtain ⟨block, rfl⟩ := aligned.block
        obtain ⟨node, read, hash⟩ := serves.node level block (by rwa [Nat.succ_mul])
        simp only [Service.storedNodeHash, complete, ↓reduceIte, trailingZeros64_two_pow, read,
          ok_bind, pure_eq_ok, Option.map_some, hash]
        rfl
      · have large : 2 ≤ width := by omega
        have below := split_lt large
        have splitPos := split_pos width
        have left := ih start (split width) splitPos (by omega) (aligned.left large) (by omega)
        have right := ih (start + split width) (width - split width) (by omega) (by omega)
          (aligned.right large) (by omega)
        simp only [Service.storedNodeHash, complete, Bool.false_eq_true, ↓reduceIte,
          pure_eq_ok, ok_bind, largestPowerOfTwoLessThan64_eq_split large, left, right,
          Service.hashNodeBytes_digests, rangeRoot_split _ _ start large]

theorem subtreeRoot_eq {start width} (positive : 0 < width) (aligned : Aligned start width)
    (inside : start + width ≤ digests.length) : Service.subtreeRoot hashes service store db start width =
      .ok (rangeRoot (hashNode hashes service.profile) (leafAt digests) start width).bytes :=
  subtreeRootAux_eq serves width start width positive (le_rfl) aligned inside

theorem auditPathAux_eq :
    ∀ fuel start width offset, offset < width → width ≤ fuel → Aligned start width →
      start + width ≤ digests.length →
      Service.auditPathAux hashes service store db fuel (start + offset) start width =
        .ok (((rfcShape width).auditPath (hashNode hashes service.profile) (leafAt digests) start
          offset).map Digest.bytes) := by
  intro fuel
  induction fuel with
  | zero => intro start width offset within bound; omega
  | succ fuel ih =>
    intro start width offset within bound aligned inside
    rw [Service.auditPathAux, if_neg (by omega)]
    by_cases single : width = 1
    · simp [single, rfcShape_small, Shape.auditPath]
    · have large : 2 ≤ width := by omega
      have below := split_lt large
      have splitPos := split_pos width
      simp only [if_neg single, largestPowerOfTwoLessThan64_eq_split large, rfcShape_split large,
        Shape.auditPath, rfcShape_size splitPos]
      by_cases goesLeft : offset < split width
      · have path := ih start (split width) offset goesLeft (by omega) (aligned.left large) (by omega)
        have sibling := subtreeRoot_eq serves (by omega) (aligned.right large) (by omega)
        rw [if_pos (by omega), if_pos goesLeft, path, ok_bind, sibling]
        simp [rangeRoot]
      · have path := ih (start + split width) (width - split width) (offset - split width) (by omega)
          (by omega) (aligned.right large) (by omega)
        have sibling := subtreeRoot_eq serves splitPos (aligned.left large) (by omega)
        rw [show start + split width + (offset - split width) = start + offset by omega] at path
        rw [if_neg (by omega), if_neg goesLeft, path, ok_bind, sibling]
        simp [rangeRoot]

theorem consistencyProofRangeAux_eq :
    ∀ fuel start width count complete, 0 < count → count ≤ width → width ≤ fuel →
      Aligned start width → start + width ≤ digests.length →
      Service.consistencyProofRangeAux hashes service store db fuel start width count complete =
        .ok (((rfcShape width).consistencyPath (hashNode hashes service.profile) (leafAt digests) start
          count complete).map Digest.bytes) := by
  intro fuel
  induction fuel with
  | zero => intro start width count complete positive within bound; omega
  | succ fuel ih =>
    intro start width count complete positive within bound aligned inside
    rw [Service.consistencyProofRangeAux, if_neg (by omega)]
    by_cases whole : count = width
    · subst whole
      have shared := Shape.consistencyPath_size (hashNode hashes service.profile) (leafAt digests)
        (rfcShape count) start complete
      rw [rfcShape_size positive] at shared
      rw [if_pos rfl, shared, subtreeRoot_eq serves positive aligned inside]
      cases complete <;> simp [rangeRoot]
    · have large : 2 ≤ width := by omega
      have below := split_lt large
      have splitPos := split_pos width
      have inner : ¬count = split width + (width - split width) := by omega
      simp only [if_neg whole, largestPowerOfTwoLessThan64_eq_split large, rfcShape_split large,
        Shape.consistencyPath, rfcShape_size splitPos,
        rfcShape_size (by omega : 0 < width - split width), if_neg inner]
      by_cases goesLeft : count ≤ split width
      · have path := ih start (split width) count complete positive goesLeft (by omega)
          (aligned.left large) (by omega)
        have sibling := subtreeRoot_eq serves (by omega) (aligned.right large) (by omega)
        rw [if_pos goesLeft, if_pos goesLeft, path, ok_bind, sibling]
        simp [rangeRoot]
      · have path := ih (start + split width) (width - split width) (count - split width) false
          (by omega) (by omega) (by omega) (aligned.right large) (by omega)
        have sibling := subtreeRoot_eq serves splitPos (aligned.left large) (by omega)
        rw [if_neg goesLeft, if_neg goesLeft, path, ok_bind, sibling]
        simp [rangeRoot]

theorem Serves.auditPath {size index} (within : size ≤ digests.length) (inside : index < size) :
    Service.auditPath hashes service store db index 0 size =
      .ok ((treePath hashes service.profile (digests.take size) index).map Digest.bytes) := by
  have path := auditPathAux_eq serves size 0 size index inside (le_rfl) (aligned_zero size)
    (by omega)
  rw [Nat.zero_add] at path
  rw [Service.auditPath, path, treePath_take _ _ _ (by omega) within]

end

def proofOf (hashes : Hashes) (service : Service) (digests : List Digest) (leaf : GlobalLogLeaf)
    (sth : SignedTreeHead) (size : Nat) : GlobalLogProof where
  schemaVersion := schemaGlobalLogProof
  cryptoSuite := service.provider.suite
  nodeID := leaf.nodeID
  logID := leaf.logID
  batchID := leaf.batchID
  leafIndex := leaf.leafIndex
  leafHash := leaf.leafHash
  treeSize := size
  inclusionPath :=
    (treePath hashes service.profile (digests.take size) leaf.leafIndex).map Digest.bytes
  sth := sth
  consistency := default

theorem inclusionProof_db (batchID : String) {size : Nat} (positive : size ≠ 0) :
    (Service.inclusionProof hashes service store db batchID size).2 = db := by
  unfold Service.inclusionProof
  split
  · rfl
  · rfl
  · simp only [Service.requestedTreeSize, if_neg positive, chain_ok]

theorem Serves.inclusionProof (serves : Serves hashes service.provider store db digests) {size batchID leaf sth}
    (read : store.getGlobalLeafByBatchID db batchID = .ok (some leaf))
    (headRead : store.getSignedTreeHead db size = .ok (some sth)) (batch : leaf.batchID = batchID)
    (inside : leaf.leafIndex < size) (within : size ≤ digests.length) :
    Service.inclusionProof hashes service store db batchID size =
      (.ok (proofOf hashes service digests leaf sth size), db) := by
  have nonzero : ¬size = 0 := by omega
  have path := serves.auditPath within inside
  subst batch
  simp only [Service.inclusionProof, read, Service.requestedTreeSize, if_neg nonzero,
    chain_ok, Service.proveLeaf, reject_of_not (by omega : ¬size ≤ leaf.leafIndex),
    ok_bind, headRead, path]
  rfl

end

section

variable {hashes : Hashes} {codec : Codec} {service : Service} {tables : Tables}
  {ledger : Ledger hashes codec service.provider}

def quietStore (provider : Provider) (stamps : Nat → Stamps) : Store Tables :=
  Pebble.store provider.suite stamps fun _ => none

section

variable (represented : Represents tables ledger) (stamps : Nat → Stamps)
include represented stamps

theorem Represents.serves :
    Serves hashes service.provider (quietStore service.provider stamps) tables ledger.digests where
  leaf := by
    intro index inside
    rw [ledger.length_digests] at inside
    have at_ := getElem?_eq_getElem inside
    refine ⟨ledger.entries[index].leaf, ?_, ?_⟩
    · have found := represented.indexes.leaves index
      rw [at_] at found
      simp only [quietStore, Pebble.store, raise, ok_bind, found]
      rfl
    · rw [(ledger.follows index _ at_).digest_bytes]
      simp [leafAt, Ledger.digests, at_]
  node := by
    intro level block inside
    rw [ledger.length_digests] at inside
    obtain ⟨node, found⟩ := Option.isSome_iff_exists.mp
      (represented.indexes.nodeComplete level block inside)
    obtain ⟨other, _, start, hash⟩ := represented.indexes.nodeSound level _ node found
    obtain rfl := Nat.mul_right_cancel (Nat.two_pow_pos level) start
    exact ⟨node, by simp [quietStore, Pebble.store, raise, found], hash⟩

theorem Represents.auditPath {size index : Nat} (within : size ≤ ledger.entries.length) (inside : index < size) :
    Service.auditPath hashes service (quietStore service.provider stamps) tables index 0 size =
      .ok ((treePath hashes service.profile (ledger.digests.take size) index).map Digest.bytes) :=
  (represented.serves stamps).auditPath (by rwa [ledger.length_digests]) inside

theorem Represents.inclusionProof {size index entry last} (at_ : ledger.entries[index]? = some entry)
    (lastAt : ledger.entries[size - 1]? = some last) (inside : index < size) :
    Service.inclusionProof hashes service (quietStore service.provider stamps) tables entry.batchID
      size = (.ok (proofOf hashes service ledger.digests entry.leaf last.head size), tables) := by
  have within := (List.getElem?_eq_some_iff.mp lastAt).1
  have position := (List.getElem?_eq_some_iff.mp at_).1
  have follows := ledger.follows index entry at_
  have leafIndex : entry.leaf.leafIndex = index := ledger.leafIndex at_
  have named : entry.batchID ≠ "" := follows.named
  have byBatch := (represented.stored (List.mem_of_getElem? at_)).1
  have heads := represented.indexes.heads size
  rw [if_neg (by omega), lastAt] at heads
  have nonzero : ¬size = 0 := by omega
  apply (represented.serves stamps).inclusionProof
  · simp [quietStore, Pebble.store, Tables.getGlobalLeafByBatchID, raise, reject, named, byBatch]
  · simp [quietStore, Pebble.store, Tables.getSignedTreeHead, raise, reject, nonzero, heads]
  · rfl
  · omega
  · rw [ledger.length_digests]
    omega

end

theorem Represents.treeSize_eq {provider} {ledger : Ledger hashes codec provider}
    (represented : Represents tables ledger) {state} (stored : tables.state = some state) :
    state.treeSize = ledger.entries.length := by
  have nonempty : ledger.entries ≠ [] := by
    intro empty
    simp [represented.stateless empty] at stored
  obtain ⟨other, found, tracked⟩ := represented.state nonempty
  cases found.symm.trans stored
  rw [tracked.size, ledger.length_digests]

theorem verifyInclusion_accepts {digests index proof provider} (inside : index < digests.length)
    (bound : digests.length ≤ 2 ^ 62) (schema : proof.schemaVersion = schemaGlobalLogProof)
    (suite : proof.cryptoSuite = provider.suite) (headSchema : proof.sth.schemaVersion = schemaSignedTreeHead)
    (headSuite : proof.sth.cryptoSuite = provider.suite)
    (headAlg : proof.sth.treeAlg = (Profile.ofProvider provider).algorithm)
    (size : proof.treeSize = digests.length) (headSize : proof.sth.treeSize = digests.length)
    (leafIndex : proof.leafIndex = index) (leafHash : proof.leafHash = (leafAt digests index).bytes)
    (path : proof.inclusionPath = (treePath hashes (.ofProvider provider) digests index).map Digest.bytes)
    (root : proof.sth.rootHash = (treeRoot hashes (.ofProvider provider) digests).bytes) :
    ∃ fuel, verifyInclusionWithProvider hashes fuel provider proof = some true := by
  obtain ⟨fuel, accepted⟩ := verifies_treePath hashes provider inside bound
  have suites : requireSame provider.suite [proof.cryptoSuite, proof.sth.cryptoSuite] = .ok () := by
    rw [requireSame_eq_ok]
    exact ⟨provider.known, by simp [suite, headSuite]⟩
  refine ⟨fuel, ?_⟩
  have run : (verifyInclusionForSuite hashes fuel provider.suite proof).run = some (.ok true) := by
    rw [verifyInclusionForSuite, if_neg (by simpa using schema), suites,
      if_neg (by simp [headSchema, size, headSize]), if_neg (by omega), headAlg, leafIndex, leafHash,
      size, path, root]
    cases provider <;> exact accepted
  rw [verifyInclusionWithProvider, run]
  rfl

end

/-- Every leaf of every historic tree has the audit path of that tree, and the proof the
service builds for it is accepted against the tree head of that size. -/
theorem inclusionProof_of_history (hashes : Hashes) (codec : Codec) (service : Service)
    (history : List Pebble.Call) (stamps : Nat → Stamps) {state : GlobalLogState} {size index : Nat}
    (stored : (tablesAfter hashes codec service.provider history).state = some state)
    (within : size ≤ state.treeSize) (inside : index < size) :
    ∃ (leaves : List GlobalLogLeaf) (leaf : GlobalLogLeaf) (path : List Bytes) (sth : SignedTreeHead)
      (proof : GlobalLogProof),
      leaves.length = size ∧ leaves[index]? = some leaf ∧
      (∀ position, position < size →
        (tablesAfter hashes codec service.provider history).leaves.lookup position =
          leaves[position]?) ∧
      Service.auditPath hashes service (quietStore service.provider stamps)
        (tablesAfter hashes codec service.provider history) index 0 size = .ok path ∧
      auditPathFromLeavesForSuite hashes service.profile.suite service.profile.algorithm
        (leaves.map GlobalLogLeaf.leafHash) index = .ok path ∧
      (HashesAsDefault hashes service.provider →
        auditPathFromLeaves hashes (leaves.map GlobalLogLeaf.leafHash) index = .ok path) ∧
      (tablesAfter hashes codec service.provider history).heads.lookup size = some sth ∧
      Service.inclusionProof hashes service (quietStore service.provider stamps)
        (tablesAfter hashes codec service.provider history) leaf.batchID size =
          (.ok proof, tablesAfter hashes codec service.provider history) ∧
      proof.sth = sth ∧ proof.leafIndex = index ∧ proof.leafHash = leaf.leafHash ∧
      proof.inclusionPath = path ∧
      (size ≤ 2 ^ 62 →
        ∃ fuel, verifyInclusionWithProvider hashes fuel service.provider proof = some true) := by
  obtain ⟨ledger, represented⟩ := tablesAfter_represents hashes codec service.provider history
  have counted : size ≤ ledger.entries.length := by
    rwa [represented.treeSize_eq stored] at within
  obtain ⟨entry, at_⟩ : ∃ entry, ledger.entries[index]? = some entry :=
    ⟨_, getElem?_eq_getElem (by omega)⟩
  obtain ⟨last, lastAt⟩ : ∃ last, ledger.entries[size - 1]? = some last :=
    ⟨_, getElem?_eq_getElem (by omega)⟩
  have length : (ledger.digests.take size).length = size := by
    rw [length_take, ledger.length_digests]
    omega
  have hashesOf : ((ledger.entries.map Entry.leaf).take size).map GlobalLogLeaf.leafHash =
      (ledger.digests.take size).map Digest.bytes := by
    rw [map_take, map_map, map_take, ← ledger.leafHashes_eq]
    rfl
  have follows := ledger.follows (size - 1) last lastAt
  have headSize : last.head.treeSize = size := by
    rw [follows.headSize, length_map, length_take]
    omega
  have headRoot := ledger.headRoot lastAt
  rw [Nat.sub_add_cancel (by omega)] at headRoot
  have leafHash : entry.leaf.leafHash = (leafAt (ledger.digests.take size) index).bytes := by
    rw [(ledger.follows index entry at_).digest_bytes, leafAt_take inside]
    simp [leafAt, Ledger.digests, at_]
  have position : entry.leaf.leafIndex = index := ledger.leafIndex at_
  have path : (proofOf hashes service ledger.digests entry.leaf last.head size).inclusionPath =
      (treePath hashes service.profile (ledger.digests.take size) index).map Digest.bytes := by
    rw [proofOf, position]
  refine ⟨(ledger.entries.map Entry.leaf).take size, entry.leaf, _, last.head, _, ?_, ?_, ?_,
    represented.auditPath stamps counted inside, ?_, ?_, ?_,
    represented.inclusionProof stamps at_ lastAt inside, rfl, position, rfl, path, ?_⟩
  · rw [length_take, length_map]
    omega
  · simp [inside, at_]
  · intro position below
    rw [represented.indexes.leaves, getElem?_take, if_pos below, getElem?_map]
  · rw [hashesOf]
    exact auditPathFromLeavesForSuite_eq hashes service.provider (by omega)
  · intro same
    rw [hashesOf]
    exact auditPathFromLeaves_eq same (by omega)
  · rw [represented.indexes.heads, if_neg (by omega), lastAt]
    rfl
  · intro bound
    have below : index < (ledger.digests.take size).length := by omega
    have small : (ledger.digests.take size).length ≤ 2 ^ 62 := by omega
    exact verifyInclusion_accepts below small rfl rfl follows.headSchema follows.headSuite
      follows.headAlg length.symm (headSize.trans length.symm) position leafHash path headRoot

def sampleTables (provider : Provider) (batchIDs : List String) : Tables :=
  tablesAfter Hashes.sample Codec.sample provider [sampleCall provider 9 batchIDs]

def sampleStore (provider : Provider) : Store Tables :=
  quietStore provider fun _ => { leaf := 5, node := fun _ => 5, state := 5, sth := 5 }

theorem inclusionProof_of_history_three :
    ∃ (leaf : GlobalLogLeaf) (path : List Bytes) (sth : SignedTreeHead) (proof : GlobalLogProof),
      Service.auditPath Hashes.sample (sampleService .cnSMV1Provider) (sampleStore .cnSMV1Provider)
        (sampleTables .cnSMV1Provider ["a", "b", "c"]) 1 0 2 = .ok path ∧
      (sampleTables .cnSMV1Provider ["a", "b", "c"]).heads.lookup 2 = some sth ∧
      Service.inclusionProof Hashes.sample (sampleService .cnSMV1Provider)
        (sampleStore .cnSMV1Provider) (sampleTables .cnSMV1Provider ["a", "b", "c"]) leaf.batchID 2 =
          (.ok proof, sampleTables .cnSMV1Provider ["a", "b", "c"]) ∧
      proof.sth = sth ∧
      ∃ fuel, verifyInclusionWithProvider Hashes.sample fuel .cnSMV1Provider proof = some true := by
  have three : (sampleTables .cnSMV1Provider ["a", "b", "c"]).state.map GlobalLogState.treeSize =
      some 3 := by
    decide +kernel
  obtain ⟨state, stored, size⟩ := Option.map_eq_some_iff.mp three
  obtain ⟨leaves, leaf, path, sth, proof, _, _, _, audited, _, _, headed, proved, head, _, _, _,
      accepted⟩ :=
    inclusionProof_of_history Hashes.sample Codec.sample (sampleService .cnSMV1Provider)
      [sampleCall .cnSMV1Provider 9 ["a", "b", "c"]] (fun _ => ⟨5, fun _ => 5, 5, 5⟩) stored
      (by omega : 2 ≤ state.treeSize) (by omega : 1 < 2)
  exact ⟨leaf, path, sth, proof, audited, headed, proved, head, accepted (by omega)⟩

end TrustDB.GlobalLog
