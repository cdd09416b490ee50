import TrustDB.HashTree.Frontier
import TrustDB.Merkle.Core

/-!
The compact tree computes RFC 6962 roots and audit paths: every range in its node
table holds the root of that range, whatever was stored before it.
-/

namespace TrustDB.Merkle

open CryptoSuite TrustCrypto HashTree List

def Profile.ofProvider : Provider → Profile
  | .intlV1Provider => {
      suite := intlV1
      algorithm := merkleRFC6962SHA256
      hashAlg := hashSHA256
      hashKind := .sha256
      leafPrefix := 0x00
      nodePrefix := 0x01
      digestBytes := 32
      digestBytes_eq := rfl
      prefixes_differ := by decide }
  | .cnSMV1Provider => {
      suite := cnSmV1
      algorithm := merkleRFC6962SM3
      hashAlg := hashSM3
      hashKind := .sm3
      leafPrefix := 0x00
      nodePrefix := 0x01
      digestBytes := 32
      digestBytes_eq := rfl
      prefixes_differ := by decide }

theorem profileForAlgorithm_provider (provider : Provider) :
    profileForAlgorithm provider.suite provider.registered.merkle.algorithm =
      .ok (.ofProvider provider) := by
  cases provider <;> rfl

theorem profileForAlgorithm_eq_ok {suiteID treeAlgorithm profile} :
    profileForAlgorithm suiteID treeAlgorithm = .ok profile ↔ ∃ provider : Provider, suiteID = provider.suite ∧
        treeAlgorithm = provider.registered.merkle.algorithm ∧ profile = .ofProvider provider := by
  constructor
  · intro accepted
    have peeled := accepted
    simp only [profileForAlgorithm, Result.bind_eq_ok] at peeled
    obtain ⟨suite, known, rest⟩ := peeled
    obtain ⟨provider, rfl, rfl⟩ :
        ∃ provider : Provider, suiteID = provider.suite ∧ suite = provider.registered := by
      rcases lookup_cases (requireKnown_eq_ok.mp known) with ⟨rfl, rfl⟩ | ⟨rfl, rfl⟩
      · exact ⟨.intlV1Provider, rfl, rfl⟩
      · exact ⟨.cnSMV1Provider, rfl, rfl⟩
    by_cases same : treeAlgorithm = provider.registered.merkle.algorithm
    · rw [same, profileForAlgorithm_provider] at accepted
      exact ⟨provider, rfl, same, (Except.ok.inj accepted).symm⟩
    · simp [same] at rest
  · rintro ⟨provider, rfl, rfl, rfl⟩
    exact profileForAlgorithm_provider provider

@[simp] theorem profileForAlgorithm_profile (provider : Provider) :
    profileForAlgorithm (Profile.ofProvider provider).suite (Profile.ofProvider provider).algorithm =
      .ok (.ofProvider provider) := by
  cases provider <;> rfl

theorem largestPowerOfTwoLoop_eq_split (n : Nat) : ∀ fuel level, 2 ^ level < n →
    n ≤ 2 ^ (level + fuel) → largestPowerOfTwoLoop fuel n (2 ^ level) = split n := by
  intro fuel
  induction fuel with
  | zero => intro level below above; simp only [Nat.add_zero] at above; omega
  | succ fuel ih =>
    intro level below above
    have double : 2 * 2 ^ level = 2 ^ (level + 1) := Nat.pow_succ'.symm
    simp only [largestPowerOfTwoLoop]
    split
    · rename_i further
      rw [double] at further ⊢
      exact ih (level + 1) further (by rw [Nat.add_right_comm]; exact above)
    · exact (split_eq_of_bounds below (by omega)).symm

theorem largestPowerOfTwoLessThan_eq_split {n} (large : 2 ≤ n) : largestPowerOfTwoLessThan n = split n := by
  have bound : n < 2 ^ n := Nat.lt_two_pow_self
  rw [largestPowerOfTwoLessThan, if_neg (by omega)]
  exact largestPowerOfTwoLoop_eq_split n n 0 (by simpa using Nat.lt_of_succ_le large)
    (by simpa using bound.le)

def leafAt (leaves : List Digest) (index : Nat) : Digest := leaves.getD index default

theorem leafAt_append_left {leaves more index} (inside : index < leaves.length) :
    leafAt (leaves ++ more) index = leafAt leaves index := by
  simp [leafAt, getElem?_append_left inside]

@[simp] theorem leafAt_append_length (leaves : List Digest) (leaf : Digest) :
    leafAt (leaves ++ [leaf]) leaves.length = leaf := by
  simp [leafAt]

theorem leafAt_take {leaves count index} (inside : index < count) :
    leafAt (leaves.take count) index = leafAt leaves index := by
  simp [leafAt, inside]

section

variable {hashes : Hashes} {profile : Profile} {leaves : List Digest}

namespace NodeTable

variable {table : NodeTable} {start : Nat}

def Sound (hashes : Hashes) (profile : Profile) (leaves : List Digest) (table : NodeTable) : Prop :=
  ∀ range position, table.nodeIndex.lookup range = some position →
    table.nodeHashes[position]? =
      some (rangeRoot (hashNode hashes profile) (leafAt leaves) range.start range.size)

def Has (table : NodeTable) (start size : Nat) : Prop :=
  (table.nodeIndex.lookup { start, size }).isSome

def Covers (table : NodeTable) : Shape → Nat → Prop
  | .leaf, start => table.Has start 1
  | .fork left right, start =>
    table.Has start (left.size + right.size) ∧ table.Covers left start ∧
      table.Covers right (start + left.size)

theorem Covers.has {shape} (covers : table.Covers shape start) : table.Has start shape.size := by
  cases shape with
  | leaf => exact covers
  | fork left right => exact covers.1

theorem Covers.mono {grown : NodeTable}
    (grows : ∀ start size, table.Has start size → grown.Has start size) {shape : Shape} :
    ∀ {start : Nat}, table.Covers shape start → grown.Covers shape start := by
  induction shape with
  | leaf => intro start covers; exact grows _ _ covers
  | fork left right ihLeft ihRight =>
    intro start covers
    exact ⟨grows _ _ covers.1, ihLeft covers.2.1, ihRight covers.2.2⟩

theorem get_eq (sound : table.Sound hashes profile leaves) {size} (has : table.Has start size) :
    table.get { start, size } = rangeRoot (hashNode hashes profile) (leafAt leaves) start size := by
  obtain ⟨position, found⟩ := Option.isSome_iff_exists.mp has
  have stored := sound _ _ found
  simp [get, found, getD_eq_getElem?_getD, stored]

theorem Has.insert {size : Nat} (has : table.Has start size)
    (range : NodeRange) (hash : Digest) : (table.insert range hash).Has start size := by
  unfold Has at has ⊢
  simp only [NodeTable.insert, lookup_cons]
  split <;> simp_all

theorem has_insert (table : NodeTable) (start size : Nat) (hash : Digest) :
    (table.insert { start, size } hash).Has start size := by
  simp [Has, NodeTable.insert]

theorem Sound.insert (sound : table.Sound hashes profile leaves) (start size : Nat) :
    (table.insert { start, size }
      (rangeRoot (hashNode hashes profile) (leafAt leaves) start size)).Sound hashes profile leaves := by
  intro range position found
  simp only [NodeTable.insert, lookup_cons] at found
  simp only [NodeTable.insert]
  split at found
  · rename_i same
    obtain rfl : range = { start, size } := by simpa using same
    cases found
    simp
  · have stored := sound range position found
    have inside := (List.getElem?_eq_some_iff.mp stored).1
    rw [List.getElem?_append_left inside]
    exact stored

end NodeTable

theorem buildRange_spec : ∀ fuel (table : NodeTable) start size, 0 < size → size ≤ fuel →
    table.Sound hashes profile leaves → ∃ grown : NodeTable,
      buildRange hashes profile leaves fuel table start size =
        (rangeRoot (hashNode hashes profile) (leafAt leaves) start size, grown) ∧
      grown.Sound hashes profile leaves ∧ grown.Covers (rfcShape size) start ∧
        ∀ otherStart otherSize, table.Has otherStart otherSize → grown.Has otherStart otherSize := by
  intro fuel
  induction fuel with
  | zero => intro table start size positive bound; omega
  | succ fuel ih =>
    intro table start size positive bound sound
    by_cases single : size = 1
    · subst single
      refine ⟨table.insert { start, size := 1 } (leafAt leaves start), ?_, ?_, ?_, ?_⟩
      · simp [buildRange, leafAt]
      · simpa using sound.insert start 1
      · rw [rfcShape_small (by omega)]
        exact table.has_insert start 1 _
      · intro otherStart otherSize has
        exact has.insert _ _
    · have large : 2 ≤ size := by omega
      have below := split_lt large
      have splitPos := split_pos size
      obtain ⟨afterLeft, leftEq, leftSound, leftCovers, leftGrows⟩ :=
        ih table start (split size) splitPos (by omega) sound
      obtain ⟨afterRight, rightEq, rightSound, rightCovers, rightGrows⟩ :=
        ih afterLeft (start + split size) (size - split size) (by omega) (by omega) leftSound
      have root := rangeRoot_split (hashNode hashes profile) (leafAt leaves) start large
      refine ⟨_, ?_, rightSound.insert start size, ?_, ?_⟩
      · simp only [buildRange, single, ↓reduceIte, largestPowerOfTwoLessThan_eq_split large,
          leftEq, rightEq, root]
      · rw [rfcShape_split large]
        refine ⟨?_, leftCovers.mono fun _ _ has => (rightGrows _ _ has).insert _ _, ?_⟩
        · rw [rfcShape_size splitPos, rfcShape_size (by omega), Nat.add_sub_cancel' below.le]
          exact afterRight.has_insert start size _
        · rw [rfcShape_size splitPos]
          exact rightCovers.mono fun _ _ has => has.insert _ _
      · intro otherStart otherSize has
        exact (rightGrows _ _ (leftGrows _ _ has)).insert _ _

theorem auditPathWith_table {table : NodeTable} (sound : table.Sound hashes profile leaves) :
    ∀ fuel start size index, 0 < size → size ≤ fuel → table.Covers (rfcShape size) start →
      auditPathWith table.get fuel start size index =
        (rfcShape size).auditPath (hashNode hashes profile) (leafAt leaves) start index := by
  intro fuel
  induction fuel with
  | zero => intro start size index positive bound; omega
  | succ fuel ih =>
    intro start size index positive bound covers
    by_cases single : size = 1
    · simp [auditPathWith, single, rfcShape_small, Shape.auditPath]
    · have large : 2 ≤ size := by omega
      have below := split_lt large
      have splitPos := split_pos size
      rw [rfcShape_split large] at covers ⊢
      obtain ⟨_, leftCovers, rightCovers⟩ := covers
      have leftHas := leftCovers.has
      have rightHas := rightCovers.has
      rw [rfcShape_size splitPos] at leftHas rightCovers rightHas
      rw [rfcShape_size (by omega)] at rightHas
      simp only [auditPathWith, single, ↓reduceIte, largestPowerOfTwoLessThan_eq_split large,
        Shape.auditPath, rfcShape_size splitPos]
      split
      · rw [ih start (split size) index splitPos (by omega) leftCovers,
          NodeTable.get_eq sound rightHas]
        rfl
      · rw [ih (start + split size) (size - split size) (index - split size) (by omega) (by omega)
          rightCovers, NodeTable.get_eq sound leftHas]
        rfl

theorem auditPathWith_map {γ δ : Type} (entry : NodeRange → γ) (shown : γ → δ) :
    ∀ fuel start size index,
      (auditPathWith entry fuel start size index).map shown =
        auditPathWith (fun range => shown (entry range)) fuel start size index := by
  intro fuel
  induction fuel with
  | zero => intros; rfl
  | succ fuel ih =>
    intro start size index
    simp only [auditPathWith]
    split
    · rfl
    · split <;> simp [ih]

end

section

variable (hashes : Hashes) (profile : Profile) {leaves : List Digest} {start width index : Nat}
  {provider : Provider}

def treeRoot (leaves : List Digest) : Digest :=
  rangeRoot (hashNode hashes profile) (leafAt leaves) 0 leaves.length

def treePath (leaves : List Digest) (index : Nat) : List Digest :=
  (rfcShape leaves.length).auditPath (hashNode hashes profile) (leafAt leaves) 0 index

theorem treeRoot_slice (positive : 0 < width) (inside : start + width ≤ leaves.length) :
    treeRoot hashes profile ((leaves.drop start).take width) =
      rangeRoot (hashNode hashes profile) (leafAt leaves) start width := by
  have length : ((leaves.drop start).take width).length = width := by
    simp only [length_take, length_drop]
    omega
  have shifted := Shape.root_shift (hashNode hashes profile) (leafAt leaves) start (rfcShape width) 0
  rw [treeRoot, length, rangeRoot, rangeRoot]
  rw [Nat.add_zero] at shifted
  rw [shifted]
  apply Shape.root_congr
  intro index _ upper
  rw [rfcShape_size positive, Nat.zero_add] at upper
  rw [leafAt_take upper]
  simp [leafAt]

theorem treePath_take {size : Nat} (index : Nat) (positive : 0 < size) (inside : size ≤ leaves.length) :
    treePath hashes profile (leaves.take size) index =
      (rfcShape size).auditPath (hashNode hashes profile) (leafAt leaves) 0 index := by
  rw [treePath, length_take, Nat.min_eq_left inside]
  apply Shape.auditPath_congr
  intro position _ upper
  rw [rfcShape_size positive, Nat.zero_add] at upper
  exact leafAt_take upper

@[simp] theorem buildFromLeafHashes_leafHashes :
    (buildFromLeafHashes hashes profile leaves).leafHashes = leaves := rfl

@[simp] theorem buildFromLeafHashes_profile :
    (buildFromLeafHashes hashes profile leaves).profile = profile := rfl

theorem buildFromLeafHashes_table (nonempty : leaves ≠ []) :
    (buildFromLeafHashes hashes profile leaves).root = treeRoot hashes profile leaves ∧
      (buildFromLeafHashes hashes profile leaves).table.Sound hashes profile leaves ∧
        (buildFromLeafHashes hashes profile leaves).table.Covers (rfcShape leaves.length) 0 := by
  have emptySound : NodeTable.empty.Sound hashes profile leaves := by
    intro range position found
    simp [NodeTable.empty] at found
  obtain ⟨grown, built, sound, covers, _⟩ := buildRange_spec leaves.length .empty 0 leaves.length
    (length_pos_iff.mpr nonempty) (le_rfl) emptySound
  simp only [buildFromLeafHashes, built]
  exact ⟨rfl, sound, covers⟩

theorem buildFromLeafHashes_root (nonempty : leaves ≠ []) :
    (buildFromLeafHashes hashes profile leaves).root = treeRoot hashes profile leaves :=
  (buildFromLeafHashes_table hashes profile nonempty).1

theorem proof_eq (inside : index < leaves.length) :
    (buildFromLeafHashes hashes profile leaves).proof index =
      .ok ((treePath hashes profile leaves index).map Digest.bytes) := by
  have nonempty : leaves ≠ [] := ne_nil_of_length_pos (by omega)
  obtain ⟨_, sound, covers⟩ := buildFromLeafHashes_table hashes profile nonempty
  rw [Tree.proof, if_neg (by simpa using inside), Tree.auditPath, Tree.appendAuditPath,
    buildFromLeafHashes_leafHashes,
    auditPathWith_table sound _ _ _ _ (by omega) (le_rfl) covers]
  rfl

theorem proofView_eq_proof (index : Nat) :
    (buildFromLeafHashes hashes profile leaves).proofView index =
      (buildFromLeafHashes hashes profile leaves).proof index := by
  simp only [Tree.proofView, Tree.proof, Tree.auditPath, Tree.appendAuditPath,
    Tree.appendAuditPathRanges, auditPathWith_map, id]

theorem copyLeaves_bytes (leaves : List Digest) : ∀ index,
    copyLeaves profile index (leaves.map Digest.bytes) = .ok leaves := by
  induction leaves with
  | nil => intro index; rfl
  | cons leaf rest ih => intro index; simp [copyLeaves, ih, bytesToHash]

theorem rootFromLeavesForSuite_eq (provider : Provider) (nonempty : leaves ≠ []) :
    rootFromLeavesForSuite hashes (Profile.ofProvider provider).suite
        (Profile.ofProvider provider).algorithm (leaves.map Digest.bytes) =
      .ok (treeRoot hashes (.ofProvider provider) leaves).bytes := by
  simp [rootFromLeavesForSuite, nonempty, copyLeaves_bytes, buildFromLeafHashes_root]

theorem rootFromLeavesForSuite_slice (provider : Provider) (positive : 0 < width)
    (inside : start + width ≤ leaves.length) :
    rootFromLeavesForSuite hashes (Profile.ofProvider provider).suite
        (Profile.ofProvider provider).algorithm (((leaves.map Digest.bytes).drop start).take width) =
      .ok (rangeRoot (hashNode hashes (.ofProvider provider)) (leafAt leaves) start width).bytes := by
  have nonempty : (leaves.drop start).take width ≠ [] := by
    apply ne_nil_of_length_pos
    simp only [length_take, length_drop]
    omega
  rw [← map_drop, ← map_take, rootFromLeavesForSuite_eq hashes provider nonempty,
    treeRoot_slice hashes _ positive inside]

theorem auditPathFromLeavesForSuite_eq (provider : Provider) (inside : index < leaves.length) :
    auditPathFromLeavesForSuite hashes (Profile.ofProvider provider).suite
        (Profile.ofProvider provider).algorithm (leaves.map Digest.bytes) index =
      .ok ((treePath hashes (.ofProvider provider) leaves index).map Digest.bytes) := by
  have nonempty : leaves ≠ [] := ne_nil_of_length_pos (by omega)
  have past : ¬leaves.length ≤ index := by omega
  simp [auditPathFromLeavesForSuite, nonempty, past, copyLeaves_bytes, proof_eq, inside]

/-- The functions without a suite argument hash as `INTL_V1` does. They describe another
provider's trees exactly when it is given the same hash function. -/
def HashesAsDefault (provider : Provider) : Prop :=
  provider = .intlV1Provider ∨ hashes.sha256 = hashes.sm3

variable {hashes}

section

variable (same : HashesAsDefault hashes provider)

include same

theorem HashesAsDefault.hashNode_eq :
    hashNode hashes (.ofProvider provider) = hashNode hashes (.ofProvider .intlV1Provider) := by
  rcases same with rfl | equal
  · rfl
  · cases provider with
    | intlV1Provider => rfl
    | cnSMV1Provider =>
      funext left right
      show hashes.sm3 _ = hashes.sha256 _
      rw [equal]
      rfl

theorem rootFromLeaves_eq (nonempty : leaves ≠ []) :
    rootFromLeaves hashes (leaves.map Digest.bytes) =
      .ok (treeRoot hashes (.ofProvider provider) leaves).bytes := by
  have default := rootFromLeavesForSuite_eq hashes .intlV1Provider nonempty
  rw [treeRoot, ← same.hashNode_eq] at default
  exact default

theorem rootFromLeaves_slice (positive : 0 < width) (inside : start + width ≤ leaves.length) :
    rootFromLeaves hashes (((leaves.map Digest.bytes).drop start).take width) =
      .ok (rangeRoot (hashNode hashes (.ofProvider provider)) (leafAt leaves) start width).bytes := by
  have default := rootFromLeavesForSuite_slice hashes .intlV1Provider positive inside
  rw [← same.hashNode_eq] at default
  exact default

theorem auditPathFromLeaves_eq (inside : index < leaves.length) :
    auditPathFromLeaves hashes (leaves.map Digest.bytes) index =
      .ok ((treePath hashes (.ofProvider provider) leaves index).map Digest.bytes) := by
  have default := auditPathFromLeavesForSuite_eq hashes .intlV1Provider inside
  rw [treePath, ← same.hashNode_eq] at default
  exact default

end

end

end TrustDB.Merkle
