import TrustDB.Merkle.Verifier

/-!
What an accepted Merkle proof says. A digest has 32 bytes, so no suite hash is
injective; collisions are excluded only among the inputs that the committed tree
and the verification run actually hash.
-/

namespace TrustDB.Merkle

open Result List CryptoSuite TrustCrypto HashTree Model

/-- Some run of `VerifyForSuite` ends with acceptance. -/
def Verifies (hashes : Hashes) (suiteID : ID) (treeAlgorithm : String) (leafHash : Bytes)
    (index treeSize : Nat) (auditPath : List Bytes) (root : Bytes) : Prop :=
  ∃ fuel, (verifyForSuite hashes fuel suiteID treeAlgorithm leafHash index treeSize auditPath
    root).run = some (.ok true)

section

variable {hashes : Hashes} {provider : Provider}

theorem verifyForSuite_run {fuel leafHash root index treeSize auditPath} :
    (verifyForSuite hashes fuel (Profile.ofProvider provider).suite
        (Profile.ofProvider provider).algorithm leafHash index treeSize auditPath root).run =
      (verifyWithProfile hashes fuel (.ofProvider provider) leafHash index treeSize auditPath
        root).map Except.ok := by
  simp only [verifyForSuite, profileForAlgorithm_profile, ExceptT.run_bind, ExceptT.run_mk, ExceptT.run_lift]
  rfl

theorem verifies_iff {leafHash root index treeSize auditPath} (small : treeSize ≤ 2 ^ 62) :
    Verifies hashes (Profile.ofProvider provider).suite (Profile.ofProvider provider).algorithm
        leafHash index treeSize auditPath root ↔
      accepts hashes (.ofProvider provider) leafHash index treeSize auditPath root = true := by
  constructor
  · rintro ⟨fuel, run⟩
    rw [verifyForSuite_run] at run
    obtain ⟨result, finished, same⟩ := Option.map_eq_some_iff.mp run
    rw [← verifyWithProfile_eq_some small finished]
    exact Except.ok.inj same
  · intro accepted
    refine ⟨Machine.enoughFuel, ?_⟩
    rw [verifyForSuite_run, verifyWithProfile_eq_accepts small (le_rfl), accepted]
    rfl

end

theorem accepts_of_verifyForSuite {hashes provider fuel treeAlgorithm leafHash root index treeSize auditPath}
    (range : treeSize < 2 ^ 64)
    (finished : Finishes (verifyForSuite hashes fuel provider.suite treeAlgorithm leafHash
      index treeSize auditPath root) true) :
    accepts hashes (.ofProvider provider) leafHash index treeSize auditPath root = true := by
  simp only [verifyForSuite, finishes_bind, finishes_mk, finishes_lift] at finished
  obtain ⟨profile, found, accepted⟩ := finished
  obtain ⟨other, suites, _, rfl⟩ := profileForAlgorithm_eq_ok.mp found
  rw [← Provider.suite_injective suites] at accepted
  by_cases small : treeSize ≤ 2 ^ 62
  · exact (verifyWithProfile_eq_some small accepted).symm
  · by_cases malformed : Malformed (.ofProvider provider) leafHash root index treeSize
    · simp [verifyWithProfile, malformed] at accepted
    · rw [verifyWithProfile_diverges malformed (by omega) range] at accepted
      simp at accepted

section

variable {hashes : Hashes} {profile : Profile} {leafHash root : Bytes} {index treeSize : Nat}
  {auditPath : List Bytes}

theorem accepts_iff :
    accepts hashes profile leafHash index treeSize auditPath root = true ↔
      leafHash.length = 32 ∧ index < treeSize ∧
        ∃ got : Digest, got.bytes = root ∧
          (rfcShape treeSize).rebuild (hashNode hashes profile) Digest.ofBytes?
            (bytesToHash leafHash) index auditPath = some (got, []) := by
  unfold accepts
  by_cases malformed : Malformed profile leafHash root index treeSize
  · rw [if_pos malformed]
    simp only [Bool.false_eq_true, false_iff]
    rintro ⟨leafLength, inside, got, rfl, _⟩
    rcases malformed with wrong | wrong | wrong | wrong
    · exact wrong (by simpa using leafLength)
    · exact wrong (by simp)
    · omega
    · omega
  · rw [if_neg malformed]
    simp only [Malformed, not_or, Profile.size_eq, ne_eq, not_not] at malformed
    obtain ⟨leafLength, _, _, inside⟩ := malformed
    constructor
    · intro accepted
      split at accepted
      · rename_i got rest rebuilt
        simp only [Bool.and_eq_true, List.isEmpty_iff, decide_eq_true_eq] at accepted
        obtain ⟨rfl, same⟩ := accepted
        exact ⟨leafLength, by omega, got, same, rebuilt⟩
      · simp at accepted
    · rintro ⟨_, _, got, same, rebuilt⟩
      simp [rebuilt, same]

theorem map_ofBytes?_eq {path : List Bytes} {digests : List Digest}
    (decoded : path.map Digest.ofBytes? = digests.map some) : path = digests.map Digest.bytes := by
  induction path generalizing digests with
  | nil =>
    cases digests with
    | nil => rfl
    | cons first rest => simp at decoded
  | cons bytes path ih =>
    cases digests with
    | nil => simp at decoded
    | cons first rest =>
      simp only [map_cons, cons.injEq] at decoded
      rw [Digest.ofBytes?_eq_some.mp decoded.1, ih decoded.2, map_cons]

end

variable {index : Nat} {hashes : Hashes} {profile : Profile} {provider : Provider}

theorem verifies_treePath (hashes : Hashes) (provider : Provider) {leaves} (inside : index < leaves.length)
    (bound : leaves.length ≤ 2 ^ 62) :
    Verifies hashes (Profile.ofProvider provider).suite (Profile.ofProvider provider).algorithm
      (leafAt leaves index).bytes index leaves.length
      ((treePath hashes (.ofProvider provider) leaves index).map Digest.bytes)
      (treeRoot hashes (.ofProvider provider) leaves).bytes := by
  have shapeSize : (rfcShape leaves.length).size = leaves.length := rfcShape_size (by omega)
  have rebuilt := Shape.rebuild_auditPath (hashNode hashes (.ofProvider provider)) Digest.ofBytes?
    Digest.bytes Digest.ofBytes?_bytes (leafAt leaves) (rfcShape leaves.length) 0 index [] (by omega)
  rw [append_nil, Nat.zero_add] at rebuilt
  rw [verifies_iff bound, accepts_iff]
  refine ⟨by simp, inside, treeRoot hashes (.ofProvider provider) leaves, rfl, ?_⟩
  rw [bytesToHash, Digest.ofBytes_bytes]
  exact rebuilt

/-- The pairs hashed by the commitment to `leaves` and by the verification of a proof. -/
def hashedPairs (hashes : Hashes) (profile : Profile) (leaves : List Digest) (leafHash : Bytes)
    (index treeSize : Nat) (auditPath : List Bytes) : List (Digest × Digest) :=
  (rfcShape leaves.length).rootPairs (hashNode hashes profile) (leafAt leaves) 0 ++
    (rfcShape treeSize).rebuildPairs (hashNode hashes profile) Digest.ofBytes?
      (bytesToHash leafHash) index auditPath

theorem leaf_of_accepts {leaves : List Digest} {leafHash : Bytes} {path : List Bytes}
    (free : CollisionFree (fun pair : Digest × Digest => hashNode hashes profile pair.1 pair.2)
      (hashedPairs hashes profile leaves leafHash index leaves.length path))
    (accepted : accepts hashes profile leafHash index leaves.length path
      (treeRoot hashes profile leaves).bytes = true) :
    leafHash = (leafAt leaves index).bytes ∧
      path = (treePath hashes profile leaves index).map Digest.bytes := by
  obtain ⟨leafLength, inside, got, same, rebuilt⟩ := accepts_iff.mp accepted
  have shapeSize : (rfcShape leaves.length).size = leaves.length := rfcShape_size (by omega)
  rw [Digest.bytes_injective same] at rebuilt
  obtain ⟨value, used, whole, decoded⟩ := Shape.rebuild_unique (leafAt leaves)
    (bytesToHash leafHash) (rfcShape leaves.length) 0 index path [] (by omega) free rebuilt
  rw [Nat.zero_add] at value
  refine ⟨?_, ?_⟩
  · rw [← value, bytesToHash, Digest.bytes_ofBytes leafLength]
  · rw [whole, append_nil, map_ofBytes?_eq decoded]
    rfl

/-- Verification accepts the committed leaf with its audit path, and nothing else. -/
theorem verifies_exactly_the_audit_path (hashes : Hashes) (provider : Provider)
    (leaves : List Digest) (index : Nat) (inside : index < leaves.length)
    (bound : leaves.length < 2 ^ 62) :
    ∃ path, (buildFromLeafHashes hashes (.ofProvider provider) leaves).proof index = .ok path ∧
      (buildFromLeafHashes hashes (.ofProvider provider) leaves).proofView index = .ok path ∧
      Verifies hashes (Profile.ofProvider provider).suite (Profile.ofProvider provider).algorithm
        (leafAt leaves index).bytes index leaves.length path
        (buildFromLeafHashes hashes (.ofProvider provider) leaves).root.bytes ∧
      ∀ (leafHash : Bytes) (other : List Bytes),
        CollisionFree (fun pair : Digest × Digest => hashNode hashes (.ofProvider provider) pair.1 pair.2)
          (hashedPairs hashes (.ofProvider provider) leaves leafHash index leaves.length other) →
        Verifies hashes (Profile.ofProvider provider).suite (Profile.ofProvider provider).algorithm
          leafHash index leaves.length other
          (buildFromLeafHashes hashes (.ofProvider provider) leaves).root.bytes →
        leafHash = (leafAt leaves index).bytes ∧ other = path := by
  have nonempty : leaves ≠ [] := List.ne_nil_of_length_pos (by omega)
  have root := buildFromLeafHashes_root hashes (.ofProvider provider) nonempty
  refine ⟨(treePath hashes (.ofProvider provider) leaves index).map Digest.bytes,
    proof_eq hashes _ inside, ?_, ?_, ?_⟩
  · rw [proofView_eq_proof]
    exact proof_eq hashes _ inside
  · rw [root]
    exact verifies_treePath hashes provider inside bound.le
  · intro leafHash other free accepted
    rw [verifies_iff (by omega), root] at accepted
    exact leaf_of_accepts free accepted

theorem verifies_exactly_the_audit_path_three :
    ∃ path, (buildFromLeafHashes .sample (.ofProvider .cnSMV1Provider)
        [.fill 1, .fill 2, .fill 3]).proof 2 = .ok path ∧
      Verifies .sample cnSmV1 merkleRFC6962SM3 (Digest.fill 3).bytes 2 3 path
        (buildFromLeafHashes .sample (.ofProvider .cnSMV1Provider)
          [.fill 1, .fill 2, .fill 3]).root.bytes ∧
      (Digest.fill 3).bytes = (leafAt [.fill 1, .fill 2, .fill 3] 2).bytes := by
  obtain ⟨path, proved, _, accepted, unique⟩ := verifies_exactly_the_audit_path .sample
    .cnSMV1Provider [.fill 1, .fill 2, .fill 3] 2 (by decide) (by decide)
  have path_eq : (buildFromLeafHashes .sample (.ofProvider .cnSMV1Provider)
      [.fill 1, .fill 2, .fill 3]).proof 2 =
        .ok [(hashNode .sample (.ofProvider .cnSMV1Provider) (.fill 1) (.fill 2)).bytes] := by rfl
  obtain rfl := Except.ok.inj (proved.symm.trans path_eq)
  exact ⟨_, proved, accepted, (unique (Digest.fill 3).bytes _ (by decide +kernel) accepted).1⟩

theorem nodeInput_injective {first second : Digest × Digest}
    (same : nodeInput profile first.1 first.2 = nodeInput profile second.1 second.2) :
    first = second := by
  simp only [nodeInput, cons.injEq, true_and] at same
  obtain ⟨left, right⟩ := append_inj same (by simp)
  exact Prod.ext (Digest.bytes_injective left) (Digest.bytes_injective right)

theorem nodeInput_ne_leafInput (profile : Profile) (left right : Digest) (record : ServerRecord) :
    nodeInput profile left right ≠ leafInput profile record := by
  intro same
  exact profile.prefixes_differ (cons.inj same).1.symm

theorem hashLeaves_eq_ok {suiteID} (records : List ServerRecord) : ∀ index leaves,
      hashLeaves hashes profile suiteID index records = .ok leaves →
        leaves = records.map (hashLeafArray hashes profile) := by
  induction records with
  | nil => intro index leaves hashed; simpa [hashLeaves] using hashed.symm
  | cons record rest ih =>
    intro index leaves hashed
    simp only [hashLeaves, bind_eq_ok] at hashed
    obtain ⟨_, _, others, restHashed, same⟩ := hashed
    rw [ih (index + 1) others restHashed] at same
    simpa using same.symm

theorem buildForSuite_eq_ok {records tree} (built : buildForSuite hashes (Profile.ofProvider provider).suite
      (Profile.ofProvider provider).algorithm records = .ok tree) :
    records ≠ [] ∧ tree = buildFromLeafHashes hashes (.ofProvider provider)
      (records.map (hashLeafArray hashes (.ofProvider provider))) := by
  by_cases empty : records.length = 0
  · simp [buildForSuite, empty] at built
  · simp only [buildForSuite, profileForAlgorithm_profile, ok_bind, empty, ↓reduceIte, bind_eq_ok] at built
    obtain ⟨leaves, hashed, same⟩ := built
    rw [hashLeaves_eq_ok records 0 leaves hashed] at same
    exact ⟨fun none => empty (by simp [none]), (Except.ok.inj same).symm⟩

theorem hashLeafForSuite_eq_ok {record leafHash}
    (hashed : hashLeafForSuite hashes (Profile.ofProvider provider).suite
      (Profile.ofProvider provider).algorithm record = .ok leafHash) :
    leafHash = (hashLeafArray hashes (.ofProvider provider) record).bytes := by
  simp only [hashLeafForSuite, profileForAlgorithm_profile, ok_bind, bind_eq_ok] at hashed
  obtain ⟨_, _, same⟩ := hashed
  exact (Except.ok.inj same).symm

/-- Everything hashed by the batch tree of `records` and by the verification of a proof that
`record` is in it. -/
def batchInputs (hashes : Hashes) (profile : Profile) (records : List ServerRecord)
    (record : ServerRecord) (index treeSize : Nat) (auditPath : List Bytes) : List Bytes :=
  (record :: records).map (leafInput profile) ++
    (hashedPairs hashes profile (records.map (hashLeafArray hashes profile))
      (hashLeafArray hashes profile record).bytes index treeSize auditPath).map
        fun pair => nodeInput profile pair.1 pair.2

theorem mem_of_accepts {records record treeSize auditPath} (nonempty : records ≠ [])
    (representable : ∀ each ∈ record :: records, Marshal.Representable each)
    (free : CollisionFree ((Profile.ofProvider provider).hashBytes hashes)
      (batchInputs hashes (.ofProvider provider) records record index treeSize auditPath))
    (accepted : accepts hashes (.ofProvider provider)
      (hashLeafArray hashes (.ofProvider provider) record).bytes index treeSize auditPath
      (treeRoot hashes (.ofProvider provider)
        (records.map (hashLeafArray hashes (.ofProvider provider)))).bytes = true) : record ∈ records := by
  have positive : 0 < records.length := length_pos_iff.mpr nonempty
  obtain ⟨_, inside, got, same, rebuilt⟩ := accepts_iff.mp accepted
  rw [Digest.bytes_injective same, bytesToHash, Digest.ofBytes_bytes] at rebuilt
  have leafMem (each : ServerRecord) (member : each ∈ record :: records) :
      leafInput (.ofProvider provider) each ∈
        batchInputs hashes (.ofProvider provider) records record index treeSize auditPath :=
    mem_append_left _ (mem_map_of_mem member)
  have nodeMem (pair : Digest × Digest)
      (member : pair ∈ hashedPairs hashes (.ofProvider provider)
        (records.map (hashLeafArray hashes (.ofProvider provider)))
        (hashLeafArray hashes (.ofProvider provider) record).bytes index treeSize auditPath) :
      nodeInput (.ofProvider provider) pair.1 pair.2 ∈
        batchInputs hashes (.ofProvider provider) records record index treeSize auditPath :=
    mem_append_right _ (mem_map_of_mem member)
  have leafOf (position : Nat) (within : position < records.length) :
      ∃ each ∈ records, leafAt (records.map (hashLeafArray hashes (.ofProvider provider))) position =
        hashLeafArray hashes (.ofProvider provider) each :=
    ⟨records[position], getElem_mem within, by simp [leafAt, within]⟩
  simp only [hashedPairs, bytesToHash, Digest.ofBytes_bytes, length_map] at nodeMem
  -- no inner node has the hash of a leaf: their inputs differ in the first byte
  have apart (pair : Digest × Digest) (each : ServerRecord) (eachMem : each ∈ record :: records)
      (pairMem : nodeInput (.ofProvider provider) pair.1 pair.2 ∈
        batchInputs hashes (.ofProvider provider) records record index treeSize auditPath) :
      hashNode hashes (.ofProvider provider) pair.1 pair.2 ≠
        hashLeafArray hashes (.ofProvider provider) each := by
    intro collides
    exact nodeInput_ne_leafInput _ _ _ _ (free _ pairMem _ (leafMem each eachMem) collides)
  simp only [treeRoot, rangeRoot, length_map] at rebuilt
  obtain ⟨position, _, within, found⟩ := Shape.rebuild_committed
    (leafAt (records.map (hashLeafArray hashes (.ofProvider provider))))
    (hashLeafArray hashes (.ofProvider provider) record) (rfcShape treeSize)
    (rfcShape records.length) 0 index auditPath [] (by rw [rfcShape_size (by omega)]; exact inside)
    (fun first firstMem second secondMem collides =>
      nodeInput_injective (free _ (nodeMem first firstMem) _ (nodeMem second secondMem) collides))
    (fun pair member => ⟨apart pair record mem_cons_self (nodeMem pair member),
      fun place _ upper => by
        rw [rfcShape_size positive, Nat.zero_add] at upper
        obtain ⟨each, eachMem, leaf⟩ := leafOf place upper
        rw [leaf]
        exact apart pair each (mem_cons_of_mem _ eachMem) (nodeMem pair member)⟩)
    rebuilt
  rw [rfcShape_size positive, Nat.zero_add] at within
  obtain ⟨each, eachMem, leaf⟩ := leafOf position within
  rw [leaf] at found
  have inputs := free _ (leafMem record mem_cons_self) _
    (leafMem each (mem_cons_of_mem _ eachMem)) found
  have encodings : Marshal.serverRecord record = Marshal.serverRecord each := (cons.inj inputs).2
  rw [Marshal.serverRecord_injective (representable record mem_cons_self)
    (representable each (mem_cons_of_mem _ eachMem)) encodings]
  exact eachMem

/-- Batch membership does not depend on the tree size a proof claims. -/
theorem batch_member_of_verifies (hashes : Hashes) (provider : Provider)
    (records : List ServerRecord) (tree : Tree) (record : ServerRecord) (leafHash : Bytes)
    (index treeSize : Nat) (auditPath : List Bytes)
    (built : buildForSuite hashes (Profile.ofProvider provider).suite
      (Profile.ofProvider provider).algorithm records = .ok tree)
    (hashed : hashLeafForSuite hashes (Profile.ofProvider provider).suite
      (Profile.ofProvider provider).algorithm record = .ok leafHash)
    (_inside : index < treeSize) (bound : treeSize < 2 ^ 62)
    (representable : ∀ each ∈ record :: records, Marshal.Representable each)
    (free : CollisionFree ((Profile.ofProvider provider).hashBytes hashes)
      (batchInputs hashes (.ofProvider provider) records record index treeSize auditPath))
    (accepted : Verifies hashes (Profile.ofProvider provider).suite
      (Profile.ofProvider provider).algorithm leafHash index treeSize auditPath tree.root.bytes) :
    record ∈ records := by
  obtain ⟨nonempty, rfl⟩ := buildForSuite_eq_ok built
  obtain rfl := hashLeafForSuite_eq_ok hashed
  have leavesNonempty : records.map (hashLeafArray hashes (.ofProvider provider)) ≠ [] := by
    simpa using nonempty
  rw [verifies_iff (by omega),
    buildFromLeafHashes_root hashes (.ofProvider provider) leavesNonempty] at accepted
  exact mem_of_accepts nonempty representable free accepted

def sampleRecord (recordID : String) : ServerRecord :=
  { (default : ServerRecord) with cryptoSuite := intlV1, recordID }

/-- The last of three records passes as the second of two, and is still one of the three. -/
theorem batch_member_of_verifies_claimed_two :
    sampleRecord "c" ∈ [sampleRecord "a", sampleRecord "b", sampleRecord "c"] :=
  batch_member_of_verifies .sample .intlV1Provider
    [sampleRecord "a", sampleRecord "b", sampleRecord "c"]
    (buildFromLeafHashes .sample (.ofProvider .intlV1Provider)
      ([sampleRecord "a", sampleRecord "b", sampleRecord "c"].map
        (hashLeafArray .sample (.ofProvider .intlV1Provider))))
    (sampleRecord "c") (hashLeafArray .sample (.ofProvider .intlV1Provider) (sampleRecord "c")).bytes
    1 2
    [(hashNode .sample (.ofProvider .intlV1Provider)
      (hashLeafArray .sample (.ofProvider .intlV1Provider) (sampleRecord "a"))
      (hashLeafArray .sample (.ofProvider .intlV1Provider) (sampleRecord "b"))).bytes]
    rfl rfl (by decide) (by decide) (by decide +kernel) (by decide +kernel)
    ((verifies_iff (by decide)).mpr (by decide +kernel))

end TrustDB.Merkle
