import TrustDB.Merkle.Soundness
import TrustDB.Verify.Statement

/-!
What an accepted proof bundle proves, stage by stage up to an external anchor. Digests and
trees are related as in `TrustDB.Merkle.Soundness`: collisions are excluded among the inputs
that a candidate tree and the verification actually hash.
-/

namespace TrustDB.Verify

open Result CryptoSuite TrustCrypto Model Merkle HashTree

section

variable (hashes : Hashes) (codec : Codec) (signed : Bytes → Bytes → Prop) (provider : Provider)

/-- The content is the one the client claimed, the server took it in and committed it, and
its record is in the batch. -/
structure BatchEvidence (raw : Bytes) (bundle : ProofBundle) (keys : TrustedKeys) : Prop where
  contentHash : hashBytesWithProvider hashes provider provider.registered.contentHash.algorithm raw =
    .ok bundle.signedClaim.claim.content.contentHash
  contentLength : bundle.signedClaim.claim.content.contentLength = raw.length
  claim : Attests codec signed provider keys.clientPublicKey (.clientClaim bundle.signedClaim.claim)
  recordID : ∃ claimCBOR, codec.clientClaim bundle.signedClaim.claim = .ok claimCBOR ∧
    Claim.recordIDWithProvider hashes codec provider claimCBOR bundle.signedClaim.signature =
      .ok bundle.serverRecord.recordID
  accepted : Attests codec signed provider
    (publicKeyOrFallback keys.acceptedReceiptPublicKey keys.serverPublicKey)
    (.acceptedReceipt { bundle.acceptedReceipt with serverSig := default })
  acceptedRecord : bundle.acceptedReceipt.recordID = bundle.serverRecord.recordID ∧
    bundle.acceptedReceipt.receivedAtUnixN = bundle.serverRecord.receivedAtUnixN ∧
    bundle.acceptedReceipt.wal = bundle.serverRecord.wal
  committed : Attests codec signed provider
    (publicKeyOrFallback keys.committedReceiptPublicKey keys.serverPublicKey)
    (.committedReceipt { bundle.committedReceipt with serverSig := default })
  committedRecord : bundle.committedReceipt.recordID = bundle.serverRecord.recordID
  /-- The committed root is the root of a tree with the record at its position. -/
  opened : ∃ root : Digest, root.bytes = bundle.committedReceipt.batchRoot ∧
    Shape.Opens (hashNode hashes (.ofProvider provider)) (rfcShape bundle.batchProof.treeSize)
      bundle.batchProof.leafIndex (hashLeafArray hashes (.ofProvider provider) bundle.serverRecord) root
  /-- Every batch with the committed root has the record in it. -/
  member : ∀ records tree, buildForSuite hashes provider.suite provider.registered.merkle.algorithm
      records = .ok tree → tree.root.bytes = bundle.committedReceipt.batchRoot →
    (∀ each ∈ bundle.serverRecord :: records, Marshal.Representable each) →
    CollisionFree ((Profile.ofProvider provider).hashBytes hashes)
      (batchInputs hashes (.ofProvider provider) records bundle.serverRecord
        bundle.batchProof.leafIndex bundle.batchProof.treeSize bundle.batchProof.auditPath) →
    bundle.serverRecord ∈ records

def coveredLeaf (leaf : GlobalLogLeaf) : GlobalLogLeaf :=
  { leaf with leafHash := [], appendedAtUnixN := 0 }

def globalLeafInput (payload : Bytes) : Bytes :=
  provider.registered.merkle.leafPrefix :: (utf8 schemaGlobalLogLeaf ++ [0] ++ payload)

structure LogEvidence (bundle : ProofBundle) (keys : TrustedKeys) (binding : NamespaceBinding)
    (proof : GlobalLogProof) : Prop where
  head : Attests codec signed provider
    (publicKeyOrFallback keys.signedTreeHeadPublicKey keys.serverPublicKey)
    (.signedTreeHead { proof.sth with signature := default })
  named : proof.nodeID = binding.nodeID ∧ proof.logID = binding.logID
  inside : proof.leafIndex < proof.sth.treeSize
  /-- Every tree of the signed size and root has the leaf of this batch at its position. -/
  position : ∀ leaves : List Digest, leaves.length = proof.sth.treeSize →
    (treeRoot hashes (.ofProvider provider) leaves).bytes = proof.sth.rootHash →
    CollisionFree (fun pair : Digest × Digest => hashNode hashes (.ofProvider provider) pair.1 pair.2)
      (hashedPairs hashes (.ofProvider provider) leaves proof.leafHash proof.leafIndex leaves.length
        proof.inclusionPath) →
    GlobalLog.hashLeafWithProvider hashes codec provider (expectedLeaf provider.suite bundle proof) =
      .ok (leafAt leaves proof.leafIndex).bytes
  /-- No other leaf has the hash of this one. -/
  exactly : ∀ other payload otherPayload,
    codec.globalLogLeaf (expectedLeaf provider.suite bundle proof) = .ok payload →
    codec.globalLogLeaf (coveredLeaf other) = .ok otherPayload →
    CollisionFree ((Profile.ofProvider provider).hashBytes hashes)
      [globalLeafInput provider payload, globalLeafInput provider otherPayload] →
    GlobalLog.hashLeafWithProvider hashes codec provider other =
      GlobalLog.hashLeafWithProvider hashes codec provider (expectedLeaf provider.suite bundle proof) →
    coveredLeaf other = expectedLeaf provider.suite bundle proof

structure AnchorEvidence (binding : NamespaceBinding) (proof : GlobalLogProof)
    (ar : STHAnchorResult) : Prop where
  head : ar.sth = proof.sth
  node : ar.nodeID = binding.nodeID ∧ proof.sth.nodeID = binding.nodeID
  log : ar.logID = binding.logID ∧ proof.sth.logID = binding.logID
  size : ar.treeSize = proof.sth.treeSize
  root : ar.rootHash = proof.sth.rootHash

end

section

variable {hashes : Hashes} {codec : Codec} {primitives : Primitives} {ots : OtsReader}
  {signed : Bytes → Bytes → Prop} {provider : Provider} {fuel : Nat} {bundle : ProofBundle}
  {keys : TrustedKeys} {binding : NamespaceBinding} {proof : GlobalLogProof} {ar : STHAnchorResult}

@[simp] theorem finishes_atStage {α : Type} {stage : Stage} {check : ExceptT Err Option α} {value : α} :
    Finishes (atStage stage check) value ↔ Finishes check value := by
  simp [atStage]

@[simp] theorem finishes_step {α : Type} {check : Outcome α} {value : α} :
    Finishes (step check) value ↔ check = .ok value := by
  simp [step]

theorem requireAvailable_provider {suite} (found : requireAvailable provider.suite = .ok suite) :
    suite = provider.registered := by
  rw [requireAvailable_eq_ok, Provider.lookup_suite] at found
  exact (Option.some.inj found).symm

theorem registered_id : provider.registered.id = provider.suite := lookup_id provider.lookup_suite

theorem hashReader_eq_ok {alg raw sum n} (read : hashReaderWithProvider hashes provider alg raw = .ok (sum, n)) :
    hashBytesWithProvider hashes provider alg raw.data = .ok sum ∧ n = raw.data.length := by
  simp only [hashReaderWithProvider, bind_eq_ok, return_eq_ok, Prod.mk.injEq] at read
  obtain ⟨factory, found, _, _, rfl, rfl⟩ := read
  simp [hashBytesWithProvider, found]

theorem validateBundleBindings_eq_ok {verified}
    (accepted : validateBundleBindings hashes bundle verified provider = .ok ()) :
    (bundle.acceptedReceipt.recordID = verified.recordID ∧
      bundle.acceptedReceipt.receivedAtUnixN = bundle.serverRecord.receivedAtUnixN ∧
      bundle.acceptedReceipt.wal = bundle.serverRecord.wal) ∧
    bundle.committedReceipt.recordID = verified.recordID := by
  simp only [validateBundleBindings, bind_eq_ok, reject_eq_ok, not_not] at accepted
  obtain ⟨_, _, _, _, _, _, _, _, _, _, _, _, _, _, _, _, _, _, _, acceptedID, _, received, _, wal,
    _, _, _, committedID, _⟩ := accepted
  exact ⟨⟨acceptedID, received, wal⟩, committedID⟩

theorem ofProvider_suite : (Profile.ofProvider provider).suite = provider.suite := by
  cases provider <;> rfl

theorem ofProvider_algorithm :
    (Profile.ofProvider provider).algorithm = provider.registered.merkle.algorithm := by
  cases provider <;> rfl

theorem batch_of_accepts {record index treeSize auditPath batchRoot}
    (accepted : accepts hashes (.ofProvider provider)
      (hashLeafArray hashes (.ofProvider provider) record).bytes index treeSize auditPath batchRoot =
        true) : (∃ root : Digest, root.bytes = batchRoot ∧
      Shape.Opens (hashNode hashes (.ofProvider provider)) (rfcShape treeSize) index
        (hashLeafArray hashes (.ofProvider provider) record) root) ∧
    ∀ records tree, buildForSuite hashes provider.suite provider.registered.merkle.algorithm records =
        .ok tree → tree.root.bytes = batchRoot →
      (∀ each ∈ record :: records, Marshal.Representable each) →
      CollisionFree ((Profile.ofProvider provider).hashBytes hashes)
        (batchInputs hashes (.ofProvider provider) records record index treeSize auditPath) →
      record ∈ records := by
  constructor
  · obtain ⟨_, inside, root, same, rebuilt⟩ := accepts_iff.mp accepted
    rw [bytesToHash, Digest.ofBytes_bytes] at rebuilt
    refine ⟨root, same, Shape.opens_of_rebuild _ _ _ _ _ ?_ rebuilt⟩
    rw [rfcShape_size (by omega)]
    exact inside
  · intro records tree built same representable free
    rw [← ofProvider_suite, ← ofProvider_algorithm] at built
    obtain ⟨nonempty, rfl⟩ := buildForSuite_eq_ok built
    rw [buildFromLeafHashes_root hashes _ (by simpa using nonempty)] at same
    rw [← same] at accepted
    exact mem_of_accepts nonempty representable free accepted

theorem bundleStages_evidence (sound : Unforgeable primitives signed) (injective : InjectiveCodec codec)
    {raw : Reader} {verified : Claim.Verified} (range : bundle.batchProof.treeSize < 2 ^ 64)
    (finished : Finishes (bundleStages hashes codec primitives fuel raw bundle keys provider) verified) :
    BatchEvidence hashes codec signed provider raw.data bundle keys := by
  simp only [bundleStages, finishes_bind, finishes_atStage, finishes_step, finishes_adapt] at finished
  obtain ⟨_, _, suite, available, _, _, ⟨sum, n⟩, read, _, length, _, digest, checked, claimed, _,
    records, _, bindings, _, acceptedReceipt, _, committedReceipt, leaf, hashed, _, _, ok, merkle, _,
    passed, _⟩ := finished
  obtain rfl := requireAvailable_provider available
  obtain ⟨contentDigest, contentSize⟩ := hashReader_eq_ok read
  obtain ⟨claimAttested, contentAlgorithm, derivedID⟩ := attests_of_claim sound injective claimed
  obtain ⟨acceptedRecord, committedRecord⟩ := validateBundleBindings_eq_ok bindings
  simp only [reject_eq_ok, not_or, not_not] at length digest records
  rw [reject_eq_ok, Bool.not_eq_false] at passed
  rw [registered_id, ← ofProvider_suite, ← ofProvider_algorithm] at hashed
  rw [passed, registered_id, hashLeafForSuite_eq_ok hashed] at merkle
  obtain ⟨opened, member⟩ := batch_of_accepts (accepts_of_verifyForSuite range merkle)
  rw [records.2] at acceptedRecord committedRecord derivedID
  constructor
  · rw [← contentAlgorithm, contentDigest, digest]
  · rw [← length, contentSize]
  · exact claimAttested
  · exact derivedID
  · exact attests_of_receipt sound injective (.acceptedReceipt _) acceptedReceipt
  · exact acceptedRecord
  · exact attests_of_receipt sound injective (.committedReceipt _) committedReceipt
  · exact committedRecord
  · exact opened
  · exact member

theorem hashLeafWithProvider_eq_ok {leaf hash}
    (hashed : GlobalLog.hashLeafWithProvider hashes codec provider leaf = .ok hash) :
    ∃ payload, codec.globalLogLeaf (coveredLeaf leaf) = .ok payload ∧
      hash = ((Profile.ofProvider provider).hashBytes hashes (globalLeafInput provider payload)).bytes := by
  simp only [GlobalLog.hashLeafWithProvider, bind_eq_ok, return_eq_ok] at hashed
  obtain ⟨_, _, payload, marshalled, suite, available, _, _, factory, chosen, _, _, rfl⟩ := hashed
  obtain rfl := requireAvailable_provider available
  refine ⟨payload, marshalled, ?_⟩
  cases provider with
  | intlV1Provider =>
    obtain rfl : HashFactory.sha256Factory = factory := Except.ok.inj chosen
    rfl
  | cnSMV1Provider =>
    obtain rfl : HashFactory.sm3Factory = factory := Except.ok.inj chosen
    rfl

theorem globalLeafInput_injective {first second}
    (same : globalLeafInput provider first = globalLeafInput provider second) : first = second := by
  simp only [globalLeafInput, List.cons.injEq, true_and] at same
  exact List.append_cancel_left same

theorem coveredLeaf_unique (injective : InjectiveCodec codec) (leaf other : GlobalLogLeaf)
    {payload otherPayload hash} (marshalled : codec.globalLogLeaf (coveredLeaf leaf) = .ok payload)
    (otherMarshalled : codec.globalLogLeaf (coveredLeaf other) = .ok otherPayload)
    (free : CollisionFree ((Profile.ofProvider provider).hashBytes hashes)
      [globalLeafInput provider payload, globalLeafInput provider otherPayload])
    (hashed : GlobalLog.hashLeafWithProvider hashes codec provider leaf = .ok hash)
    (otherHashed : GlobalLog.hashLeafWithProvider hashes codec provider other = .ok hash) :
    coveredLeaf other = coveredLeaf leaf := by
  obtain ⟨found, foundMarshalled, rfl⟩ := hashLeafWithProvider_eq_ok hashed
  obtain ⟨otherFound, otherFoundMarshalled, same⟩ := hashLeafWithProvider_eq_ok otherHashed
  cases marshalled.symm.trans foundMarshalled
  cases otherMarshalled.symm.trans otherFoundMarshalled
  have inputs := free _ (by simp) _ (by simp) (Digest.bytes_injective same)
  rw [← globalLeafInput_injective inputs] at otherMarshalled
  exact injective.globalLogLeaf _ _ _ otherMarshalled marshalled

theorem accepts_of_verifyInclusion (range : proof.treeSize < 2 ^ 64)
    (included : GlobalLog.verifyInclusionWithProvider hashes fuel provider proof = some true) :
    proof.treeSize = proof.sth.treeSize ∧ proof.leafIndex < proof.treeSize ∧
      accepts hashes (.ofProvider provider) proof.leafHash proof.leafIndex proof.treeSize
        proof.inclusionPath proof.sth.rootHash = true := by
  have finished : Finishes
      (GlobalLog.verifyInclusionForSuite hashes fuel provider.suite proof) true := by
    obtain ⟨outcome, run, accepted⟩ := Option.map_eq_some_iff.mp included
    cases outcome with
    | ok value => rw [Finishes, run, show value = true from accepted]
    | error failure => simp at accepted
  unfold GlobalLog.verifyInclusionForSuite at finished
  split at finished
  · simp at finished
  · simp only [finishes_bind, finishes_mk] at finished
    obtain ⟨_, _, finished⟩ := finished
    split at finished
    · simp at finished
    · rename_i sizes
      split at finished
      · simp at finished
      · rename_i inside
        simp only [not_or, not_not, not_le] at sizes inside
        exact ⟨sizes.2, inside.2, accepts_of_verifyForSuite range finished⟩

theorem exactNamespace_eq_ok {subject nodeID logID sth}
    (accepted : exactNamespace subject binding nodeID logID sth = .ok ()) :
    (nodeID = binding.nodeID ∧ sth.nodeID = binding.nodeID) ∧
      logID = binding.logID ∧ sth.logID = binding.logID := by
  simp only [exactNamespace, bind_eq_ok, reject_eq_ok, not_or, not_not] at accepted
  obtain ⟨_, ⟨_, nodes⟩, _, logs⟩ := accepted
  exact ⟨nodes, logs⟩

theorem checkGlobalProof_eq_ok {suite} (accepted : checkGlobalProof bundle proof provider = .ok suite) :
    suite = provider.registered := by
  simp only [checkGlobalProof, bind_eq_ok, return_eq_ok] at accepted
  obtain ⟨_, _, _, _, found, available, _, _, _, _, _, _, _, _, _, _, _, _, _, _, _, _, _, _, _, _,
    rfl⟩ := accepted
  exact requireAvailable_provider available

theorem globalStage_evidence (sound : Unforgeable primitives signed) (injective : InjectiveCodec codec)
    {done : Unit} (range : proof.treeSize < 2 ^ 64) (finished : Finishes
      (globalStage hashes codec primitives fuel bundle keys provider (some binding) proof) done) :
    LogEvidence hashes codec signed provider bundle keys binding proof := by
  simp only [globalStage, verifyGlobalLogProof, globalLogConsistencyWithProvider,
    finishes_bind, finishes_atStage, finishes_step, finishes_lift] at finished
  obtain ⟨_, exactly, _, ⟨suite, checks, included, inclusion, _, passed, hash, hashed, matched⟩,
    head⟩ := finished
  rw [reject_eq_ok, Bool.not_eq_false] at passed
  rw [reject_eq_ok, not_not] at matched
  obtain rfl := checkGlobalProof_eq_ok checks
  obtain ⟨⟨nodes, _⟩, logs, _⟩ := exactNamespace_eq_ok exactly
  rw [passed] at inclusion
  obtain ⟨sizes, inside, accepted⟩ := accepts_of_verifyInclusion range inclusion
  rw [registered_id, matched] at hashed
  constructor
  · exact attests_of_signedTreeHead sound injective head
  · exact ⟨nodes, logs⟩
  · rw [← sizes]
    exact inside
  · intro leaves length root free
    rw [← root, sizes, ← length] at accepted
    rw [hashed, (leaf_of_accepts free accepted).1]
  · intro other payload otherPayload marshalled otherMarshalled free same
    exact coveredLeaf_unique injective (expectedLeaf provider.suite bundle proof) other marshalled
      otherMarshalled free hashed (same.trans hashed)

theorem sameSignedTreeHead_eq {left right} (same : sameSignedTreeHead left right = true) : left = right := by
  cases left
  cases right
  rename_i leftSignature _ _ _ _ _ _ _ _ rightSignature
  cases leftSignature
  cases rightSignature
  simp_all [sameSignedTreeHead]

theorem anchorStage_evidence {options : Options} {done : Unit} (given : options.global = some proof)
    (bound : options.binding = some binding) (finished : Finishes (anchorStage hashes ots options ar) done) :
    AnchorEvidence binding proof ar := by
  simp only [anchorStage, given, bound, finishes_bind, finishes_atStage,
    finishes_step, anchorConsistencyWithVerifier, bind_eq_ok] at finished
  obtain ⟨_, exactly, _, binds, _⟩ := finished
  simp only [anchorBindingConsistency, bind_eq_ok, reject_eq_ok, not_not] at binds
  obtain ⟨_, _, _, _, _, _, _, _, _, _, _, size, _, _, _, _, _, root, _, _, _, _, same⟩ := binds
  rw [Bool.not_eq_false] at same
  have head := sameSignedTreeHead_eq same
  obtain ⟨nodes, logs⟩ := exactNamespace_eq_ok exactly
  rw [head] at nodes logs
  exact ⟨head, nodes, logs, size, root⟩

theorem proofBundle_anchored {raw : Reader} {options : Options} {result : ProofResult}
    (finished : Finishes (proofBundle hashes codec primitives ots fuel raw bundle keys options) result)
    (level : result.proofLevel = "L5") :
    ∃ verified proof ar, options.global = some proof ∧ options.anchor = some ar ∧
      Finishes (bundleStages hashes codec primitives fuel raw bundle keys
        (keys.cryptoProvider.getD defaultProvider)) verified ∧
      Finishes (globalStage hashes codec primitives fuel bundle keys
        (keys.cryptoProvider.getD defaultProvider) options.binding proof) () ∧
      Finishes (anchorStage hashes ots options ar) () := by
  simp only [proofBundle, finishes_bind] at finished
  obtain ⟨verified, batch, evidence, logged, finished⟩ := finished
  cases anchored : options.anchor with
  | none =>
    simp only [anchored, finishes_pure] at finished
    rw [← finished] at level
    have top : ProofLevel.evaluate evidence = .l5 :=
      ProofLevel.Level.string_injective (level.trans rfl)
    have marked := ProofLevel.anchored_of_evaluate top
    cases given : options.global with
    | none =>
      simp only [given, finishes_pure] at logged
      rw [← logged] at marked
      exact absurd marked (by decide)
    | some proof =>
      simp only [given, finishes_bind, finishes_pure] at logged
      obtain ⟨_, _, logged⟩ := logged
      rw [← logged] at marked
      exact absurd marked (by decide)
  | some ar =>
    simp only [anchored, finishes_bind] at finished
    obtain ⟨_, anchor, _⟩ := finished
    cases given : options.global with
    | none => simp [anchorStage, given] at anchor
    | some proof =>
      simp only [given, finishes_bind] at logged
      obtain ⟨_, log, _⟩ := logged
      exact ⟨verified, proof, ar, rfl, rfl, batch, log, anchor⟩

end

/-- A bundle accepted at L5 within an exact namespace proves the whole chain: who claimed the
content, who accepted and committed it, where it stands in the batch and the batch in the
log, and that the anchor is for that very tree head. Sizes are 64-bit values. -/
theorem proofBundle_l5_evidence (hashes : Hashes) (codec : Codec) (primitives : Primitives)
    (ots : OtsReader) (signed : Bytes → Bytes → Prop) (sound : Unforgeable primitives signed)
    (injective : InjectiveCodec codec) (fuel : Nat) (raw : Reader) (bundle : ProofBundle)
    (keys : TrustedKeys) (options : Options) (binding : NamespaceBinding) (result : ProofResult)
    (bound : options.binding = some binding) (batchRange : bundle.batchProof.treeSize < 2 ^ 64)
    (logRange : ∀ proof ∈ options.global, proof.treeSize < 2 ^ 64)
    (accepted : Finishes
      (proofBundle hashes codec primitives ots fuel raw bundle keys options) result)
    (level : result.proofLevel = "L5") :
    ∃ proof ar, options.global = some proof ∧ options.anchor = some ar ∧
      BatchEvidence hashes codec signed (keys.cryptoProvider.getD defaultProvider) raw.data bundle keys ∧
      LogEvidence hashes codec signed (keys.cryptoProvider.getD defaultProvider) bundle keys binding
        proof ∧
      AnchorEvidence binding proof ar := by
  obtain ⟨verified, proof, ar, given, anchored, batch, log, anchor⟩ :=
    proofBundle_anchored accepted level
  rw [bound] at log
  refine ⟨proof, ar, given, anchored, ?_, ?_, ?_⟩
  · exact bundleStages_evidence sound injective batchRange batch
  · exact globalStage_evidence sound injective (logRange proof given) log
  · exact anchorStage_evidence given bound anchor

def knows {α : Type} [DecidableEq α] (known : α) (tag : UInt8) (value : α) : Outcome Bytes :=
  if value = known then .ok [tag] else .error (.text "unknown record")

theorem unambiguous_knows {α : Type} [DecidableEq α] (known : α) (tag : UInt8) :
    Unambiguous (knows known tag) := by
  intro first second bytes firstOk secondOk
  unfold knows at firstOk secondOk
  split at firstOk <;> split at secondOk <;> simp_all

def loggedPrimitives (log : List (Bytes × Bytes × Bytes)) : Primitives where
  ed25519Verify := fun key message signature => decide ((key, message, signature) ∈ log)
  sm2Verify := fun key message signature => decide ((key, message, signature) ∈ log)
  sm2Point := .ok
  asn1Unmarshal := fun _ => .error (.text "no signature")
  asn1Marshal := fun _ => .error (.text "no signature")
  sm2Order := 0

def Logged (log : List (Bytes × Bytes × Bytes)) (key message : Bytes) : Prop :=
  ∃ signature, (key, message, signature) ∈ log

theorem unforgeable_logged (log : List (Bytes × Bytes × Bytes)) :
    Unforgeable (loggedPrimitives log) (Logged log) where
  ed25519 := fun _ _ signature valid => ⟨signature, of_decide_eq_true valid⟩
  sm2 := fun _ _ signature valid => ⟨signature, of_decide_eq_true valid⟩

namespace Sample

def content : Bytes := [1, 2, 3]

def claim : ClientClaim := {
  (default : ClientClaim) with
  schemaVersion := schemaClientClaim
  cryptoSuite := intlV1
  keyID := "client"
  content := {
    (default : Content) with
    hashAlg := hashSHA256
    contentHash := (Hashes.sample.sha256 content).bytes
    contentLength := 3 } }

def signature (keyID : String) : Signature where
  alg := signatureEd25519
  keyID := keyID
  signature := List.replicate 64 7

def recordID : String :=
  "tr2" ++ Claim.base32Lower (Hashes.sample.sha256 (utf8 "trustdb.record-id.v1" ++ [0])).bytes

def record : ServerRecord := {
  (default : ServerRecord) with
  schemaVersion := schemaServerRecord
  cryptoSuite := intlV1
  recordID := recordID
  keyID := "client"
  claimHash := (Hashes.sample.sha256 [1]).bytes
  clientSignatureHash := (Hashes.sample.sha256 (signature "client").signature).bytes }

def leafHash : Digest := hashLeafArray .sample (.ofProvider .intlV1Provider) record

def batchRoot : Digest := hashNode .sample (.ofProvider .intlV1Provider) (.fill 9) leafHash

def acceptedReceipt : AcceptedReceipt := {
  (default : AcceptedReceipt) with
  schemaVersion := schemaAcceptedReceipt
  cryptoSuite := intlV1
  recordID := recordID }

def committedReceipt : CommittedReceipt := {
  (default : CommittedReceipt) with
  schemaVersion := schemaCommittedReceipt
  cryptoSuite := intlV1
  recordID := recordID
  batchID := "batch"
  leafIndex := 1
  leafHash := leafHash.bytes
  batchRoot := batchRoot.bytes }

def bundle : ProofBundle where
  schemaVersion := schemaProofBundle
  cryptoSuite := intlV1
  recordID := recordID
  nodeID := "node"
  logID := "log"
  signedClaim := {
    schemaVersion := schemaSignedClaim
    cryptoSuite := intlV1
    claim := claim
    signature := signature "client" }
  serverRecord := record
  acceptedReceipt := { acceptedReceipt with serverSig := signature "server" }
  committedReceipt := { committedReceipt with serverSig := signature "server" }
  batchProof := {
    treeAlg := merkleRFC6962SHA256
    leafIndex := 1
    treeSize := 2
    auditPath := [(Digest.fill 9).bytes] }

def globalLeaf : GlobalLogLeaf where
  schemaVersion := schemaGlobalLogLeaf
  cryptoSuite := intlV1
  nodeID := "node"
  logID := "log"
  batchID := "batch"
  batchRoot := batchRoot.bytes
  batchTreeSize := 2
  batchClosedAtUnixN := 0
  leafIndex := 0
  leafHash := []
  appendedAtUnixN := 0

def globalLeafHash : Digest :=
  Hashes.sample.sha256 (globalLeafInput .intlV1Provider [5])

def sth : SignedTreeHead := {
  (default : SignedTreeHead) with
  schemaVersion := schemaSignedTreeHead
  cryptoSuite := intlV1
  treeAlg := merkleRFC6962SHA256
  treeSize := 2
  rootHash := (hashNode .sample (.ofProvider .intlV1Provider) globalLeafHash (.fill 8)).bytes
  nodeID := "node"
  logID := "log" }

def proof : GlobalLogProof where
  schemaVersion := schemaGlobalLogProof
  cryptoSuite := intlV1
  nodeID := "node"
  logID := "log"
  batchID := "batch"
  leafIndex := 0
  leafHash := globalLeafHash.bytes
  treeSize := 2
  inclusionPath := [(Digest.fill 8).bytes]
  sth := { sth with signature := signature "server" }
  consistency := default

def anchor : STHAnchorResult where
  schemaVersion := schemaSTHAnchorResult
  cryptoSuite := intlV1
  nodeID := "node"
  logID := "log"
  treeSize := 2
  sinkName := "notary"
  anchorID := "entry"
  rootHash := sth.rootHash
  sth := { sth with signature := signature "server" }
  proof := []
  evidenceStage := anchorEvidenceStageOfflineVerified
  publishedAtUnixN := 0

def codec : Codec where
  clientClaim := knows claim 1
  recordIDInput := fun _ => .ok []
  acceptedReceipt := knows acceptedReceipt 2
  committedReceipt := knows committedReceipt 3
  signedTreeHead := knows sth 4
  globalLogLeaf := knows globalLeaf 5

theorem codec_injective : InjectiveCodec codec where
  clientClaim := unambiguous_knows _ _
  acceptedReceipt := unambiguous_knows _ _
  committedReceipt := unambiguous_knows _ _
  signedTreeHead := unambiguous_knows _ _
  globalLogLeaf := unambiguous_knows _ _

def key (fill : UInt8) : PublicKeyDescriptor where
  suite := intlV1
  keyID := ""
  algorithm := signatureEd25519
  encoding := ed25519PublicKeyEncoding
  bytes := List.replicate 32 fill

def signingLog : List (Bytes × Bytes × Bytes) :=
  [(1, SignaturePurpose.clientClaim, 1), (2, .acceptedReceipt, 2), (2, .committedReceipt, 3),
    (2, .signedTreeHead, 4)].map fun (owner, purpose, tag) =>
      ((key owner).bytes, Provider.intlV1Provider.frame purpose ++ [tag], List.replicate 64 7)

def keys : TrustedKeys where
  clientPublicKey := key 1
  serverPublicKey := key 2
  acceptedReceiptPublicKey := default
  committedReceiptPublicKey := default
  signedTreeHeadPublicKey := default
  cryptoProvider := none

def options : Options where
  global := some proof
  anchor := some anchor
  anchorVerifier := some fun _ _ => .ok ()
  binding := some { nodeID := "node", logID := "log" }

def ots : OtsReader where
  unmarshal := fun _ => .error (.text "no envelope")
  parseOtsTimestamp := fun _ _ => .error (.text "no timestamp")

end Sample

open Sample

theorem proofBundle_l5_evidence_sample :
    BatchEvidence .sample Sample.codec (Logged Sample.signingLog) .intlV1Provider Sample.content
        Sample.bundle Sample.keys ∧
      LogEvidence .sample Sample.codec (Logged Sample.signingLog) .intlV1Provider Sample.bundle
        Sample.keys { nodeID := "node", logID := "log" } Sample.proof ∧
      AnchorEvidence { nodeID := "node", logID := "log" } Sample.proof Sample.anchor := by
  obtain ⟨proof, ar, given, anchored, batch, log, anchor⟩ := proofBundle_l5_evidence .sample
    Sample.codec (loggedPrimitives Sample.signingLog) Sample.ots (Logged Sample.signingLog)
    (unforgeable_logged _) Sample.codec_injective 128 { data := Sample.content, failure := none }
    Sample.bundle Sample.keys Sample.options { nodeID := "node", logID := "log" }
    { valid := true, recordID := Sample.recordID, proofLevel := "L5", anchorSink := "notary",
      anchorID := "entry" }
    rfl (by decide) (by decide) (by decide +kernel) rfl
  obtain rfl := Option.some.inj given
  obtain rfl := Option.some.inj anchored
  exact ⟨batch, log, anchor⟩

end TrustDB.Verify
