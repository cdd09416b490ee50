import TrustDB.GlobalLog.Reader
import TrustDB.ProofStore.Local

/-!
The global log over the file store, where an append is many file writes and may stop after
any of them. The log commits to the leaves that the state file counts: whatever lies
beyond is overwritten by the next append, except for the files that name leaves by batch.
-/

namespace TrustDB

namespace ProofStore

def Tables.Interrupted (tables : Tables) : Prop :=
  ∃ state, tables.state = some state ∧ ∃ batchID leaf,
    tables.leavesByBatch.lookup batchID = some leaf ∧ state.treeSize ≤ leaf.leafIndex

theorem Tables.interrupted_iff {tables : Tables} :
    tables.Interrupted ↔ ∃ state ∈ tables.state, ∃ entry ∈ tables.leavesByBatch.entries,
      state.treeSize ≤ entry.2.leafIndex := by
  constructor
  · rintro ⟨state, stored, batchID, leaf, named, beyond⟩
    exact ⟨state, stored, ⟨batchID, leaf⟩, AList.mem_lookup_iff.mp named, beyond⟩
  · rintro ⟨state, stored, ⟨batchID, leaf⟩, member, beyond⟩
    exact ⟨state, stored, batchID, leaf, AList.mem_lookup_iff.mpr member, beyond⟩

instance (tables : Tables) : Decidable tables.Interrupted :=
  decidable_of_iff _ Tables.interrupted_iff.symm

end ProofStore

namespace GlobalLog

open CryptoSuite TrustCrypto Merkle Model HashTree ProofStore

section

variable (hashes : Hashes) (codec : Codec) (provider : Provider)

structure Genuine (leaf : GlobalLogLeaf) : Prop where
  named : leaf.batchID ≠ ""
  suite : leaf.cryptoSuite = provider.suite
  hash : hashLeafWithProvider hashes codec provider leaf = .ok leaf.leafHash

structure HeadOf (digests : List Digest) (size : Nat) (sth : SignedTreeHead) : Prop where
  schema : sth.schemaVersion = schemaSignedTreeHead
  suite : sth.cryptoSuite = provider.suite
  algorithm : sth.treeAlg = (Profile.ofProvider provider).algorithm
  treeSize : sth.treeSize = size
  root : sth.rootHash = (treeRoot hashes (.ofProvider provider) (digests.take size)).bytes

/-- The files of a log that commits to leaves with these hashes. A file that names a leaf by
its batch may name one that is not committed. -/
structure Keeps (tables : Tables) (digests : List Digest) : Prop where
  genuine : ∀ index leaf, tables.leaves.lookup index = some leaf →
    leaf.leafIndex = index ∧ Genuine hashes codec provider leaf
  leaf : ∀ index, index < digests.length → ∃ leaf, tables.leaves.lookup index = some leaf ∧
    leaf.leafHash = (leafAt digests index).bytes
  node : ∀ level block, (block + 1) * 2 ^ level ≤ digests.length →
    ∃ node, tables.nodes.lookup (level, block * 2 ^ level) = some node ∧
      node.hash = (blockRoot (hashNode hashes (.ofProvider provider)) (leafAt digests) level
        block).bytes
  head : ∀ size sth, tables.heads.lookup size = some sth →
    0 < size ∧ size ≤ digests.length ∧ HeadOf hashes provider digests size sth
  byBatch : ∀ batchID leaf, tables.leavesByBatch.lookup batchID = some leaf →
    leaf.batchID = batchID ∧ Genuine hashes codec provider leaf ∧
      (leaf.leafIndex < digests.length → tables.leaves.lookup leaf.leafIndex = some leaf)

/-- The state file counts the committed leaves. Before there is one, at most the first leaf
has been written, and only its batch can be named. -/
def Counts (tables : Tables) (digests : List Digest) : Prop :=
  match tables.state with
  | some state => Tracks hashes provider digests state
  | none => digests = [] ∧ (∀ index leaf, tables.leaves.lookup index = some leaf → index = 0) ∧
      ∀ batchID leaf, tables.leavesByBatch.lookup batchID = some leaf →
        tables.leaves.lookup 0 = some leaf

def Sound (tables : Tables) : Prop :=
  ∃ digests, Keeps hashes codec provider tables digests ∧ Counts hashes provider tables digests

structure Ready (tables : Tables) (digests : List Digest) : Prop where
  keeps : Keeps hashes codec provider tables digests
  counts : Counts hashes provider tables digests
  tidy : ∀ batchID leaf, tables.leavesByBatch.lookup batchID = some leaf →
    leaf.leafIndex < digests.length
  unstarted : tables.state = none → ∀ index, tables.leaves.lookup index = none

structure Writing (tables : Tables) (digests : List Digest) (leaf : GlobalLogLeaf) : Prop where
  keeps : Keeps hashes codec provider tables digests
  counts : Counts hashes provider tables digests
  here : tables.leaves.lookup digests.length = some leaf
  tidy : ∀ batchID other, tables.leavesByBatch.lookup batchID = some other →
    other.leafIndex < digests.length ∨ other = leaf

end

section

variable {hashes : Hashes} {codec : Codec} {provider : Provider} {tables : Tables}
  {digests : List Digest} {leaf : GlobalLogLeaf}

theorem Ready.sound (ready : Ready hashes codec provider tables digests) :
    Sound hashes codec provider tables := ⟨digests, ready.keeps, ready.counts⟩

theorem Writing.sound (writing : Writing hashes codec provider tables digests leaf) :
    Sound hashes codec provider tables := ⟨digests, writing.keeps, writing.counts⟩

theorem Ready.not_interrupted (ready : Ready hashes codec provider tables digests) :
    ¬tables.Interrupted := by
  rintro ⟨state, stored, batchID, leaf, named, beyond⟩
  have tracked := ready.counts
  rw [Counts, stored] at tracked
  have committed := ready.tidy batchID leaf named
  rw [tracked.size] at beyond
  omega

theorem Ready.indexLeaf (ready : Ready hashes codec provider tables digests)
    (genuine : Genuine hashes codec provider leaf) (index : leaf.leafIndex = digests.length) :
    Writing hashes codec provider { tables with leaves := tables.leaves.insert leaf.leafIndex leaf }
      digests leaf := by
  have kept : ∀ position, position < digests.length →
      (tables.leaves.insert leaf.leafIndex leaf).lookup position = tables.leaves.lookup position := by
    intro position below
    exact AList.lookup_insert_ne (by omega)
  constructor
  · constructor
    · intro position other found
      by_cases same : position = leaf.leafIndex
      · subst same
        rw [AList.lookup_insert] at found
        cases found
        exact ⟨rfl, genuine⟩
      · rw [AList.lookup_insert_ne same] at found
        exact ready.keeps.genuine position other found
    · intro position below
      rw [kept position below]
      exact ready.keeps.leaf position below
    · exact ready.keeps.node
    · exact ready.keeps.head
    · intro batchID other named
      obtain ⟨batch, real, committed⟩ := ready.keeps.byBatch batchID other named
      refine ⟨batch, real, fun below => ?_⟩
      rw [kept _ below]
      exact committed below
  · have counted := ready.counts
    rw [Counts] at counted ⊢
    cases stated : tables.state with
    | some state => rwa [stated] at counted
    | none =>
      rw [stated] at counted
      obtain ⟨rfl, _, _⟩ := counted
      refine ⟨rfl, fun position other found => ?_, fun batchID other named => ?_⟩
      · by_cases same : position = leaf.leafIndex
        · exact same.trans index
        · rw [AList.lookup_insert_ne same, ready.unstarted stated] at found
          simp at found
      · exact absurd (ready.tidy batchID other named) (Nat.not_lt_zero _)
  · rw [← index]
    exact AList.lookup_insert _
  · exact fun batchID other named => .inl (ready.tidy batchID other named)

theorem Writing.nameLeaf (writing : Writing hashes codec provider tables digests leaf) :
    Writing hashes codec provider
      { tables with leavesByBatch := tables.leavesByBatch.insert leaf.batchID leaf } digests leaf := by
  have genuine := writing.keeps.genuine _ _ writing.here
  have cases : ∀ batchID other, (tables.leavesByBatch.insert leaf.batchID leaf).lookup batchID =
      some other → (batchID = leaf.batchID ∧ other = leaf) ∨
        tables.leavesByBatch.lookup batchID = some other := by
    intro batchID other found
    by_cases same : batchID = leaf.batchID
    · subst same
      rw [AList.lookup_insert] at found
      exact .inl ⟨rfl, (Option.some.inj found).symm⟩
    · rw [AList.lookup_insert_ne same] at found
      exact .inr found
  constructor
  · refine ⟨writing.keeps.genuine, writing.keeps.leaf, writing.keeps.node, writing.keeps.head, ?_⟩
    intro batchID other named
    rcases cases batchID other named with ⟨rfl, rfl⟩ | before
    · refine ⟨rfl, genuine.2, fun below => ?_⟩
      rw [genuine.1] at below
      exact absurd below (Nat.lt_irrefl _)
    · exact writing.keeps.byBatch batchID other before
  · have counted := writing.counts
    rw [Counts] at counted ⊢
    cases stated : tables.state with
    | some state => rwa [stated] at counted
    | none =>
      rw [stated] at counted
      obtain ⟨rfl, only, named⟩ := counted
      refine ⟨rfl, only, fun batchID other found => ?_⟩
      rcases cases batchID other found with ⟨_, rfl⟩ | before
      · exact writing.here
      · exact named batchID other before
  · exact writing.here
  · intro batchID other named
    rcases cases batchID other named with ⟨_, same⟩ | before
    · exact .inr same
    · exact writing.tidy batchID other before

def Beyond (digests : List Digest) (node : GlobalLogNode) : Prop :=
  ∀ block, (block + 1) * 2 ^ node.level ≤ digests.length → node.startIndex ≠ block * 2 ^ node.level

theorem Keeps.putNode (keeps : Keeps hashes codec provider tables digests) {node} (beyond : Beyond digests node) :
    Keeps hashes codec provider (tables.putNode node) digests := by
  refine ⟨keeps.genuine, keeps.leaf, ?_, keeps.head, keeps.byBatch⟩
  intro level block inside
  have other : (level, block * 2 ^ level) ≠ (node.level, node.startIndex) := by
    intro same
    obtain ⟨rfl, start⟩ := Prod.mk.inj same
    exact beyond block inside start.symm
  obtain ⟨stored, found, hash⟩ := keeps.node level block inside
  refine ⟨stored, ?_, hash⟩
  rw [Tables.putNode, AList.lookup_insert_ne other, found]

theorem Writing.putNode (writing : Writing hashes codec provider tables digests leaf) {node}
    (beyond : Beyond digests node) : Writing hashes codec provider (tables.putNode node) digests leaf :=
  ⟨writing.keeps.putNode beyond, writing.counts, writing.here, writing.tidy⟩

def Noded (hashes : Hashes) (provider : Provider) (digests : List Digest) (tables : Tables) : Prop :=
  ∀ level block, (block + 1) * 2 ^ level = digests.length →
    ∃ node, tables.nodes.lookup (level, block * 2 ^ level) = some node ∧
      node.hash = (blockRoot (hashNode hashes (.ofProvider provider)) (leafAt digests) level
        block).bytes

theorem HeadOf.append {size sth} (headed : HeadOf hashes provider digests size sth)
    (within : size ≤ digests.length) (more : List Digest) :
    HeadOf hashes provider (digests ++ more) size sth := by
  refine ⟨headed.schema, headed.suite, headed.algorithm, headed.treeSize, ?_⟩
  rw [List.take_append_of_le_length within]
  exact headed.root

theorem Writing.commit (writing : Writing hashes codec provider tables digests leaf) {digest}
    (hash : leaf.leafHash = digest.bytes) (noded : Noded hashes provider (digests ++ [digest]) tables) {state}
    (tracked : Tracks hashes provider (digests ++ [digest]) state) :
    Ready hashes codec provider { tables with state := some state } (digests ++ [digest]) := by
  have length : (digests ++ [digest]).length = digests.length + 1 := by simp
  constructor
  · constructor
    · exact writing.keeps.genuine
    · intro index below
      rw [length] at below
      by_cases last : index = digests.length
      · subst last
        refine ⟨leaf, writing.here, ?_⟩
        rw [leafAt_append_length, hash]
      · rw [leafAt_append_left (by omega)]
        exact writing.keeps.leaf index (by omega)
    · intro level block inside
      rw [length] at inside
      by_cases early : (block + 1) * 2 ^ level ≤ digests.length
      · obtain ⟨node, found, root⟩ := writing.keeps.node level block early
        refine ⟨node, found, ?_⟩
        rw [root, blockRoot_congr _ (Nat.lt_succ_self block) fun position below =>
          (leafAt_append_left (Nat.lt_of_lt_of_le below early)).symm]
      · exact noded level block (by omega)
    · intro size sth found
      obtain ⟨positive, within, headed⟩ := writing.keeps.head size sth found
      exact ⟨positive, by omega, headed.append within _⟩
    · intro batchID other named
      obtain ⟨batch, real, committed⟩ := writing.keeps.byBatch batchID other named
      refine ⟨batch, real, fun below => ?_⟩
      rcases writing.tidy batchID other named with early | same
      · exact committed early
      · rw [same, (writing.keeps.genuine _ _ writing.here).1]
        exact writing.here
  · exact tracked
  · intro batchID other named
    rcases writing.tidy batchID other named with early | same
    · omega
    · rw [same, (writing.keeps.genuine _ _ writing.here).1]
      omega
  · intro missing
    simp at missing

theorem Ready.addHead (ready : Ready hashes codec provider tables digests) {sth} (nonempty : 0 < digests.length)
    (headed : HeadOf hashes provider digests digests.length sth) :
    Ready hashes codec provider { tables with heads := tables.heads.insert digests.length sth }
      digests := by
  refine ⟨⟨ready.keeps.genuine, ready.keeps.leaf, ready.keeps.node, ?_, ready.keeps.byBatch⟩,
    ready.counts, ready.tidy, ready.unstarted⟩
  intro size other found
  by_cases same : size = digests.length
  · subst same
    rw [AList.lookup_insert] at found
    cases found
    exact ⟨nonempty, le_rfl, headed⟩
  · rw [AList.lookup_insert_ne same] at found
    exact ready.keeps.head size other found

end

end GlobalLog

end TrustDB
