import TrustDB.GlobalLog.Append
import TrustDB.ProofStore.Pebble

/-!
What the log is for: a list of leaves that only grows, one per batch, in which every
tree head commits to the leaves up to its own. A database represents such a ledger
when its tables are what the ledger determines.
-/

namespace TrustDB.GlobalLog

open Result List CryptoSuite TrustCrypto Merkle Model HashTree ProofStore

structure Entry where
  leaf : GlobalLogLeaf
  head : SignedTreeHead
  deriving DecidableEq

def Entry.digest (entry : Entry) : Digest := bytesToHash entry.leaf.leafHash

def Entry.batchID (entry : Entry) : String := entry.leaf.batchID

structure Entry.Follows (hashes : Hashes) (codec : Codec) (provider : Provider)
    (digests : List Digest) (entry : Entry) : Prop where
  named : entry.leaf.batchID ≠ ""
  index : entry.leaf.leafIndex = digests.length
  schema : entry.leaf.schemaVersion = schemaGlobalLogLeaf
  suite : entry.leaf.cryptoSuite = provider.suite
  hash : hashLeafWithProvider hashes codec provider entry.leaf = .ok entry.leaf.leafHash
  headSchema : entry.head.schemaVersion = schemaSignedTreeHead
  headSuite : entry.head.cryptoSuite = provider.suite
  headAlg : entry.head.treeAlg = (Profile.ofProvider provider).algorithm
  headSize : entry.head.treeSize = digests.length + 1
  headRoot : entry.head.rootHash =
    (treeRoot hashes (.ofProvider provider) (digests ++ [entry.digest])).bytes
  headNode : entry.head.nodeID = entry.leaf.nodeID
  headLog : entry.head.logID = entry.leaf.logID

structure Ledger (hashes : Hashes) (codec : Codec) (provider : Provider) where
  entries : List Entry
  follows : ∀ index (entry : Entry), entries[index]? = some entry →
    entry.Follows hashes codec provider ((entries.take index).map Entry.digest)
  distinct : (entries.map Entry.batchID).Nodup

namespace Ledger

variable {hashes : Hashes} {codec : Codec} {provider : Provider}

def digests (ledger : Ledger hashes codec provider) : List Digest := ledger.entries.map Entry.digest

def batchIDs (ledger : Ledger hashes codec provider) : List String :=
  ledger.entries.map Entry.batchID

@[simp] theorem length_digests (ledger : Ledger hashes codec provider) :
    ledger.digests.length = ledger.entries.length := length_map ..

def empty (hashes : Hashes) (codec : Codec) (provider : Provider) : Ledger hashes codec provider where
  entries := []
  follows := by simp
  distinct := nodup_nil

def append (ledger : Ledger hashes codec provider) (entry : Entry)
    (follows : entry.Follows hashes codec provider ledger.digests)
    (fresh : entry.batchID ∉ ledger.batchIDs) : Ledger hashes codec provider where
  entries := ledger.entries ++ [entry]
  follows := by
    intro index other found
    rcases Nat.lt_trichotomy index ledger.entries.length with below | here | above
    · rw [getElem?_append_left below] at found
      rw [take_append_of_le_length below.le]
      exact ledger.follows index other found
    · subst here
      obtain rfl : entry = other := by simpa using found
      simpa [digests] using follows
    · rw [getElem?_eq_none (by simp; omega)] at found
      simp at found
  distinct := by
    rw [map_append]
    refine Nodup.append ledger.distinct (nodup_singleton _) ?_
    exact disjoint_singleton.mpr fresh

section

variable (ledger : Ledger hashes codec provider) (entry : Entry)
  (follows : entry.Follows hashes codec provider ledger.digests) (fresh : entry.batchID ∉ ledger.batchIDs)
include ledger entry follows fresh

@[simp] theorem append_entries :
    (ledger.append entry follows fresh).entries = ledger.entries ++ [entry] := rfl

@[simp] theorem append_digests :
    (ledger.append entry follows fresh).digests = ledger.digests ++ [entry.digest] := by
  simp [digests]

@[simp] theorem append_batchIDs :
    (ledger.append entry follows fresh).batchIDs = ledger.batchIDs ++ [entry.batchID] := by
  simp [batchIDs]

end

end Ledger

variable {hashes : Hashes} {codec : Codec} {provider : Provider}

theorem hashLeafWithProvider_length {leaf hash}
    (hashed : hashLeafWithProvider hashes codec provider leaf = .ok hash) : hash.length = 32 := by
  simp only [hashLeafWithProvider, bind_eq_ok, return_eq_ok] at hashed
  obtain ⟨_, _, _, _, _, _, _, _, _, _, _, _, rfl⟩ := hashed
  exact Digest.bytes_length _

theorem Entry.Follows.digest_bytes
    {digests : List Digest} {entry : Entry} (follows : entry.Follows hashes codec provider digests) :
    entry.leaf.leafHash = entry.digest.bytes :=
  (Digest.bytes_ofBytes (hashLeafWithProvider_length follows.hash)).symm

theorem Ledger.leafIndex (ledger : Ledger hashes codec provider) {index : Nat} {entry : Entry}
    (found : ledger.entries[index]? = some entry) : entry.leaf.leafIndex = index := by
  have inside := (List.getElem?_eq_some_iff.mp found).1
  rw [(ledger.follows index entry found).index, List.length_map, List.length_take, Nat.min_eq_left inside.le]

structure Indexes {hashes : Hashes} {codec : Codec} {provider : Provider} (tables : Tables)
    (ledger : Ledger hashes codec provider) : Prop where
  leaves : ∀ index, tables.leaves.lookup index = (ledger.entries[index]?).map Entry.leaf
  byBatch : ∀ batchID, tables.leavesByBatch.lookup batchID =
    (ledger.entries.find? fun entry => entry.batchID = batchID).map Entry.leaf
  nodeSound : ∀ level start node, tables.nodes.lookup (level, start) = some node →
    ∃ block, (block + 1) * 2 ^ level ≤ ledger.entries.length ∧ start = block * 2 ^ level ∧
      node.hash = (blockRoot (hashNode hashes (.ofProvider provider)) (leafAt ledger.digests) level
        block).bytes
  nodeComplete : ∀ level block, (block + 1) * 2 ^ level ≤ ledger.entries.length →
    (tables.nodes.lookup (level, block * 2 ^ level)).isSome
  heads : ∀ size, tables.heads.lookup size =
    if size = 0 then none else (ledger.entries[size - 1]?).map Entry.head

structure Represents {hashes : Hashes} {codec : Codec} {provider : Provider} (tables : Tables)
    (ledger : Ledger hashes codec provider) : Prop where
  indexes : Indexes tables ledger
  stateless : ledger.entries = [] → tables.state = none
  state : ledger.entries ≠ [] → ∃ state, tables.state = some state ∧
    Tracks hashes provider ledger.digests state

theorem represents_empty (hashes : Hashes) (codec : Codec) (provider : Provider) :
    Represents Tables.empty (Ledger.empty hashes codec provider) where
  indexes := {
    leaves := by intro index; simp [Tables.empty, Ledger.empty]
    byBatch := by intro batchID; simp [Tables.empty, Ledger.empty]
    nodeSound := by intro level start node found; simp [Tables.empty] at found
    nodeComplete := by
      intro level block inside
      have positive : 0 < (block + 1) * 2 ^ level := Nat.mul_pos block.succ_pos (Nat.two_pow_pos level)
      simp only [Ledger.empty, length_nil] at inside
      omega
    heads := by intro size; simp [Tables.empty, Ledger.empty] }
  stateless := fun _ => rfl
  state := fun nonempty => absurd rfl nonempty

def entryOf (entry : GlobalLogAppend) : Entry := ⟨entry.leaf, entry.sth⟩

@[simp] theorem entryOf_leaf (entry : GlobalLogAppend) : (entryOf entry).leaf = entry.leaf := rfl

@[simp] theorem entryOf_head (entry : GlobalLogAppend) : (entryOf entry).head = entry.sth := rfl

/-- An append that carries its ledger from these leaf hashes and batches to one more. -/
structure Grows (hashes : Hashes) (codec : Codec) (provider : Provider) (digests : List Digest)
    (batchIDs : List String) (entry : GlobalLogAppend) : Prop where
  follows : (entryOf entry).Follows hashes codec provider digests
  fresh : (entryOf entry).batchID ∉ batchIDs
  nodes : Emitted hashes provider (digests ++ [(entryOf entry).digest]) digests.length entry.nodes
  state : Tracks hashes provider (digests ++ [(entryOf entry).digest]) entry.state

def GrowsBy (hashes : Hashes) (codec : Codec) (provider : Provider) :
    List Digest → List String → List GlobalLogAppend → Prop
  | _, _, [] => True
  | digests, batchIDs, entry :: rest =>
    Grows hashes codec provider digests batchIDs entry ∧
      GrowsBy hashes codec provider (digests ++ [(entryOf entry).digest])
        (batchIDs ++ [(entryOf entry).batchID]) rest

theorem getElem?_append_one {α : Type} (values : List α) (value : α) (index : Nat) :
    (values ++ [value])[index]? = if index = values.length then some value else values[index]? := by
  split
  · rename_i last
    subst last
    simp
  · rename_i other
    rcases Nat.lt_or_gt_of_ne other with below | above
    · rw [getElem?_append_left below]
    · rw [getElem?_eq_none (by simp; omega), getElem?_eq_none (by omega)]

section

variable {hashes : Hashes} {codec : Codec} {provider : Provider} {tables : Tables}
  {ledger : Ledger hashes codec provider} {entry : GlobalLogAppend} {stamps : Stamps}
  {written : GlobalLogAppend}

section

variable (grows : Grows hashes codec provider ledger.digests ledger.batchIDs entry)
include grows

theorem Grows.leafIndex : entry.leaf.leafIndex = ledger.entries.length := by
  simpa using grows.follows.index

theorem Grows.treeSize : entry.sth.treeSize = ledger.entries.length + 1 := by
  simpa using grows.follows.headSize

end

theorem Ledger.blockRoot_append (ledger : Ledger hashes codec provider) (more : List Digest)
    {level block : Nat} (inside : (block + 1) * 2 ^ level ≤ ledger.entries.length) :
    blockRoot (hashNode hashes (.ofProvider provider)) (leafAt (ledger.digests ++ more)) level block =
      blockRoot (hashNode hashes (.ofProvider provider)) (leafAt ledger.digests) level block :=
  blockRoot_congr _ (Nat.lt_succ_self block) fun position below =>
    leafAt_append_left (by rw [ledger.length_digests]; exact Nat.lt_of_lt_of_le below inside)

structure Unchanged (before after : Tables) : Prop where
  leaves : ∀ index leaf, before.leaves.lookup index = some leaf → after.leaves.lookup index = some leaf
  byBatch : ∀ batchID leaf, before.leavesByBatch.lookup batchID = some leaf →
    after.leavesByBatch.lookup batchID = some leaf
  nodes : ∀ key node, before.nodes.lookup key = some node → after.nodes.lookup key = some node
  heads : ∀ size sth, before.heads.lookup size = some sth → after.heads.lookup size = some sth

theorem Unchanged.refl (tables : Tables) : Unchanged tables tables :=
  ⟨fun _ _ => id, fun _ _ => id, fun _ _ => id, fun _ _ => id⟩

theorem Unchanged.trans {first second third} (one : Unchanged first second) (two : Unchanged second third) :
    Unchanged first third where
  leaves := fun index leaf found => two.leaves index leaf (one.leaves index leaf found)
  byBatch := fun batchID leaf found => two.byBatch batchID leaf (one.byBatch batchID leaf found)
  nodes := fun key node found => two.nodes key node (one.nodes key node found)
  heads := fun size sth found => two.heads size sth (one.heads size sth found)

section

variable (indexed : Indexes tables ledger)
  (grows : Grows hashes codec provider ledger.digests ledger.batchIDs entry)
include indexed grows

theorem Indexes.stage_unchanged : Unchanged tables (Pebble.stage tables entry) := by
  constructor
  · intro index leaf found
    rw [Pebble.stage, Tables.putNodes_frame]
    have held := indexed.leaves index
    rw [found] at held
    obtain ⟨other, inside, _⟩ := Option.map_eq_some_iff.mp held.symm
    have below := (List.getElem?_eq_some_iff.mp inside).1
    rw [AList.lookup_insert_ne (by rw [grows.leafIndex]; omega), found]
  · intro batchID leaf found
    rw [Pebble.stage, Tables.putNodes_frame]
    have held := indexed.byBatch batchID
    rw [found] at held
    obtain ⟨other, inside, _⟩ := Option.map_eq_some_iff.mp held.symm
    have different : batchID ≠ entry.leaf.batchID := by
      rintro rfl
      have same := find?_some inside
      exact grows.fresh (mem_map.mpr ⟨other, mem_of_find?_eq_some inside, of_decide_eq_true same⟩)
    rw [AList.lookup_insert_ne different, found]
  · rintro ⟨level, start⟩ node found
    rw [Pebble.stage, Tables.putNodes_lookup]
    obtain ⟨block, inside, rfl, _⟩ := indexed.nodeSound level start node found
    have absent : entry.nodes.reverse.find?
        (fun node => (node.level, node.startIndex) = (level, block * 2 ^ level)) = none := by
      rw [find?_eq_none]
      intro other member same
      obtain ⟨rfl, sameStart⟩ := Prod.mk.inj (of_decide_eq_true same)
      obtain ⟨otherBlock, lower, _, index, _⟩ :=
        grows.nodes.content other (mem_reverse.mp member)
      rw [sameStart] at index
      rw [Nat.succ_mul] at lower inside
      rw [ledger.length_digests] at lower
      omega
    rw [absent]
    exact found
  · intro size sth found
    rw [Pebble.stage, Tables.putNodes_frame]
    have held := indexed.heads size
    rw [found] at held
    split at held
    · simp at held
    · obtain ⟨other, inside, _⟩ := Option.map_eq_some_iff.mp held.symm
      have below := (List.getElem?_eq_some_iff.mp inside).1
      rw [AList.lookup_insert_ne (by rw [grows.treeSize]; omega), found]

theorem Indexes.stage : Indexes (Pebble.stage tables entry)
      (ledger.append (entryOf entry) grows.follows grows.fresh) := by
  constructor
  · intro position
    rw [Pebble.stage, Tables.putNodes_frame, Ledger.append_entries, getElem?_append_one]
    by_cases here : position = entry.leaf.leafIndex
    · rw [here, AList.lookup_insert, if_pos grows.leafIndex]
      rfl
    · rw [AList.lookup_insert_ne here, indexed.leaves, if_neg (grows.leafIndex ▸ here)]
  · intro batchID
    rw [Pebble.stage, Tables.putNodes_frame, Ledger.append_entries, find?_append]
    by_cases here : batchID = entry.leaf.batchID
    · have missing : ledger.entries.find? (fun other => other.batchID = batchID) = none := by
        rw [find?_eq_none]
        intro other member same
        refine grows.fresh (mem_map.mpr ⟨other, member, ?_⟩)
        rw [of_decide_eq_true same, here]
        rfl
      rw [missing, here, AList.lookup_insert]
      simp [entryOf, Entry.batchID]
    · rw [AList.lookup_insert_ne here, indexed.byBatch]
      have other : ¬(entryOf entry).batchID = batchID := fun same => here same.symm
      simp [other]
  · intro level start node found
    rw [Pebble.stage, Tables.putNodes_lookup] at found
    rw [Ledger.append_entries, Ledger.append_digests]
    rcases Option.or_eq_some_iff.mp found with new | ⟨_, old⟩
    · have key := find?_some new
      simp only [Prod.mk.injEq, decide_eq_true_eq] at key
      obtain ⟨rfl, rfl⟩ := key
      obtain ⟨block, _, upper, index, _, hash⟩ :=
        grows.nodes.content node (mem_reverse.mp (mem_of_find?_eq_some new))
      exact ⟨block, by simpa using upper, index, hash⟩
    · obtain ⟨block, inside, index, hash⟩ := indexed.nodeSound level start node old
      refine ⟨block, by rw [length_append]; omega, index, ?_⟩
      rw [hash, ledger.blockRoot_append _ inside]
  · intro level block inside
    rw [Pebble.stage, Tables.putNodes_lookup]
    rw [Ledger.append_entries, length_append, length_singleton] at inside
    by_cases early : (block + 1) * 2 ^ level ≤ ledger.entries.length
    · have held := indexed.nodeComplete level block early
      simp [held]
    · obtain ⟨node, member, sameLevel, sameStart⟩ :=
        grows.nodes.complete level block (by simpa using early) (by simpa using inside)
      rw [Option.isSome_or, Bool.or_eq_true]
      refine .inl (find?_isSome.mpr ⟨node, mem_reverse.mpr member, ?_⟩)
      simp [sameLevel, sameStart]
  · intro size
    rw [Pebble.stage, Tables.putNodes_frame, Ledger.append_entries, getElem?_append_one]
    by_cases here : size = entry.sth.treeSize
    · rw [here, AList.lookup_insert, grows.treeSize]
      simp [entryOf]
    · rw [AList.lookup_insert_ne here, indexed.heads]
      rw [grows.treeSize] at here
      by_cases zero : size = 0
      · rw [if_pos zero, if_pos zero]
      · rw [if_neg zero, if_neg zero, if_neg (by omega)]

end

theorem Indexes.stageAll (entries : List GlobalLogAppend) : ∀ (tables : Tables)
    (ledger : Ledger hashes codec provider), Indexes tables ledger →
      GrowsBy hashes codec provider ledger.digests ledger.batchIDs entries →
      ∃ grown : Ledger hashes codec provider, grown.entries = ledger.entries ++ entries.map entryOf ∧
        Indexes (entries.foldl Pebble.stage tables) grown ∧
        Unchanged tables (entries.foldl Pebble.stage tables) := by
  induction entries with
  | nil =>
    intro tables ledger indexed _
    exact ⟨ledger, by simp, indexed, .refl tables⟩
  | cons entry rest ih =>
    intro tables ledger indexed grows
    obtain ⟨first, others⟩ := grows
    rw [← ledger.append_digests _ first.follows first.fresh,
      ← ledger.append_batchIDs _ first.follows first.fresh] at others
    obtain ⟨grown, same, after, unchanged⟩ := ih _ _ (indexed.stage first) others
    exact ⟨grown, by simp [same], after, (indexed.stage_unchanged first).trans unchanged⟩

def nodeCore (node : GlobalLogNode) : Nat × Nat × Nat × Bytes :=
  (node.level, node.startIndex, node.width, node.hash)

theorem Emitted.congr {digests start first second} (emitted : Emitted hashes provider digests start first)
    (same : second.map nodeCore = first.map nodeCore) : Emitted hashes provider digests start second where
  content := by
    intro node member
    have core : nodeCore node ∈ first.map nodeCore := same ▸ mem_map_of_mem member
    obtain ⟨other, otherMem, equal⟩ := mem_map.mp core
    simp only [nodeCore, Prod.mk.injEq] at equal
    obtain ⟨level, index, width, hash⟩ := equal
    simpa only [level, index, width, hash] using emitted.content other otherMem
  complete := by
    intro level block lower upper
    obtain ⟨node, member, found⟩ := emitted.complete level block lower upper
    have core : nodeCore node ∈ second.map nodeCore := same ▸ mem_map_of_mem member
    obtain ⟨other, otherMem, equal⟩ := mem_map.mp core
    simp only [nodeCore, Prod.mk.injEq] at equal
    exact ⟨other, otherMem, by rw [equal.1, equal.2.1]; exact found⟩
  keys := by
    have keyed := congrArg (map fun core : Nat × Nat × Nat × Bytes => (core.1, core.2.1)) same
    rw [map_map, map_map] at keyed
    exact keyed.symm ▸ emitted.keys

theorem prepareNodes_core (nodes : List GlobalLogNode) :
    ∀ position prepared, Pebble.prepareNodes stamps position nodes = .ok prepared →
      prepared.map nodeCore = nodes.map nodeCore := by
  induction nodes with
  | nil => intro position prepared done; simp_all [Pebble.prepareNodes]
  | cons node rest ih =>
    intro position prepared done
    simp only [Pebble.prepareNodes, bind_eq_ok, return_eq_ok] at done
    obtain ⟨_, _, others, later, rfl⟩ := done
    simp [ih _ _ later, nodeCore, storedNode]

theorem prepare_eq {prepared} (done : Pebble.prepare stamps entry = .ok prepared) :
    prepared.leaf = storedLeaf stamps.leaf entry.leaf ∧
      prepared.sth = storedHead stamps.sth entry.sth ∧
      prepared.state = storedState stamps.state entry.state ∧
      prepared.nodes.map nodeCore = entry.nodes.map nodeCore := by
  simp only [Pebble.prepare, bind_eq_ok, return_eq_ok] at done
  obtain ⟨_, _, nodes, prepared', rfl⟩ := done
  exact ⟨rfl, rfl, rfl, prepareNodes_core _ _ _ prepared'⟩

theorem hashLeafWithProvider_stored {now leaf} (schema : leaf.schemaVersion = schemaGlobalLogLeaf) :
    hashLeafWithProvider hashes codec provider (storedLeaf now leaf) =
      hashLeafWithProvider hashes codec provider leaf := by
  have kept : schemaOr schemaGlobalLogLeaf leaf.schemaVersion = leaf.schemaVersion := by
    rw [schema]
    rfl
  simp only [hashLeafWithProvider, storedLeaf, kept]

theorem Grows.prepare {digests batchIDs prepared} (grows : Grows hashes codec provider digests batchIDs entry)
    (done : Pebble.prepare stamps entry = .ok prepared) :
    Grows hashes codec provider digests batchIDs prepared := by
  obtain ⟨leaf, sth, state, nodes⟩ := prepare_eq done
  obtain ⟨follows, fresh, emitted, tracked⟩ := grows
  have schema : entry.leaf.schemaVersion = schemaGlobalLogLeaf := follows.schema
  have headSchema : entry.sth.schemaVersion = schemaSignedTreeHead := follows.headSchema
  have digest : (entryOf prepared).digest = (entryOf entry).digest := by
    simp [Entry.digest, leaf, storedLeaf]
  refine ⟨?_, ?_, ?_, ?_⟩
  · constructor
    · simpa [leaf, storedLeaf] using follows.named
    · simpa [leaf, storedLeaf] using follows.index
    · simp [leaf, storedLeaf, schemaOr, schema]
    · simpa [leaf, storedLeaf] using follows.suite
    · rw [entryOf_leaf, leaf, hashLeafWithProvider_stored schema]
      exact follows.hash
    · simp [sth, storedHead, schemaOr, headSchema]
    · simpa [sth, storedHead] using follows.headSuite
    · simpa [sth, storedHead] using follows.headAlg
    · simpa [sth, storedHead] using follows.headSize
    · rw [digest]
      simpa [sth, storedHead] using follows.headRoot
    · simpa [sth, leaf, storedHead, storedLeaf] using follows.headNode
    · simpa [sth, leaf, storedHead, storedLeaf] using follows.headLog
  · simpa [Entry.batchID, leaf, storedLeaf] using fresh
  · rw [digest]
    exact emitted.congr nodes
  · rw [digest, state]
    exact ⟨tracked.suite, tracked.size, tracked.root, tracked.frontier⟩

def Prepared (given written : GlobalLogAppend) : Prop :=
  ∃ stamps, Pebble.prepare stamps given = .ok written

section

variable (prepared : Prepared entry written)
include prepared

theorem Prepared.digest : (entryOf written).digest = (entryOf entry).digest := by
  obtain ⟨stamps, done⟩ := prepared
  simp [Entry.digest, (prepare_eq done).1, storedLeaf]

theorem Prepared.batchID : (entryOf written).batchID = (entryOf entry).batchID := by
  obtain ⟨stamps, done⟩ := prepared
  simp [Entry.batchID, (prepare_eq done).1, storedLeaf]

theorem Prepared.sth (schema : entry.sth.schemaVersion = schemaSignedTreeHead)
    (timed : entry.sth.timestampUnixN ≠ 0) : written.sth = entry.sth := by
  obtain ⟨stamps, done⟩ := prepared
  have kept : schemaOr schemaSignedTreeHead entry.sth.schemaVersion = entry.sth.schemaVersion := by
    rw [schema]
    rfl
  rw [(prepare_eq done).2.1, storedHead, kept, timeOr, if_neg timed]

end

theorem prepareAll_eq {stamps : Nat → Stamps} (entries : List GlobalLogAppend) :
    ∀ position prepared, Pebble.prepareAll stamps position entries = .ok prepared →
      Forall₂ Prepared entries prepared := by
  induction entries with
  | nil => intro position prepared done; simp_all [Pebble.prepareAll]
  | cons entry rest ih =>
    intro position prepared done
    simp only [Pebble.prepareAll, bind_eq_ok, return_eq_ok] at done
    obtain ⟨first, firstDone, others, later, rfl⟩ := done
    exact .cons ⟨_, firstDone⟩ (ih _ _ later)

theorem GrowsBy.prepare {entries prepared} (done : Forall₂ Prepared entries prepared) :
    ∀ {digests : List Digest} {batchIDs : List String},
      GrowsBy hashes codec provider digests batchIDs entries →
      GrowsBy hashes codec provider digests batchIDs prepared := by
  induction done with
  | nil => intro digests batchIDs _; trivial
  | cons first _ ih =>
    intro digests batchIDs grows
    obtain ⟨stamps, firstDone⟩ := first
    refine ⟨grows.1.prepare firstDone, ?_⟩
    rw [Prepared.digest ⟨stamps, firstDone⟩, Prepared.batchID ⟨stamps, firstDone⟩]
    exact ih grows.2

theorem GrowsBy.tracks_last (entries : List GlobalLogAppend) :
    ∀ {digests : List Digest} {batchIDs : List String} {last : GlobalLogAppend},
      GrowsBy hashes codec provider digests batchIDs entries → entries.getLast? = some last →
      Tracks hashes provider (digests ++ entries.map fun entry => (entryOf entry).digest)
        last.state := by
  induction entries with
  | nil => intro digests batchIDs last _ found; simp at found
  | cons entry rest ih =>
    intro digests batchIDs last grows found
    cases rest with
    | nil =>
      obtain rfl : entry = last := by simpa using found
      exact grows.1.state
    | cons next others =>
      have later := ih grows.2 (by simpa [getLast?_cons_cons] using found)
      simpa using later

theorem requireSuites_eq {suite : ID} (entries : List GlobalLogAppend) : ∀ position,
    Pebble.requireSuites suite position entries = .ok () →
      ∀ entry ∈ entries, entry.leaf.cryptoSuite = suite := by
  induction entries with
  | nil => simp
  | cons entry rest ih =>
    intro position done other member
    simp only [Pebble.requireSuites, bind_eq_ok, mapError_eq_ok, requireSuite,
      ModelSuite.requireGlobalLogAppend] at done
    obtain ⟨⟨⟩, checked, later⟩ := done
    rcases mem_cons.mp member with rfl | inside
    · exact (ModelSuite.require_eq_ok.mp checked).2 _ (by simp)
    · exact ih _ later other inside

theorem Indexes.commit {suite} {stamps : Nat → Stamps} {faults entries after} (indexed : Indexes tables ledger)
    (grows : GrowsBy hashes codec provider ledger.digests ledger.batchIDs entries)
    (done : Pebble.commitGlobalLogAppends suite stamps faults tables entries = .ok after) :
    ∃ (grown : Ledger hashes codec provider) (prepared : List GlobalLogAppend),
      Forall₂ Prepared entries prepared ∧
      grown.entries = ledger.entries ++ prepared.map entryOf ∧ Represents after grown ∧
      Unchanged tables after ∧ suite = provider.suite := by
  simp only [Pebble.commitGlobalLogAppends, bind_eq_ok, reject_eq_ok, return_eq_ok] at done
  obtain ⟨_, _, _, suites, _, filled, prepared, preparedAll, rfl⟩ := done
  have forall₂ := prepareAll_eq entries _ _ preparedAll
  have written := grows.prepare forall₂
  obtain ⟨grown, same, after, unchanged⟩ := indexed.stageAll prepared _ _ written
  have nonempty : prepared ≠ [] := by
    rintro rfl
    exact filled (by rw [forall₂.length_eq]; rfl)
  refine ⟨grown, prepared, forall₂, same, ⟨?_, ?_, ?_⟩, ?_, ?_⟩
  · exact ⟨after.leaves, after.byBatch, after.nodeSound, after.nodeComplete, after.heads⟩
  · intro empty
    simp_all
  · intro _
    have found := getLast?_eq_some_getLast nonempty
    refine ⟨(prepared.getLast nonempty).state, by simp [found], ?_⟩
    have tracked := written.tracks_last prepared found
    simpa [Ledger.digests, same, Function.comp_def] using tracked
  · exact ⟨unchanged.leaves, unchanged.byBatch, unchanged.nodes, unchanged.heads⟩
  · cases entries with
    | nil => simp at filled
    | cons entry rest =>
      rw [← requireSuites_eq _ _ suites entry (by simp)]
      exact grows.1.follows.suite

end

end TrustDB.GlobalLog
