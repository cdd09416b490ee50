import Mathlib
import TrustDB.GlobalLog.Core

/-!
The incremental log state. After any number of appends the frontier is the binary
counter over the appended leaf hashes, the root is the RFC 6962 root, and the nodes
handed to the store are the complete aligned subtrees, each exactly once.
-/

namespace TrustDB.GlobalLog

open Result List CryptoSuite TrustCrypto Merkle Model HashTree

def slotBytes : Option Digest → Bytes
  | none => []
  | some digest => digest.bytes

@[simp] theorem slotBytes_eq_nil {slot} : slotBytes slot = [] ↔ slot = none := by
  cases slot <;> simp [slotBytes, Digest.bytes_ne_nil]

namespace Service

variable {hashes : Hashes} {service : Service}

theorem hashNodeBytes_digests (left right : Digest) :
    hashNodeBytes hashes service left.bytes right.bytes =
      .ok (hashNode hashes service.profile left right).bytes := by
  simp [hashNodeBytes, hashNodeForSuite, profile, bytesToHash]

def nodeOf (service : Service) (now : Int) (entry : Nat × Nat × Digest) : GlobalLogNode :=
  service.newNode now entry.1 (entry.2.1 * 2 ^ entry.1) entry.2.2.bytes

theorem carry_eq (now : Int) {leaves} (slots : List (Option Digest)) : ∀ level blocks (value : Digest),
      Frontier.Counter (hashNode hashes service.profile) leaves level blocks slots →
      carry hashes service now (slots.map slotBytes) level (blocks * 2 ^ level) value.bytes =
        .ok ((Frontier.push (hashNode hashes service.profile) slots value).map slotBytes,
          (Frontier.closed (hashNode hashes service.profile) slots level blocks value).tail.map
            (service.nodeOf now)) := by
  induction slots with
  | nil => intro level blocks value _; simp [carry, Frontier.push, Frontier.closed, slotBytes]
  | cons slot rest ih =>
    intro level blocks value counted
    obtain ⟨slotEq, restCounted⟩ := counted
    cases slot with
    | none => simp [carry, Frontier.push, Frontier.closed, slotBytes]
    | some held =>
      have odd : blocks % 2 = 1 := by
        by_contra even
        simp [even] at slotEq
      have start : blocks * 2 ^ level - 2 ^ level = blocks / 2 * 2 ^ (level + 1) := by
        have pair : blocks = 2 * (blocks / 2) + 1 := by omega
        have expanded : blocks * 2 ^ level = blocks / 2 * 2 ^ (level + 1) + 2 ^ level := by
          calc blocks * 2 ^ level = (2 * (blocks / 2) + 1) * 2 ^ level := by rw [← pair]
            _ = blocks / 2 * 2 ^ (level + 1) + 2 ^ level := by ring
        omega
      have wide : ¬blocks * 2 ^ level < 2 ^ level := by
        have := Nat.mul_le_mul_right (2 ^ level) (by omega : 1 ≤ blocks)
        omega
      have parent : hashNodeBytes hashes service held.bytes value.bytes = .ok _ :=
        hashNodeBytes_digests held value
      have deeper := ih (level + 1) (blocks / 2) (hashNode hashes service.profile held value)
        restCounted
      simp only [map_cons, carry, slotBytes, Digest.bytes_ne_nil, ↓reduceIte,
        reject_of_not wide, ok_bind, parent, start, deeper, Frontier.push, Frontier.closed, tail_cons]
      rw [Frontier.closed_eq_cons _ rest]
      rfl

theorem foldFrontier_eq (slots : List (Option Digest)) : ∀ root : Option Digest,
    foldFrontier hashes service (slots.map slotBytes) (slotBytes root) =
      .ok (slotBytes (Frontier.fold (hashNode hashes service.profile) slots root)) := by
  induction slots with
  | nil => intro root; rfl
  | cons slot rest ih =>
    intro root
    cases slot with
    | none => simpa [foldFrontier, slotBytes, Frontier.fold] using ih root
    | some held =>
      have width : ¬held.bytes.length ≠ service.profile.size := by simp
      cases root with
      | none =>
        simpa [foldFrontier, slotBytes, Frontier.fold, Digest.bytes_ne_nil,
          reject_of_not width] using ih (some held)
      | some root =>
        have combined : hashNodeBytes hashes service held.bytes root.bytes = .ok _ :=
          hashNodeBytes_digests held root
        simpa [foldFrontier, slotBytes, Frontier.fold, Digest.bytes_ne_nil, reject_of_not width, combined] using
            ih (some (hashNode hashes service.profile held root))

theorem trimFrontier_eq (slots : List (Option Digest)) :
    trimFrontier (slots.map slotBytes) = (slots.rdropWhile Option.isNone).map slotBytes := by
  have same : (isEmpty ∘ slotBytes) = Option.isNone := by
    funext slot
    cases slot with
    | none => rfl
    | some digest => simpa [slotBytes] using digest.bytes_ne_nil
  simp only [trimFrontier, rdropWhile, ← map_reverse, dropWhile_map, same]

end Service

structure Tracks (hashes : Hashes) (provider : Provider) (digests : List Digest)
    (state : GlobalLogState) : Prop where
  suite : state.cryptoSuite = provider.suite
  size : state.treeSize = digests.length
  root : state.rootHash =
    if digests = [] then [] else (treeRoot hashes (.ofProvider provider) digests).bytes
  frontier : ∃ slots, state.frontier = slots.map slotBytes ∧
    Frontier.Counter (hashNode hashes (.ofProvider provider)) (leafAt digests) 0 digests.length slots

structure ClosedBy (hashes : Hashes) (service : Service) (now : Int) (digests : List Digest)
    (nodes : List GlobalLogNode) : Prop where
  mem : ∀ node, node ∈ nodes ↔ ∃ level block, (block + 1) * 2 ^ level = digests.length ∧
    node = service.nodeOf now
      (level, block, blockRoot (hashNode hashes service.profile) (leafAt digests) level block)
  levels : (nodes.map GlobalLogNode.level).Nodup

theorem tracks_emptyState (hashes : Hashes) (service : Service) :
    Tracks hashes service.provider [] service.emptyState where
  suite := rfl
  size := rfl
  root := rfl
  frontier := ⟨[], rfl, rfl⟩

section

variable {hashes : Hashes} {service : Service} {digests : List Digest} {state : GlobalLogState}

theorem appendState_eq (tracked : Tracks hashes service.provider digests state) (now : Int) {leaf digest}
    (suite : leaf.cryptoSuite = service.provider.suite) (index : leaf.leafIndex = digests.length)
    (hash : leaf.leafHash = digest.bytes) :
    ∃ next nodes, Service.appendState hashes service now state leaf = .ok (next, nodes) ∧
      Tracks hashes service.provider (digests ++ [digest]) next ∧
      ClosedBy hashes service now (digests ++ [digest]) nodes := by
  obtain ⟨slots, stored, before⟩ := tracked.frontier
  have counted : Frontier.Counter (hashNode hashes service.profile) (leafAt (digests ++ [digest])) 0
      digests.length slots := by
    refine before.congr slots 0 digests.length fun position below => ?_
    rw [leafAt_append_left (by simpa using below)]
  have value : digest = blockRoot (hashNode hashes service.profile) (leafAt (digests ++ [digest])) 0
      digests.length := by
    rw [blockRoot_zero, leafAt_append_length]
  have pushed : Frontier.Counter (hashNode hashes service.profile) (leafAt (digests ++ [digest])) 0
      (digests.length + 1) (Frontier.push (hashNode hashes service.profile) slots digest) := by
    have incremented := counted.push slots 0 digests.length
    rwa [← value] at incremented
  have merged := Service.carry_eq now slots 0 digests.length digest counted
  have folded : Service.foldFrontier hashes service
      ((Frontier.push (hashNode hashes service.profile) slots digest).map slotBytes) [] = .ok _ :=
    Service.foldFrontier_eq (Frontier.push (hashNode hashes service.profile) slots digest) none
  have root := Frontier.Counter.fold _ 0 (digests.length + 1) 0 pushed (by simp)
  simp only [↓reduceIte, pow_zero, Nat.mul_one, Nat.add_zero, Nat.succ_ne_zero] at root
  rw [root] at folded
  have suites : requireSame service.provider.suite [state.cryptoSuite, leaf.cryptoSuite] = .ok () := by
    simp [requireSame_eq_ok, service.provider.known, tracked.suite, suite]
  refine ⟨{
      schemaVersion := schemaGlobalLogState
      cryptoSuite := service.provider.suite
      treeSize := state.treeSize + 1
      rootHash := (treeRoot hashes service.profile (digests ++ [digest])).bytes
      frontier := ((Frontier.push (hashNode hashes service.profile) slots digest).rdropWhile
        Option.isNone).map slotBytes
      updatedAtUnixN := now },
    (Frontier.closed (hashNode hashes service.profile) slots 0 digests.length digest).map
      (service.nodeOf now), ?_, ?_, ?_⟩
  · have first : Frontier.closed (hashNode hashes service.profile) slots 0 digests.length digest =
        (0, digests.length, digest) ::
          (Frontier.closed (hashNode hashes service.profile) slots 0 digests.length digest).tail :=
      Frontier.closed_eq_cons _ _ _ _ _
    rw [pow_zero, Nat.mul_one] at merged
    rw [first]
    simp only [Service.appendState, suites, Except.mapError, ok_bind, stored, index, hash,
      merged, Service.rootFromFrontier, folded, Service.trimFrontier_eq]
    simp [Service.nodeOf, treeRoot, slotBytes, reject, tracked.size]
  · constructor
    · rfl
    · simp [tracked.size]
    · simp [Service.profile]
    · exact ⟨_, rfl, by simpa [Service.profile] using pushed.trim⟩
  · constructor
    · intro node
      simp only [mem_map, Prod.exists]
      constructor
      · rintro ⟨level, block, closing, member, rfl⟩
        rw [value] at member
        obtain ⟨_, ends, rfl⟩ := (counted.mem_closed slots 0 digests.length level block closing).mp member
        exact ⟨level, block, by simpa using ends, rfl⟩
      · rintro ⟨level, block, ends, rfl⟩
        refine ⟨level, block, _, ?_, rfl⟩
        rw [value]
        exact (counted.mem_closed slots 0 digests.length level block _).mpr
          ⟨Nat.zero_le _, by simpa using ends, by rw [← value]⟩
    · rw [map_map]
      exact (Frontier.closed_levels slots 0 digests.length digest).1.imp Nat.ne_of_lt

/-- The nodes of the complete aligned subtrees that end after `start` leaves and within
the given ones, each once and with its RFC 6962 root. -/
structure Emitted (hashes : Hashes) (provider : Provider) (digests : List Digest) (start : Nat)
    (nodes : List GlobalLogNode) : Prop where
  content : ∀ node ∈ nodes, ∃ block, start < (block + 1) * 2 ^ node.level ∧
    (block + 1) * 2 ^ node.level ≤ digests.length ∧ node.startIndex = block * 2 ^ node.level ∧
    node.width = 2 ^ node.level ∧
    node.hash = (blockRoot (hashNode hashes (.ofProvider provider)) (leafAt digests) node.level
      block).bytes
  complete : ∀ level block, start < (block + 1) * 2 ^ level →
    (block + 1) * 2 ^ level ≤ digests.length →
      ∃ node ∈ nodes, node.level = level ∧ node.startIndex = block * 2 ^ level
  keys : (nodes.map fun node => (node.level, node.startIndex)).Nodup

theorem ClosedBy.emitted {now nodes} (closed : ClosedBy hashes service now digests nodes)
    (nonempty : 0 < digests.length) : Emitted hashes service.provider digests (digests.length - 1) nodes where
  content := by
    intro node member
    obtain ⟨level, block, ends, rfl⟩ := (closed.mem node).mp member
    refine ⟨block, ?_, ?_, rfl, rfl, rfl⟩ <;> simp only [Service.nodeOf, Service.newNode, ends] <;>
      omega
  complete := by
    intro level block lower upper
    exact ⟨_, (closed.mem _).mpr ⟨level, block, by omega, rfl⟩, rfl, rfl⟩
  keys := by
    refine Nodup.of_map Prod.fst ?_
    rw [map_map]
    exact closed.levels

theorem Emitted.append {more start first second} (before : Emitted hashes service.provider digests start first)
    (after : Emitted hashes service.provider (digests ++ more) digests.length second)
    (inside : start ≤ digests.length) :
    Emitted hashes service.provider (digests ++ more) start (first ++ second) where
  content := by
    intro node member
    rcases mem_append.mp member with early | late
    · obtain ⟨block, lower, upper, index, width, hash⟩ := before.content node early
      refine ⟨block, lower, by rw [length_append]; omega, index, width, ?_⟩
      rw [hash, blockRoot_congr _ (Nat.lt_succ_self block) fun position below =>
        (leafAt_append_left (Nat.lt_of_lt_of_le below upper)).symm]
    · obtain ⟨block, lower, rest⟩ := after.content node late
      exact ⟨block, by omega, rest⟩
  complete := by
    intro level block lower upper
    by_cases early : (block + 1) * 2 ^ level ≤ digests.length
    · obtain ⟨node, member, found⟩ := before.complete level block lower early
      exact ⟨node, mem_append_left _ member, found⟩
    · obtain ⟨node, member, found⟩ := after.complete level block (by omega) upper
      exact ⟨node, mem_append_right _ member, found⟩
  keys := by
    rw [map_append]
    refine Nodup.append before.keys after.keys ?_
    intro key early late
    obtain ⟨left, leftMem, rfl⟩ := mem_map.mp early
    obtain ⟨right, rightMem, same⟩ := mem_map.mp late
    obtain ⟨levels, starts⟩ := Prod.mk.inj same
    obtain ⟨block, _, upper, index, _⟩ := before.content left leftMem
    obtain ⟨other, lower, _, otherIndex, _⟩ := after.content right rightMem
    -- the same key would end both before and after the boundary
    rw [levels] at lower otherIndex
    rw [starts, index] at otherIndex
    rw [Nat.succ_mul] at lower upper
    omega

def entryDigest (entry : GlobalLogLeaf × Int) : Digest := bytesToHash entry.1.leafHash

theorem appendAll_eq (entries : List (GlobalLogLeaf × Int)) : ∀ (digests : List Digest)
    (state : GlobalLogState), Tracks hashes service.provider digests state →
      (∀ position entry, entries[position]? = some entry → entry.1.leafIndex = digests.length + position ∧
          entry.1.cryptoSuite = service.provider.suite ∧ entry.1.leafHash.length = 32) →
      ∃ last nodes, Service.appendAll hashes service state entries = .ok (last, nodes) ∧
        Tracks hashes service.provider (digests ++ entries.map entryDigest) last ∧
        Emitted hashes service.provider (digests ++ entries.map entryDigest) digests.length nodes := by
  induction entries with
  | nil =>
    intro digests state tracked _
    refine ⟨state, [], rfl, by simpa using tracked, ?_, ?_, ?_⟩
    · simp
    · intro level block lower upper
      simp at upper
      omega
    · simp
  | cons entry rest ih =>
    intro digests state tracked wellFormed
    obtain ⟨index, suite, length⟩ := wellFormed 0 entry rfl
    have hash : entry.1.leafHash = (entryDigest entry).bytes :=
      (Digest.bytes_ofBytes length).symm
    obtain ⟨next, nodes, appended, tracked', closed⟩ :=
      appendState_eq tracked entry.2 suite index hash
    obtain ⟨last, later, ran, tracked'', emitted⟩ := ih (digests ++ [entryDigest entry]) next tracked'
      (fun position other found => by
        have shifted := wellFormed (position + 1) other (by simpa using found)
        refine ⟨?_, shifted.2⟩
        rw [shifted.1, length_append, length_singleton]
        omega)
    have joined : digests ++ (entry :: rest).map entryDigest =
        digests ++ [entryDigest entry] ++ rest.map entryDigest := by simp
    rw [joined]
    refine ⟨last, nodes ++ later, ?_, tracked'', ?_⟩
    · simp [Service.appendAll, appended, ran]
    · have first := closed.emitted (by simp)
      rw [length_append, length_singleton, Nat.add_sub_cancel] at first
      exact first.append emitted (by simp)

theorem Tracks.slot (tracked : Tracks hashes service.provider digests state) (level : Nat) :
    (state.frontier[level]?).getD [] = if digests.length.testBit level then
        (blockRoot (hashNode hashes (.ofProvider service.provider)) (leafAt digests) level
          (digests.length / 2 ^ level - 1)).bytes
      else [] := by
  obtain ⟨slots, stored, counted⟩ := tracked.frontier
  have held := counted.slot slots 0 digests.length level
  have shown : (state.frontier[level]?).getD [] = slotBytes ((slots[level]?).getD none) := by
    rw [stored, getElem?_map]
    cases slots[level]? <;> rfl
  rw [shown, held, Nat.zero_add]
  split <;> rfl

end

/-- `merkle.RootFromLeavesForSuite` with the suite and tree algorithm of the service. -/
def Service.rootOf (hashes : Hashes) (service : Service) (leaves : List Bytes) : Outcome Bytes :=
  rootFromLeavesForSuite hashes service.profile.suite service.profile.algorithm leaves

theorem Service.rootOf_block (hashes : Hashes) (service : Service) {digests level block}
    (inside : (block + 1) * 2 ^ level ≤ digests.length) :
    service.rootOf hashes (((digests.map Digest.bytes).drop (block * 2 ^ level)).take (2 ^ level)) =
      .ok (blockRoot (hashNode hashes (.ofProvider service.provider)) (leafAt digests) level block).bytes :=
  rootFromLeavesForSuite_slice hashes service.provider (Nat.two_pow_pos level)
    (by rwa [Nat.succ_mul] at inside)

theorem block_of_testBit {size level : Nat} (bit : size.testBit level = true) :
    size / 2 ^ level - 1 = size / 2 ^ (level + 1) * 2 ∧ (size / 2 ^ level - 1 + 1) * 2 ^ level ≤ size := by
  have odd : size / 2 ^ level % 2 = 1 := by
    simpa [Nat.testBit_eq_decide_div_mod_eq] using bit
  have half : size / 2 ^ (level + 1) = size / 2 ^ level / 2 := by
    rw [Nat.div_div_eq_div_mul, ← Nat.pow_succ]
  constructor
  · rw [half]
    omega
  · have positive : 1 ≤ size / 2 ^ level := by
      by_contra none
      simp [Nat.lt_one_iff.mp (Nat.not_le.mp none)] at odd
    rw [Nat.sub_add_cancel positive]
    exact Nat.div_mul_le_self size (2 ^ level)

/-- The incremental state agrees with the recursive RFC 6962 tree after any appends. -/
theorem appendAll_refines_merkle (hashes : Hashes) (service : Service)
    (entries : List (GlobalLogLeaf × Int))
    (wellFormed : ∀ position (entry : GlobalLogLeaf × Int), entries[position]? = some entry →
      entry.1.leafIndex = position ∧ entry.1.cryptoSuite = service.provider.suite ∧
        entry.1.leafHash.length = 32) :
    ∃ state nodes, Service.appendAll hashes service service.emptyState entries = .ok (state, nodes) ∧
      state.treeSize = entries.length ∧
      (entries ≠ [] → service.rootOf hashes (entries.map fun entry => entry.1.leafHash) =
        .ok state.rootHash) ∧
      (entries ≠ [] → HashesAsDefault hashes service.provider →
        rootFromLeaves hashes (entries.map fun entry => entry.1.leafHash) = .ok state.rootHash) ∧
      (∀ level, (state.frontier[level]?).getD [] ≠ [] ↔ entries.length.testBit level = true) ∧
      (∀ level, entries.length.testBit level = true →
        service.rootOf hashes (((entries.map fun entry => entry.1.leafHash).drop
            (entries.length / 2 ^ (level + 1) * 2 ^ (level + 1))).take (2 ^ level)) =
          .ok ((state.frontier[level]?).getD [])) ∧
      (nodes.map fun node => (node.level, node.startIndex)).Nodup ∧
      (∀ level start, (∃ node ∈ nodes, node.level = level ∧ node.startIndex = start) ↔
        2 ^ level ∣ start ∧ start + 2 ^ level ≤ entries.length) ∧
      ∀ node ∈ nodes, node.width = 2 ^ node.level ∧
        service.rootOf hashes (((entries.map fun entry => entry.1.leafHash).drop
          node.startIndex).take (2 ^ node.level)) = .ok node.hash := by
  obtain ⟨state, nodes, ran, tracked, emitted⟩ := appendAll_eq entries [] service.emptyState
    (tracks_emptyState hashes service) (by simpa using wellFormed)
  rw [List.nil_append] at tracked emitted
  have shown : (entries.map fun entry => entry.1.leafHash) =
      (entries.map entryDigest).map Digest.bytes := by
    rw [List.map_map]
    apply List.map_congr_left
    intro entry member
    obtain ⟨position, _, found⟩ := List.mem_iff_getElem.mp member
    have valid := wellFormed position entry (by rw [← found]; exact List.getElem?_eq_getElem _)
    exact (Digest.bytes_ofBytes valid.2.2).symm
  have length : (entries.map entryDigest).length = entries.length := List.length_map ..
  have nonempty : entries ≠ [] → entries.map entryDigest ≠ [] := by simp
  rw [shown]
  refine ⟨state, nodes, ran, by rw [tracked.size, length], ?_, ?_, ?_, ?_, emitted.keys, ?_, ?_⟩
  · intro filled
    rw [tracked.root, if_neg (nonempty filled)]
    exact rootFromLeavesForSuite_eq hashes service.provider (nonempty filled)
  · intro filled same
    rw [tracked.root, if_neg (nonempty filled)]
    exact rootFromLeaves_eq same (nonempty filled)
  · intro level
    rw [tracked.slot, length]
    split <;> simp_all [Digest.bytes_ne_nil]
  · intro level bit
    rw [← length] at bit ⊢
    obtain ⟨left, inside⟩ := block_of_testBit bit
    rw [tracked.slot, if_pos bit, ← Service.rootOf_block hashes service inside, left, Nat.pow_succ',
      Nat.mul_assoc]
  · intro level start
    rw [← length]
    constructor
    · rintro ⟨node, member, rfl, rfl⟩
      obtain ⟨block, _, upper, index, _⟩ := emitted.content node member
      rw [Nat.succ_mul] at upper
      rw [index]
      exact ⟨Nat.dvd_mul_left _ _, upper⟩
    · rintro ⟨⟨block, rfl⟩, upper⟩
      rw [Nat.mul_comm] at upper ⊢
      exact emitted.complete level block (Nat.mul_pos block.succ_pos (Nat.two_pow_pos level))
        (by rwa [Nat.succ_mul])
  · intro node member
    obtain ⟨block, _, upper, index, width, hash⟩ := emitted.content node member
    rw [index, Service.rootOf_block hashes service upper, hash]
    exact ⟨width, rfl⟩

def sampleEntry (index : Nat) : GlobalLogLeaf × Int :=
  ({ (default : GlobalLogLeaf) with
      cryptoSuite := cnSmV1
      leafIndex := index
      leafHash := List.replicate 32 (UInt8.ofNat index) }, 7)

/-- Three leaves fill the first two slots. -/
theorem appendAll_refines_merkle_three :
    ∃ state nodes, Service.appendAll Hashes.sample ⟨"node", "log", .cnSMV1Provider, true⟩
        (Service.emptyState ⟨"node", "log", .cnSMV1Provider, true⟩)
        ([0, 1, 2].map sampleEntry) = .ok (state, nodes) ∧
      state.treeSize = 3 ∧ (state.frontier[1]?).getD [] ≠ [] ∧
        ∃ node ∈ nodes, node.level = 1 ∧ node.startIndex = 0 := by
  obtain ⟨state, nodes, ran, size, _, _, slots, _, _, present, _⟩ :=
    appendAll_refines_merkle Hashes.sample ⟨"node", "log", .cnSMV1Provider, true⟩
      ([0, 1, 2].map sampleEntry)
      (fun
        | 0, _, rfl => ⟨rfl, rfl, rfl⟩
        | 1, _, rfl => ⟨rfl, rfl, rfl⟩
        | 2, _, rfl => ⟨rfl, rfl, rfl⟩)
  exact ⟨state, nodes, ran, size, (slots 1).mpr (by decide), (present 1 0).mpr (by decide)⟩

end TrustDB.GlobalLog
