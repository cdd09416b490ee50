import TrustDB.FiscoBcos.Validators
import TrustDB.HashTree.Paired

/-!
Package `anchor/fiscobcos`, inclusion paths: the verifier of a transaction's or receipt's path, and
its agreement with the roots that `buildBCOSMerkleRoot` computes. The verifier is not told how
many leaves there are; it reads the widths of the groups from the path itself.
-/

namespace TrustDB.FiscoBcos

open Result List HashTree.Paired

def maxMerklePathNodes : Nat := 512

def maxBCOSMerkleGroupWidth : Nat := 2

def decodeBCOSMerkleGroupCount (encoded : Bytes) : Outcome Nat := do
  reject (encoded.length ≠ 4) (.text "group count is not a canonical uint32")
  let count := Words.decode encoded
  reject (count = 0 ∨ maxBCOSMerkleGroupWidth < count) (.text s!"group width {count} is invalid")
  return count

def positionInGroup (name : String) (level : Nat) (current : Bytes) :
    Option Nat → Nat → List Bytes → Outcome (Option Nat)
  | position, _, [] => .ok position
  | position, index, hash :: rest => do
    reject (hash.length ≠ identifierBytes)
      (invalidProof s!"{name} Merkle hash at level {level} is not 32 bytes")
    if hash = current then
      reject (position.isSome = true) (invalidProof s!"{name} Merkle group contains current hash twice")
      positionInGroup name level current (some index) (index + 1) rest
    else positionInGroup name level current position (index + 1) rest

def deriveIndex (derivedIndex : UInt64) (level position : Nat) : UInt64 :=
  if position = 1 then derivedIndex ||| (1 <<< UInt64.ofNat level) else derivedIndex

section

variable (primitives : ChainPrimitives)

def verifyMerkleLevels (name hashAlgorithm : String) :
    Nat → Nat → UInt64 → Bytes → List Bytes → Outcome (UInt64 × Bytes)
  | _, _, derivedIndex, current, [] => .ok (derivedIndex, current)
  | 0, _, _, _, _ :: _ => throw (invalidProof s!"{name} Merkle proof is incomplete")
  | fuel + 1, level, derivedIndex, current, encoded :: rest => do
    let count ← (decodeBCOSMerkleGroupCount encoded).mapError fun failure =>
      invalidProof s!"{name} Merkle proof level {level}: {failure.message}"
    reject (rest.length < count) (invalidProof s!"{name} Merkle proof level {level} is truncated")
    let group := rest.take count
    match ← positionInGroup name level current none 0 group with
    | none => throw (invalidProof s!"{name} Merkle group omits current hash")
    | some position =>
      reject (position = 1 ∧ 64 ≤ level) (invalidProof s!"{name} Merkle index overflows")
      let current ← (hashNativeEvidence primitives.hashes hashAlgorithm group.flatten).mapError fun failure =>
        invalidProof s!"{name} Merkle hash: {failure.message}"
      verifyMerkleLevels name hashAlgorithm fuel (level + 1) (deriveIndex derivedIndex level position) current
        (rest.drop count)

def verifyBCOSMerklePath (name : String) (leaf : Bytes) (path : List Bytes) (index : UInt64) (root : Bytes)
    (hashAlgorithm : String) : Outcome Unit := do
  reject (leaf.length ≠ identifierBytes ∨ root.length ≠ identifierBytes ∨ path.length = 0 ∨
      maxMerklePathNodes < path.length)
    (invalidProof s!"{name} Merkle proof is incomplete")
  match path with
  | [only] =>
    reject (only.length ≠ identifierBytes ∨ index ≠ 0 ∨ only ≠ leaf ∨ leaf ≠ root)
      (invalidProof s!"{name} single-leaf Merkle proof mismatch")
  | _ =>
    let (derivedIndex, current) ← verifyMerkleLevels primitives name hashAlgorithm path.length 0 0 leaf path
    reject (derivedIndex ≠ index)
      (invalidProof s!"{name} Merkle index={index}, proof derives {derivedIndex}")
    reject (current ≠ root) (invalidProof s!"{name} Merkle root mismatch")

end

section

variable (hashes : ChainHashes) (hashAlgorithm : String)

def nativeDigest (preimage : Bytes) : Bytes :=
  (hashNativeEvidence hashes hashAlgorithm preimage).toOption.getD []

def groupHash (group : List Bytes) : Bytes := nativeDigest hashes hashAlgorithm group.flatten

def IsHash (value : Bytes) : Prop := value.length = identifierBytes

def Supported : Prop := hashAlgorithm = hashKeccak256 ∨ hashAlgorithm = "sm3"

variable {hashes hashAlgorithm}

theorem hashNativeEvidence_eq_ok {preimage digest} :
    hashNativeEvidence hashes hashAlgorithm preimage = .ok digest ↔
      Supported hashAlgorithm ∧ nativeDigest hashes hashAlgorithm preimage = digest := by
  unfold nativeDigest hashNativeEvidence Supported
  by_cases keccak : hashAlgorithm = hashKeccak256
  · simp [keccak, Except.toOption]
  · by_cases sm3 : hashAlgorithm = "sm3"
    · simp [sm3, Except.toOption, hashKeccak256]
    · simp [keccak, sm3]

theorem nativeDigest_isHash (supported : Supported hashAlgorithm) (preimage : Bytes) :
    IsHash (nativeDigest hashes hashAlgorithm preimage) := by
  unfold nativeDigest hashNativeEvidence
  rcases supported with rfl | rfl
  · exact (hashes.keccak256 preimage).2
  · exact (hashes.sm3 preimage).2

end

section

variable {primitives : ChainPrimitives} {hashAlgorithm : String} {fuel index level place : Nat}
  {leaves group rest : List Bytes} {root current top : Bytes} {name : String} {derived : UInt64}

theorem merkleLevel_eq_ok (supported : Supported hashAlgorithm) (level : List Bytes) :
    merkleLevel primitives hashAlgorithm level = .ok (next (groupHash primitives.hashes hashAlgorithm) level) := by
  have hashed (preimage : Bytes) := hashNativeEvidence_eq_ok.mpr
    ⟨supported, (rfl : nativeDigest primitives.hashes hashAlgorithm preimage = _)⟩
  induction level using pairUp.induct with
  | case1 => rfl
  | case2 last => simp [merkleLevel, hashed, HashTree.Paired.next, pairUp, groupHash]
  | case3 left right rest ih =>
    rw [merkleLevel, hashed, ih]
    simp [HashTree.Paired.next, pairUp, groupHash]

theorem merkleLevels_eq_ok (supported : Supported hashAlgorithm) {level : List Bytes}
    (enough : level.length ≤ fuel) :
    merkleLevels primitives hashAlgorithm fuel level =
      .ok ((above (groupHash primitives.hashes hashAlgorithm) (height level.length) level).headD []) := by
  induction fuel generalizing level with
  | zero =>
    rw [merkleLevels, height_eq_zero (by omega)]
    rfl
  | succ fuel ih =>
    rw [merkleLevels]
    by_cases many : 1 < level.length
    · have shorter : (next (groupHash primitives.hashes hashAlgorithm) level).length ≤ fuel := by
        rw [next_length]
        omega
      rw [if_pos many, merkleLevel_eq_ok supported, ok_bind, ih shorter, above_next, next_length,
        height_of_two_le (show 2 ≤ level.length by omega), above]
    · rw [if_neg many, height_eq_zero (by omega)]
      rfl

theorem checkMerkleLeaves_eq_ok {done : Unit} :
    checkMerkleLeaves index leaves = .ok done ↔ ∀ leaf ∈ leaves, IsHash leaf := by
  induction leaves generalizing index with
  | nil => simp [checkMerkleLeaves]
  | cons leaf rest ih => simp [checkMerkleLeaves, ih, IsHash]

theorem buildBCOSMerkleRoot_eq_ok :
    buildBCOSMerkleRoot primitives leaves hashAlgorithm = .ok root ↔
      leaves ≠ [] ∧ (∀ leaf ∈ leaves, IsHash leaf) ∧
        merkleLevels primitives hashAlgorithm leaves.length leaves = .ok root := by
  simp [buildBCOSMerkleRoot, checkMerkleLeaves_eq_ok]

theorem positionInGroup_again {start answer} :
    positionInGroup name level current (some place) start group = .ok answer ↔
      some place = answer ∧ ∀ hash ∈ group, IsHash hash ∧ hash ≠ current := by
  induction group generalizing start with
  | nil => simp [positionInGroup]
  | cons hash rest ih =>
    by_cases same : hash = current
    · simp [positionInGroup, same]
    · simp [positionInGroup, same, ih, IsHash]
      tauto

def OnlyAt (group : List Bytes) (current : Bytes) (place : Nat) : Prop :=
  group[place]? = some current ∧ ∀ other, group[other]? = some current → other = place

theorem onlyAt_cons_self :
    OnlyAt (current :: rest) current place ↔ place = 0 ∧ current ∉ rest := by
  constructor
  · rintro ⟨-, once⟩
    obtain rfl := once 0 rfl
    refine ⟨rfl, fun again => ?_⟩
    obtain ⟨other, found⟩ := mem_iff_getElem?.mp again
    exact absurd (once (other + 1) found) (by omega)
  · rintro ⟨rfl, absent⟩
    refine ⟨rfl, fun other found => ?_⟩
    cases other with
    | zero => rfl
    | succ other => exact absurd (mem_of_getElem? (by simpa using found)) absent

theorem onlyAt_cons_of_ne {hash} (differ : hash ≠ current) :
    OnlyAt (hash :: rest) current place ↔ ∃ offset, place = offset + 1 ∧ OnlyAt rest current offset := by
  constructor
  · rintro ⟨found, once⟩
    cases place with
    | zero => exact absurd (Option.some.inj found) differ
    | succ place =>
      refine ⟨place, rfl, found, fun other again => ?_⟩
      have same := once (other + 1) again
      omega
  · rintro ⟨offset, rfl, found, once⟩
    refine ⟨found, fun other again => ?_⟩
    cases other with
    | zero => exact absurd (Option.some.inj again) differ
    | succ other => rw [once other again]

theorem positionInGroup_eq_ok {start} : positionInGroup name level current none start group = .ok (some place) ↔
      (∀ hash ∈ group, IsHash hash) ∧ ∃ offset, place = start + offset ∧ OnlyAt group current offset := by
  induction group generalizing start with
  | nil => simp [positionInGroup, OnlyAt]
  | cons hash rest ih =>
    by_cases same : hash = current
    · subst same
      simp only [positionInGroup, ↓reduceIte, bind_eq_ok, reject_eq_ok, positionInGroup_again,
        onlyAt_cons_self, forall_mem_cons, IsHash]
      constructor
      · rintro ⟨_, sized, _, -, here, others⟩
        refine ⟨⟨not_not.mp sized, fun hash member => (others hash member).1⟩, 0, ?_, rfl, ?_⟩
        · simpa using here.symm
        · exact fun again => (others _ again).2 rfl
      · rintro ⟨⟨sized, sizes⟩, offset, here, rfl, absent⟩
        refine ⟨(), not_not.mpr sized, (), by simp, by rw [here]; rfl, fun hash member => ⟨sizes hash member, ?_⟩⟩
        rintro rfl
        exact absent member
    · simp only [positionInGroup, same, ↓reduceIte, bind_eq_ok, reject_eq_ok, ih,
        onlyAt_cons_of_ne same, forall_mem_cons, IsHash, not_not]
      constructor
      · rintro ⟨_, sized, sizes, offset, rfl, only⟩
        exact ⟨⟨sized, sizes⟩, offset + 1, by omega, offset, rfl, only⟩
      · rintro ⟨⟨sized, sizes⟩, _, rfl, offset, rfl, only⟩
        exact ⟨(), sized, sizes, offset, by omega, only⟩

def encodeGroups (groups : List (List Bytes)) : List Bytes :=
  groups.flatMap fun group => Words.encode 4 group.length :: group

theorem decodeBCOSMerkleGroupCount_eq_ok {encoded count} : decodeBCOSMerkleGroupCount encoded = .ok count ↔
      encoded = Words.encode 4 count ∧ 0 < count ∧ count ≤ maxBCOSMerkleGroupWidth := by
  simp only [decodeBCOSMerkleGroupCount, bind_eq_ok, reject_eq_ok, return_eq_ok, not_not, not_or, not_lt]
  constructor
  · rintro ⟨_, four, _, ⟨positive, narrow⟩, rfl⟩
    refine ⟨?_, by omega, narrow⟩
    rw [← four, Words.encode_decode]
  · rintro ⟨rfl, positive, narrow⟩
    have small : count < 256 ^ 4 := by
      have : maxBCOSMerkleGroupWidth = 2 := rfl
      omega
    rw [Words.decode_encode 4 count small]
    exact ⟨(), Words.encode_length 4 count, (), ⟨by omega, narrow⟩, rfl⟩

theorem toNat_setBit (small : level < 64) (below : derived.toNat < 2 ^ level) :
    (derived ||| (1 <<< UInt64.ofNat level)).toNat = derived.toNat + 2 ^ level := by
  have level64 : (UInt64.ofNat level).toNat = level := UInt64.toNat_ofNat_of_lt' (by
    change level < 2 ^ 64
    omega)
  have power : 2 ^ level < 2 ^ 64 := Nat.pow_lt_pow_right (by omega) small
  have bits := Nat.two_pow_add_eq_or_of_lt below 1
  rw [Nat.mul_one] at bits
  rw [UInt64.toNat_or, UInt64.toNat_shiftLeft, level64, Nat.mod_eq_of_lt small, UInt64.toNat_one,
    Nat.shiftLeft_eq, Nat.one_mul, Nat.mod_eq_of_lt power, Nat.or_comm, ← bits, Nat.add_comm]

section

variable (narrow : place < 2) (fits : ¬(place = 1 ∧ 64 ≤ level)) (below : derived.toNat < 2 ^ level)
include narrow fits below

theorem deriveIndex_toNat :
    (deriveIndex derived level place).toNat = derived.toNat + 2 ^ level * place := by
  unfold deriveIndex
  by_cases right : place = 1
  · rw [if_pos right, toNat_setBit (by omega) below, right, Nat.mul_one]
  · obtain rfl : place = 0 := by omega
    rw [if_neg right, Nat.mul_zero, Nat.add_zero]

theorem deriveIndex_lt : (deriveIndex derived level place).toNat < 2 ^ (level + 1) := by
  have most : 2 ^ level * place ≤ 2 ^ level * 1 := Nat.mul_le_mul_left _ (by omega)
  rw [deriveIndex_toNat narrow fits below, Nat.pow_succ]
  omega

end

theorem place_lt_two (only : OnlyAt group current place) (narrow : group.length ≤ 2) : place < 2 := by
  have inside := (List.getElem?_eq_some_iff.mp only.1).1
  omega

abbrev LeadsTo (primitives : ChainPrimitives) (hashAlgorithm : String) :=
  Climbs (groupHash primitives.hashes hashAlgorithm) IsHash

theorem verifyMerkleLevels_nil :
    verifyMerkleLevels primitives name hashAlgorithm fuel level derived current [] = .ok (derived, current) := by
  cases fuel <;> rfl

theorem verifyMerkleLevels_cons {encoded answer} :
    verifyMerkleLevels primitives name hashAlgorithm (fuel + 1) level derived current (encoded :: rest) =
        .ok answer ↔
      Supported hashAlgorithm ∧ ∃ group tail place, encoded = Words.encode 4 group.length ∧ rest = group ++ tail ∧
        Proper IsHash group ∧ OnlyAt group current place ∧ ¬(place = 1 ∧ 64 ≤ level) ∧
          verifyMerkleLevels primitives name hashAlgorithm fuel (level + 1) (deriveIndex derived level place)
            (groupHash primitives.hashes hashAlgorithm group) tail = .ok answer := by
  simp only [verifyMerkleLevels, bind_eq_ok, mapError_eq_ok, decodeBCOSMerkleGroupCount_eq_ok,
    reject_eq_ok, not_lt]
  constructor
  · rintro ⟨count, ⟨rfl, positive, narrow⟩, _, whole, position, located, accepted⟩
    have width : (rest.take count).length = count := by simpa using whole
    cases position with
    | none => simp at accepted
    | some position =>
      obtain ⟨sizes, place, here, only⟩ := positionInGroup_eq_ok.mp located
      obtain rfl : position = place := by omega
      simp only [bind_eq_ok, reject_eq_ok, mapError_eq_ok, hashNativeEvidence_eq_ok] at accepted
      obtain ⟨_, fits, _, ⟨supported, rfl⟩, accepted⟩ := accepted
      exact ⟨supported, rest.take count, rest.drop count, position, by rw [width],
        (take_append_drop count rest).symm, ⟨by omega, by rw [width]; exact narrow, sizes⟩, only, fits,
        accepted⟩
  · rintro ⟨supported, group, tail, place, rfl, rfl, ⟨positive, narrow, sizes⟩, only, fits, accepted⟩
    have located : positionInGroup name level current none 0 group = .ok (some place) :=
      positionInGroup_eq_ok.mpr ⟨sizes, place, by omega, only⟩
    refine ⟨group.length, ⟨rfl, positive, narrow⟩, (), by simp, some place, by simpa using located, ?_⟩
    simp only [bind_eq_ok, reject_eq_ok, mapError_eq_ok, hashNativeEvidence_eq_ok, take_left', drop_left']
    exact ⟨(), fits, _, ⟨supported, rfl⟩, accepted⟩

theorem verifyMerkleLevels_sound {final path} (below : derived.toNat < 2 ^ level)
    (accepted : verifyMerkleLevels primitives name hashAlgorithm fuel level derived current path =
      .ok (final, top)) : ∃ groups index, path = encodeGroups groups ∧
      LeadsTo primitives hashAlgorithm current groups index top ∧
        final.toNat = derived.toNat + 2 ^ level * index := by
  induction fuel generalizing level derived current path with
  | zero =>
    cases path with
    | nil =>
      obtain ⟨rfl, rfl⟩ : derived = final ∧ current = top := by simpa [verifyMerkleLevels] using accepted
      exact ⟨[], 0, rfl, .done _, by simp⟩
    | cons encoded rest => simp [verifyMerkleLevels] at accepted
  | succ fuel ih =>
    cases path with
    | nil =>
      obtain ⟨rfl, rfl⟩ : derived = final ∧ current = top := by simpa [verifyMerkleLevels] using accepted
      exact ⟨[], 0, rfl, .done _, by simp⟩
    | cons encoded rest =>
      obtain ⟨-, group, tail, place, rfl, rfl, isProper, only, fits, accepted⟩ :=
        verifyMerkleLevels_cons.mp accepted
      have two := place_lt_two only isProper.2.1
      obtain ⟨groups, index, rfl, climbs, total⟩ := ih (deriveIndex_lt two fits below) accepted
      refine ⟨group :: groups, 2 * index + place, rfl, .step isProper only.1 only.2 climbs, ?_⟩
      rw [total, deriveIndex_toNat two fits below]
      ring

theorem verifyMerkleLevels_complete (supported : Supported hashAlgorithm) {groups}
    (below : derived.toNat < 2 ^ level) (climbs : LeadsTo primitives hashAlgorithm current groups index top)
    (fits : 2 ^ level * index < 2 ^ 64) (enough : (encodeGroups groups).length ≤ fuel) :
    ∃ final, verifyMerkleLevels primitives name hashAlgorithm fuel level derived current (encodeGroups groups) =
      .ok (final, top) ∧ final.toNat = derived.toNat + 2 ^ level * index := by
  induction climbs generalizing fuel level derived with
  | done node => exact ⟨derived, verifyMerkleLevels_nil, by simp⟩
  | @step node top group groups place index isProper found once _ ih =>
    have only : OnlyAt group node place := ⟨found, once⟩
    have two := place_lt_two only isProper.2.1
    have digits : 2 ^ level * (2 * index + place) = 2 ^ (level + 1) * index + 2 ^ level * place := by ring
    have inRange : ¬(place = 1 ∧ 64 ≤ level) := by
      rintro ⟨rfl, high⟩
      have power : 2 ^ 64 ≤ 2 ^ level := Nat.pow_le_pow_right (by omega) high
      omega
    have size : (encodeGroups (group :: groups)).length = group.length + (encodeGroups groups).length + 1 := by
      simp [encodeGroups]
    obtain ⟨less, rfl⟩ : ∃ less, fuel = less + 1 := ⟨fuel - 1, by omega⟩
    obtain ⟨final, accepted, total⟩ := @ih less _ _ (deriveIndex_lt two inRange below) (by omega) (by omega)
    refine ⟨final, verifyMerkleLevels_cons.mpr ⟨supported, group, encodeGroups groups, place, rfl, rfl, isProper,
      only, inRange, accepted⟩, ?_⟩
    rw [total, deriveIndex_toNat two inRange below, digits]
    omega

def pathOf (root : Bytes) : List (List Bytes) → List Bytes
  | [] => [root]
  | groups => encodeGroups groups

theorem two_le_length_encodeGroups {groups}
    (climbs : LeadsTo primitives hashAlgorithm current (group :: groups) index top) :
    2 ≤ (encodeGroups (group :: groups)).length := by
  cases climbs with
  | step isProper found once above =>
    have positive := isProper.1
    simp only [encodeGroups, flatMap_cons, length_append, length_cons]
    omega

theorem verifyBCOSMerklePath_eq_ok {leaf path} {index : UInt64} {done} :
    verifyBCOSMerklePath primitives name leaf path index root hashAlgorithm = .ok done ↔
      IsHash leaf ∧ IsHash root ∧ path.length ≤ maxMerklePathNodes ∧
        ∃ groups, (groups ≠ [] → Supported hashAlgorithm) ∧
          LeadsTo primitives hashAlgorithm leaf groups index.toNat root ∧ path = pathOf root groups := by
  simp only [verifyBCOSMerklePath, bind_eq_ok, reject_eq_ok, not_or, not_not, not_lt]
  constructor
  · rintro ⟨_, ⟨leafSize, rootSize, nonempty, short⟩, accepted⟩
    refine ⟨leafSize, rootSize, short, ?_⟩
    rcases path with _ | ⟨only, _ | ⟨second, rest⟩⟩
    · exact absurd rfl nonempty
    · simp only [reject_eq_ok, not_or, not_not] at accepted
      obtain ⟨-, rfl, rfl, rfl⟩ := accepted
      exact ⟨[], fun some => absurd rfl some, .done only, rfl⟩
    · simp only [bind_eq_ok, reject_eq_ok, not_not] at accepted
      obtain ⟨⟨derived, top⟩, climbed, _, rfl, rfl⟩ := accepted
      obtain ⟨groups, index, path, climbs, total⟩ := verifyMerkleLevels_sound (by decide) climbed
      have supported := (verifyMerkleLevels_cons.mp climbed).1
      obtain rfl : derived.toNat = index := by simpa using total
      refine ⟨groups, fun _ => supported, climbs, ?_⟩
      cases groups with
      | nil => simp [encodeGroups] at path
      | cons group groups => exact path
  · rintro ⟨leafSize, rootSize, short, groups, supported, climbs, rfl⟩
    cases groups with
    | nil =>
      generalize same : index.toNat = number at climbs
      cases climbs with
      | done =>
        obtain rfl : index = 0 := UInt64.toNat_inj.mp same
        refine ⟨(), ⟨leafSize, rootSize, by simp [pathOf], short⟩, ?_⟩
        simpa [pathOf, IsHash] using leafSize
    | cons group groups =>
      obtain ⟨first, second, rest, shape⟩ :
          ∃ first second rest, encodeGroups (group :: groups) = first :: second :: rest := by
        have long := two_le_length_encodeGroups climbs
        generalize encodeGroups (group :: groups) = encoded at long
        rcases encoded with _ | ⟨first, _ | ⟨second, rest⟩⟩
        · simp at long
        · simp at long
        · exact ⟨first, second, rest, rfl⟩
      have start : (0 : UInt64).toNat < 2 ^ 0 := by decide
      obtain ⟨final, accepted, total⟩ := verifyMerkleLevels_complete (supported (by simp)) start climbs
        (by simpa using index.toNat_lt) (le_rfl)
      obtain rfl : final = index := UInt64.toNat_inj.mp (by simpa using total)
      simp only [pathOf, shape] at accepted short ⊢
      refine ⟨(), ⟨leafSize, rootSize, by simp, short⟩, ?_⟩
      rw [accepted]
      simp

theorem supported_of_merkleLevels {level : List Bytes} (many : 2 ≤ level.length)
    (built : merkleLevels primitives hashAlgorithm (fuel + 1) level = .ok root) : Supported hashAlgorithm := by
  rw [merkleLevels, if_pos (show 1 < level.length by omega), bind_eq_ok] at built
  obtain ⟨_, hashed, -⟩ := built
  match level, many with
  | left :: right :: rest, _ =>
    simp only [merkleLevel, bind_eq_ok, hashNativeEvidence_eq_ok] at hashed
    obtain ⟨_, ⟨supported, -⟩, -⟩ := hashed
    exact supported

theorem supported_of_built (many : 0 < height leaves.length)
    (built : buildBCOSMerkleRoot primitives leaves hashAlgorithm = .ok root) : Supported hashAlgorithm := by
  have long : 2 ≤ leaves.length := by
    by_contra short
    rw [height_eq_zero (by omega)] at many
    omega
  obtain ⟨less, same⟩ : ∃ less, leaves.length = less + 1 := ⟨leaves.length - 1, by omega⟩
  obtain ⟨-, -, levels⟩ := buildBCOSMerkleRoot_eq_ok.mp built
  rw [same] at levels
  exact supported_of_merkleLevels long levels

theorem above_of_built (built : buildBCOSMerkleRoot primitives leaves hashAlgorithm = .ok root) :
    above (groupHash primitives.hashes hashAlgorithm) (height leaves.length) leaves = [root] := by
  obtain ⟨nonempty, -, levels⟩ := buildBCOSMerkleRoot_eq_ok.mp built
  obtain ⟨top, reached⟩ := exists_top (groupHash primitives.hashes hashAlgorithm) leaves nonempty
  by_cases many : 0 < height leaves.length
  · rw [merkleLevels_eq_ok (supported_of_built many built) (le_rfl), reached] at levels
    rw [reached, show root = top from (Except.ok.inj levels).symm]
  · have flat : height leaves.length = 0 := by omega
    rw [flat] at reached ⊢
    obtain rfl : leaves = [top] := reached
    rw [show root = top from (Except.ok.inj levels).symm]
    rfl

/-- No other group has the hash of a group of this tree, and no leaf is the hash of a group. -/
structure CollisionFreeTree (hashes : ChainHashes) (hashAlgorithm : String) (leaves : List Bytes) : Prop where
  leaf : ∀ group, Proper IsHash group → groupHash hashes hashAlgorithm group ∉ leaves
  inner : ∀ rounds < height leaves.length,
    ∀ group ∈ pairUp (above (groupHash hashes hashAlgorithm) rounds leaves), ∀ other, Proper IsHash other →
      nativeDigest hashes hashAlgorithm other.flatten = nativeDigest hashes hashAlgorithm group.flatten →
        other.flatten = group.flatten

theorem flatten_length_of_isHash (sizes : ∀ hash ∈ group, IsHash hash) :
    group.flatten.length = identifierBytes * group.length := by
  induction group with
  | nil => rfl
  | cons hash rest ih =>
    rw [flatten_cons, length_append, ih fun other member => sizes other (mem_cons_of_mem _ member),
      sizes hash mem_cons_self, length_cons]
    ring

theorem flatten_injective {first second : List Bytes} (firstSizes : ∀ hash ∈ first, IsHash hash)
    (secondSizes : ∀ hash ∈ second, IsHash hash) (same : first.flatten = second.flatten) : first = second := by
  have lengths : first.length = second.length := by
    have total := congrArg length same
    rw [flatten_length_of_isHash firstSizes, flatten_length_of_isHash secondSizes] at total
    exact Nat.eq_of_mul_eq_mul_left (by decide) total
  refine eq_iff_flatten_eq.mpr ⟨same, ?_⟩
  rw [map_eq_replicate_iff.mpr firstSizes, map_eq_replicate_iff.mpr secondSizes, lengths]

theorem above_isHash {rounds : Nat} (below : rounds ≤ height leaves.length)
    (built : buildBCOSMerkleRoot primitives leaves hashAlgorithm = .ok root) :
    ∀ node ∈ above (groupHash primitives.hashes hashAlgorithm) rounds leaves, IsHash node := by
  cases rounds with
  | zero => exact (buildBCOSMerkleRoot_eq_ok.mp built).2.1
  | succ rounds =>
    intro node member
    obtain ⟨group, -, rfl⟩ := mem_map.mp member
    exact nativeDigest_isHash (supported_of_built (by omega) built) group.flatten

theorem CollisionFreeTree.binds (free : CollisionFreeTree primitives.hashes hashAlgorithm leaves)
    (distinct : leaves.Nodup) (built : buildBCOSMerkleRoot primitives leaves hashAlgorithm = .ok root) :
    Binds (groupHash primitives.hashes hashAlgorithm) IsHash leaves := by
  obtain ⟨-, sizes, -⟩ := buildBCOSMerkleRoot_eq_ok.mp built
  refine ⟨sizes, ?_, distinct, free.leaf, ?_⟩
  · intro rounds below group _
    exact nativeDigest_isHash (supported_of_built (by omega) built) group.flatten
  · intro rounds below group member other isProper same
    refine flatten_injective isProper.2.2 ?_ (free.inner rounds below group member other isProper same)
    exact fun hash inside => above_isHash (by omega) built hash (mem_of_mem_pairUp member inside)

theorem groupPath_encoded_length (hash : List Bytes → Bytes) (rounds : Nat) (level : List Bytes) (index : Nat) :
    (encodeGroups (groupPath hash rounds level index)).length ≤ 3 * rounds := by
  induction rounds generalizing level index with
  | zero => simp [groupPath, encodeGroups]
  | succ rounds ih =>
    have width : ((pairUp level).getD (index / 2) []).length ≤ 2 := by
      rw [getD_eq_getElem?_getD]
      cases found : (pairUp level)[index / 2]? with
      | none => simp
      | some group => exact (pairUp_width (mem_of_getElem? found)).2
    have rest := ih (next hash level) (index / 2)
    simp only [groupPath, encodeGroups, flatMap_cons, length_append, length_cons] at rest ⊢
    omega

end

section

variable (primitives : ChainPrimitives) (hashAlgorithm : String) (leaves : List Bytes) (root : Bytes)

def treeLevel (rounds : Nat) : List Bytes := above (groupHash primitives.hashes hashAlgorithm) rounds leaves

/-- The path of the node at an index of a level: the groups from there to the root, or the root
alone. -/
def treePath (rounds index : Nat) : List Bytes :=
  pathOf root (groupPath (groupHash primitives.hashes hashAlgorithm) (height leaves.length - rounds)
    (treeLevel primitives hashAlgorithm leaves rounds) index)

variable {primitives hashAlgorithm leaves root}

theorem verifyBCOSMerklePath_iff_node {name} (distinct : leaves.Nodup)
    (free : CollisionFreeTree primitives.hashes hashAlgorithm leaves)
    (built : buildBCOSMerkleRoot primitives leaves hashAlgorithm = .ok root) {value path index}
    (short : path.length ≤ maxMerklePathNodes) :
    verifyBCOSMerklePath primitives name value path index root hashAlgorithm = .ok () ↔
      ∃ rounds ≤ height leaves.length,
        (treeLevel primitives hashAlgorithm leaves rounds)[index.toNat]? = some value ∧
          path = treePath primitives hashAlgorithm leaves root rounds index.toNat := by
  have binds := free.binds distinct built
  have top := above_of_built built
  rw [verifyBCOSMerklePath_eq_ok]
  constructor
  · rintro ⟨-, -, -, groups, -, climbs, rfl⟩
    obtain ⟨rounds, below, found, rfl⟩ := climbs.sound binds top
    exact ⟨rounds, below, found, rfl⟩
  · rintro ⟨rounds, below, found, rfl⟩
    refine ⟨binds.above_valid below value (mem_of_getElem? found), ?_, short, _, ?_,
      Climbs.complete binds top below found, rfl⟩
    · exact binds.above_valid (le_rfl) root (by rw [top]; exact mem_singleton.mpr rfl)
    · intro climbing
      refine supported_of_built ?_ built
      by_contra flat
      exact climbing (by rw [show height leaves.length - rounds = 0 by omega]; rfl)

theorem verifyBCOSMerklePath_iff_leaf {name} (distinct : leaves.Nodup)
    (free : CollisionFreeTree primitives.hashes hashAlgorithm leaves)
    (built : buildBCOSMerkleRoot primitives leaves hashAlgorithm = .ok root) {value path index}
    (short : path.length ≤ maxMerklePathNodes)
    (notHash : ∀ group, Proper IsHash group → groupHash primitives.hashes hashAlgorithm group ≠ value) :
    verifyBCOSMerklePath primitives name value path index root hashAlgorithm = .ok () ↔
      leaves[index.toNat]? = some value ∧
        path = treePath primitives hashAlgorithm leaves root 0 index.toNat := by
  rw [verifyBCOSMerklePath_iff_node distinct free built short]
  constructor
  · rintro ⟨rounds, below, found, path⟩
    cases rounds with
    | zero => exact ⟨found, path⟩
    | succ rounds =>
      obtain ⟨group, own, same⟩ := mem_map.mp (mem_of_getElem? found)
      exact absurd same (notHash group ((free.binds distinct built).proper (by omega) own))
  · rintro ⟨found, path⟩
    exact ⟨0, Nat.zero_le _, found, path⟩

theorem treePath_length {rounds index : Nat} (small : leaves.length ≤ 2 ^ 64) :
    (treePath primitives hashAlgorithm leaves root rounds index).length ≤ maxMerklePathNodes := by
  have low : height leaves.length ≤ 64 := Nat.clog_le_of_le_pow small
  have bound := groupPath_encoded_length (groupHash primitives.hashes hashAlgorithm)
    (height leaves.length - rounds) (treeLevel primitives hashAlgorithm leaves rounds) index
  have limit : maxMerklePathNodes = 512 := rfl
  unfold treePath pathOf
  split
  · simp [limit]
  · omega

/-- Path verification against a root that `buildBCOSMerkleRoot` computed. The accepted values are
the nodes of the tree, each at its index in its own level and with the groups from there on. So
a value that is not the hash of a group is accepted exactly as the leaf at its index, every
leaf is accepted, and no other such value is. -/
theorem merkle_path_agrees_with_root (name : String) (distinct : leaves.Nodup)
    (free : CollisionFreeTree primitives.hashes hashAlgorithm leaves)
    (built : buildBCOSMerkleRoot primitives leaves hashAlgorithm = .ok root) :
    (∀ value path (index : UInt64), path.length ≤ maxMerklePathNodes →
      (verifyBCOSMerklePath primitives name value path index root hashAlgorithm = .ok () ↔
        ∃ rounds ≤ height leaves.length,
          (treeLevel primitives hashAlgorithm leaves rounds)[index.toNat]? = some value ∧
            path = treePath primitives hashAlgorithm leaves root rounds index.toNat)) ∧
    (∀ value path (index : UInt64), path.length ≤ maxMerklePathNodes →
      (∀ group, Proper IsHash group → groupHash primitives.hashes hashAlgorithm group ≠ value) →
        (verifyBCOSMerklePath primitives name value path index root hashAlgorithm = .ok () ↔
          leaves[index.toNat]? = some value ∧
            path = treePath primitives hashAlgorithm leaves root 0 index.toNat)) ∧
    (leaves.length ≤ 2 ^ 64 → ∀ value position, leaves[position]? = some value →
      verifyBCOSMerklePath primitives name value (treePath primitives hashAlgorithm leaves root 0 position)
        (UInt64.ofNat position) root hashAlgorithm = .ok ()) ∧
    (∀ value, value ∉ leaves →
      (∀ group, Proper IsHash group → groupHash primitives.hashes hashAlgorithm group ≠ value) →
        ∀ path index, verifyBCOSMerklePath primitives name value path index root hashAlgorithm ≠ .ok ()) := by
  refine ⟨?_, ?_, ?_, ?_⟩
  · intro value path index short
    exact verifyBCOSMerklePath_iff_node distinct free built short
  · intro value path index short notHash
    exact verifyBCOSMerklePath_iff_leaf distinct free built short notHash
  · intro small value position found
    have inside : position < leaves.length := (List.getElem?_eq_some_iff.mp found).1
    have number : (UInt64.ofNat position).toNat = position :=
      UInt64.toNat_ofNat_of_lt' (Nat.lt_of_lt_of_le inside small)
    exact (verifyBCOSMerklePath_iff_node distinct free built (treePath_length small)).mpr
      ⟨0, Nat.zero_le _, by rw [number]; exact found, by rw [number]⟩
  · intro value absent notHash path index accepted
    obtain ⟨-, -, short, -⟩ := verifyBCOSMerklePath_eq_ok.mp accepted
    obtain ⟨found, -⟩ := (verifyBCOSMerklePath_iff_leaf distinct free built short notHash).mp accepted
    exact absent (List.mem_of_getElem? found)

end

namespace MerkleSample

def filled (byte : UInt8) : Bytes := List.replicate 32 byte

def leaves : List Bytes := [filled 11, filled 12, filled 13]

/-- Different on the three groups of the tree over `leaves`, and elsewhere constant. -/
def digestByte (data : Bytes) : UInt8 :=
  if data = filled 11 ++ filled 12 then 1
  else if data = filled 13 then 2
  else if data = filled 1 ++ filled 2 then 3
  else 4

def digest (data : Bytes) : Digest := .ofBytes (filled (digestByte data))

def primitives : ChainPrimitives where
  hashes := { keccak256 := digest, sm3 := digest }
  unmarshalPubkey := fun _ => true
  sigToPub := fun _ _ => .ok []
  newSM2PublicKey := fun _ => .ok ()
  calculateSM2Hash := fun _ blockHash _ => .ok blockHash
  sm2Verify := fun _ _ _ _ => true

theorem nativeDigest_eq (data : Bytes) :
    nativeDigest primitives.hashes "sm3" data = filled (digestByte data) :=
  Digest.bytes_ofBytes (length_replicate ..)

theorem digestByte_cases (data : Bytes) :
    digestByte data = 1 ∧ data = filled 11 ++ filled 12 ∨ digestByte data = 2 ∧ data = filled 13 ∨
      digestByte data = 3 ∧ data = filled 1 ++ filled 2 ∨ digestByte data = 4 := by
  unfold digestByte
  by_cases first : data = filled 11 ++ filled 12
  · exact .inl ⟨if_pos first, first⟩
  · by_cases second : data = filled 13
    · exact .inr (.inl ⟨by rw [if_neg first, if_pos second], second⟩)
    · by_cases third : data = filled 1 ++ filled 2
      · exact .inr (.inr (.inl ⟨by rw [if_neg first, if_neg second, if_pos third], third⟩))
      · exact .inr (.inr (.inr (by rw [if_neg first, if_neg second, if_neg third])))

theorem digestByte_injective {first second} (same : digestByte first = digestByte second)
    (special : digestByte second ≠ 4) : first = second := by
  rcases digestByte_cases first with ⟨byte, rfl⟩ | ⟨byte, rfl⟩ | ⟨byte, rfl⟩ | byte <;>
    rcases digestByte_cases second with ⟨other, rfl⟩ | ⟨other, rfl⟩ | ⟨other, rfl⟩ | other <;>
      first
        | rfl
        | exact absurd other special
        | exact absurd (byte.symm.trans (same.trans other)) (by decide)

theorem collisionFree : CollisionFreeTree primitives.hashes "sm3" leaves where
  leaf := by
    intro group _
    rw [groupHash, nativeDigest_eq]
    rcases digestByte_cases group.flatten with ⟨byte, -⟩ | ⟨byte, -⟩ | ⟨byte, -⟩ | byte <;> rw [byte] <;> decide
  inner := by
    intro rounds below group member other _ same
    rw [nativeDigest_eq, nativeDigest_eq] at same
    have special : (range (height leaves.length)).all (fun rounds =>
        (pairUp (above (groupHash primitives.hashes "sm3") rounds leaves)).all fun group =>
          digestByte group.flatten ≠ 4) = true := by decide +kernel
    rw [all_eq_true] at special
    have own := all_eq_true.mp (special rounds (mem_range.mpr below)) group member
    exact digestByte_injective ((replicate_inj.mp same).2.resolve_left (by decide)) (by simpa using own)

/-- The root of a tree with several leaves is accepted as if it were a leaf. -/
theorem inner_node_is_accepted :
    leaves.Nodup ∧ CollisionFreeTree primitives.hashes "sm3" leaves ∧
      (buildBCOSMerkleRoot primitives leaves "sm3").toOption = some (filled 3) ∧
        (verifyBCOSMerklePath primitives "receipt" (filled 3) [filled 3] 0 (filled 3) "sm3").toOption = some () ∧
          filled 3 ∉ leaves :=
  ⟨by decide, collisionFree, by decide +kernel, by decide +kernel, by decide⟩

theorem built : buildBCOSMerkleRoot primitives leaves "sm3" = .ok (filled 3) :=
  toOption_eq_some.mp (by decide +kernel)

/-- The last of three leaves, alone in its group, is accepted with the path of the tree. -/
theorem sample_paths_agree :
    (verifyBCOSMerklePath primitives "receipt" (filled 13)
        (treePath primitives "sm3" leaves (filled 3) 0 2) 2 (filled 3) "sm3" = .ok ()) ∧
      treePath primitives "sm3" leaves (filled 3) 0 2 =
        [Words.encode 4 1, filled 13, Words.encode 4 2, filled 1, filled 2] :=
  ⟨(merkle_path_agrees_with_root "receipt" (by decide) collisionFree built).2.2.1 (by decide) (filled 13) 2 rfl,
    by decide +kernel⟩

end MerkleSample

end TrustDB.FiscoBcos
