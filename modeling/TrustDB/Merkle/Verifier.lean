import TrustDB.HashTree.Binding
import TrustDB.Merkle.Tree

/-!
Merkle verification as the machine runs it. The tree size and the leaf index come
from a proof, so they are arbitrary 64-bit values, converted to a signed `int`
whose shifts and differences wrap. Fuel bounds the number of loop turns and nested
calls; `none` is a run that has not finished yet.
-/

namespace TrustDB.Merkle

open CryptoSuite TrustCrypto HashTree Option

def int64 (value : Int) : Int := Int.bmod value (2 ^ 64)

namespace Machine

def largestPowerOfTwoLoop : Nat → Int → Int → Option Int
  | 0, _, _ => none
  | fuel + 1, n, k =>
    if int64 (2 * k) < n then largestPowerOfTwoLoop fuel n (int64 (2 * k)) else some k

def largestPowerOfTwoLessThan (fuel : Nat) (n : Int) : Option Int :=
  if n < 2 then some 0 else largestPowerOfTwoLoop fuel n 1

def rebuild (hashes : Hashes) (profile : Profile) (leafHash : Bytes) :
    Nat → Int → Int → List Bytes → Option (Option (Digest × List Bytes))
  | 0, _, _, _ => none
  | fuel + 1, index, treeSize, path =>
    if treeSize = 1 then some (some (bytesToHash leafHash, path))
    else do
      let k ← largestPowerOfTwoLessThan fuel treeSize
      if index < k then
        match ← rebuild hashes profile leafHash fuel index k path with
        | some (left, right :: rest) =>
          if right.length ≠ profile.size then return none
          else return some (hashNode hashes profile left (bytesToHash right), rest)
        | _ => return none
      else
        match ← rebuild hashes profile leafHash fuel (int64 (index - k)) (int64 (treeSize - k))
            path with
        | some (right, left :: rest) =>
          if left.length ≠ profile.size then return none
          else return some (hashNode hashes profile (bytesToHash left) right, rest)
        | _ => return none

end Machine

def Malformed (profile : Profile) (leafHash root : Bytes) (index treeSize : Nat) : Prop :=
  leafHash.length ≠ profile.size ∨ root.length ≠ profile.size ∨ treeSize = 0 ∨ treeSize ≤ index

instance (profile : Profile) (leafHash root : Bytes) (index treeSize : Nat) :
    Decidable (Malformed profile leafHash root index treeSize) :=
  inferInstanceAs (Decidable (_ ∨ _))

def verifyWithProfile (hashes : Hashes) (fuel : Nat) (profile : Profile) (leafHash : Bytes)
    (index treeSize : Nat) (auditPath : List Bytes) (root : Bytes) : Option Bool :=
  if Malformed profile leafHash root index treeSize then some false
  else do
    match ← Machine.rebuild hashes profile leafHash fuel (int64 index) (int64 treeSize)
        auditPath with
    | some (got, rest) => return rest.isEmpty && got.bytes = root
    | none => return false

def verifyForSuite (hashes : Hashes) (fuel : Nat) (suiteID : ID) (treeAlgorithm : String)
    (leafHash : Bytes) (index treeSize : Nat) (auditPath : List Bytes) (root : Bytes) :
    ExceptT Err Option Bool := do
  let profile ← ExceptT.mk (some (profileForAlgorithm suiteID treeAlgorithm))
  ExceptT.lift (verifyWithProfile hashes fuel profile leafHash index treeSize auditPath root)

theorem int64_of_bounds {value} (lower : -2 ^ 63 ≤ value) (upper : value < 2 ^ 63) : int64 value = value := by
  unfold int64
  rw [Int.bmod_eq_of_le] <;> omega

namespace Machine

theorem largestPowerOfTwoLoop_eq_split {n : Nat} (small : n ≤ 2 ^ 62) : ∀ fuel level,
    2 ^ level < n → 62 ≤ level + fuel →
      largestPowerOfTwoLoop fuel n ((2 ^ level : Nat) : Int) = some (split n : Int) := by
  intro fuel
  induction fuel with
  | zero =>
    intro level below bound
    have above : 2 ^ 62 ≤ 2 ^ level := Nat.pow_le_pow_right (by omega) (by omega)
    omega
  | succ fuel ih =>
    intro level below bound
    have double : (2 * (2 ^ level : Nat) : Int) = ((2 ^ (level + 1) : Nat) : Int) := by
      rw [Nat.pow_succ]
      omega
    have power : 2 ^ (level + 1) = 2 * 2 ^ level := Nat.pow_succ'
    have exact : int64 (2 * ((2 ^ level : Nat) : Int)) = ((2 ^ (level + 1) : Nat) : Int) := by
      rw [double]
      exact int64_of_bounds (by omega) (by omega)
    simp only [largestPowerOfTwoLoop, exact]
    split
    · exact ih (level + 1) (by omega) (by omega)
    · rw [split_eq_of_bounds below (by omega)]

theorem largestPowerOfTwoLessThan_eq_split {n fuel : Nat} (large : 2 ≤ n) (small : n ≤ 2 ^ 62)
    (enough : 62 ≤ fuel) : largestPowerOfTwoLessThan fuel n = some (split n : Int) := by
  rw [largestPowerOfTwoLessThan, if_neg (by omega)]
  exact largestPowerOfTwoLoop_eq_split small fuel 0 (by simpa using Nat.lt_of_succ_le large)
    (by omega)

section

variable {hashes : Hashes} {profile : Profile} {leafHash : Bytes}

def enoughFuel : Nat := 128

/-- On sizes that do not wrap the machine run is the recursion over the RFC 6962 shape. -/
theorem rebuild_eq : ∀ level (size index : Nat) fuel (path : List Bytes), 0 < size → size ≤ 2 ^ level →
    level ≤ 62 → index < size → level + 63 ≤ fuel →
      rebuild hashes profile leafHash fuel (index : Int) (size : Int) path =
        some ((rfcShape size).rebuild (hashNode hashes profile) Digest.ofBytes?
          (bytesToHash leafHash) index path) := by
  intro level
  induction level with
  | zero =>
    intro size index fuel path positive above _ inside enough
    obtain ⟨fuel, rfl⟩ : ∃ rest, fuel = rest + 1 := ⟨fuel - 1, by omega⟩
    obtain rfl : size = 1 := by simp at above; omega
    simp [rebuild, rfcShape_small, Shape.rebuild]
  | succ level ih =>
    intro size index fuel path positive above deep inside enough
    obtain ⟨fuel, rfl⟩ : ∃ rest, fuel = rest + 1 := ⟨fuel - 1, by omega⟩
    by_cases single : size = 1
    · simp [single, rebuild, rfcShape_small, Shape.rebuild]
    · have large : 2 ≤ size := by omega
      have below := split_lt large
      have splitPos := split_pos size
      have half := two_mul_split_le_of_le large above
      have covers := le_two_mul_split large
      have width : 2 ^ (level + 1) = 2 * 2 ^ level := Nat.pow_succ'
      have cap : 2 ^ (level + 1) ≤ 2 ^ 62 := Nat.pow_le_pow_right (by omega) deep
      have point : largestPowerOfTwoLessThan fuel (size : Int) = some (split size : Int) :=
        largestPowerOfTwoLessThan_eq_split large (by omega) (by omega)
      have several : ¬(size : Int) = 1 := by omega
      rw [rfcShape_split large]
      simp only [rebuild, several, ↓reduceIte, point, bind_eq_bind, bind_some,
        Shape.rebuild, rfcShape_size splitPos]
      by_cases goesLeft : index < split size
      · have goesLeftInt : (index : Int) < (split size : Int) := by omega
        have child := ih (split size) index fuel path splitPos (by omega) (by omega) goesLeft
          (by omega)
        simp only [goesLeft, goesLeftInt, ↓reduceIte, child, bind_some]
        generalize (rfcShape (split size)).rebuild _ _ _ index path = rebuilt
        rcases rebuilt with _ | ⟨left, _ | ⟨right, rest⟩⟩
        · rfl
        · rfl
        · by_cases length : right.length = 32 <;> simp [length, Digest.ofBytes?, bytesToHash]
      · have goesRightInt : ¬(index : Int) < (split size : Int) := by omega
        have indexEq : int64 ((index : Int) - (split size : Int)) =
            ((index - split size : Nat) : Int) := by
          rw [Int.ofNat_sub (by omega)]
          exact int64_of_bounds (by omega) (by omega)
        have sizeEq : int64 ((size : Int) - (split size : Int)) =
            ((size - split size : Nat) : Int) := by
          rw [Int.ofNat_sub (by omega)]
          exact int64_of_bounds (by omega) (by omega)
        have child := ih (size - split size) (index - split size) fuel path (by omega) (by omega)
          (by omega) (by omega) (by omega)
        simp only [goesLeft, goesRightInt, ↓reduceIte, indexEq, sizeEq, child, bind_some]
        generalize (rfcShape (size - split size)).rebuild _ _ _ _ path = rebuilt
        rcases rebuilt with _ | ⟨right, _ | ⟨left, rest⟩⟩
        · rfl
        · rfl
        · by_cases length : left.length = 32 <;> simp [length, Digest.ofBytes?, bytesToHash]

theorem largestPowerOfTwoLoop_mono {n result} : ∀ fuel k, largestPowerOfTwoLoop fuel n k = some result →
      largestPowerOfTwoLoop (fuel + 1) n k = some result := by
  intro fuel
  induction fuel with
  | zero => intro k found; simp [largestPowerOfTwoLoop] at found
  | succ fuel ih =>
    intro k found
    rw [largestPowerOfTwoLoop] at found ⊢
    split at found
    · rename_i further
      rw [if_pos further]
      exact ih _ found
    · rename_i stops
      rw [if_neg stops]
      exact found

theorem largestPowerOfTwoLessThan_mono {fuel n result} (found : largestPowerOfTwoLessThan fuel n = some result) :
    largestPowerOfTwoLessThan (fuel + 1) n = some result := by
  unfold largestPowerOfTwoLessThan at found ⊢
  split at found
  · rename_i small
    rw [if_pos small]
    exact found
  · rename_i large
    rw [if_neg large]
    exact largestPowerOfTwoLoop_mono fuel 1 found

theorem rebuild_mono : ∀ fuel index treeSize (path : List Bytes) result,
    rebuild hashes profile leafHash fuel index treeSize path = some result →
      rebuild hashes profile leafHash (fuel + 1) index treeSize path = some result := by
  intro fuel
  induction fuel with
  | zero => intro index treeSize path result found; simp [rebuild] at found
  | succ fuel ih =>
    intro index treeSize path result found
    rw [rebuild] at found ⊢
    split at found
    · rename_i single
      rw [if_pos single]
      exact found
    · rename_i several
      rw [if_neg several]
      obtain ⟨k, point, rest⟩ := bind_eq_some_iff.mp found
      refine bind_eq_some_iff.mpr ⟨k, largestPowerOfTwoLessThan_mono point, ?_⟩
      split at rest
      · rename_i goesLeft
        obtain ⟨child, childFound, combined⟩ := bind_eq_some_iff.mp rest
        rw [if_pos goesLeft]
        exact bind_eq_some_iff.mpr ⟨child, ih _ _ _ _ childFound, combined⟩
      · rename_i goesRight
        obtain ⟨child, childFound, combined⟩ := bind_eq_some_iff.mp rest
        rw [if_neg goesRight]
        exact bind_eq_some_iff.mpr ⟨child, ih _ _ _ _ childFound, combined⟩

theorem rebuild_mono_add (more : Nat) {fuel index treeSize path result}
    (found : rebuild hashes profile leafHash fuel index treeSize path = some result) :
    rebuild hashes profile leafHash (fuel + more) index treeSize path = some result := by
  induction more with
  | zero => exact found
  | succ more ih => exact rebuild_mono (fuel + more) _ _ _ _ ih

/-- A value of the loop variable from which the loop can never stop when `n` is above `2 ^ 62`. -/
def Trapped (k : Int) : Prop := k = 0 ∨ k = -2 ^ 63 ∨ ∃ level : Nat, level ≤ 62 ∧ k = 2 ^ level

theorem Trapped.turn {n k : Int} (large : 2 ^ 62 < n) (trapped : Trapped k) :
    int64 (2 * k) < n ∧ Trapped (int64 (2 * k)) := by
  rcases trapped with rfl | rfl | ⟨level, bound, rfl⟩
  · have zero : int64 (2 * 0) = 0 := by decide
    rw [zero]
    exact ⟨by omega, .inl rfl⟩
  · have zero : int64 (2 * -2 ^ 63) = 0 := by decide
    rw [zero]
    exact ⟨by omega, .inl rfl⟩
  · by_cases top : level = 62
    · subst top
      have negative : int64 (2 * 2 ^ 62) = -2 ^ 63 := by decide
      rw [negative]
      exact ⟨by omega, .inr (.inl rfl)⟩
    · have power : (2 : Int) * 2 ^ level = 2 ^ (level + 1) := by rw [Int.pow_succ]; omega
      have cap : (2 : Int) ^ (level + 1) ≤ 2 ^ 62 := by
        exact_mod_cast Nat.pow_le_pow_right (by omega : 0 < 2) (by omega : level + 1 ≤ 62)
      have positive : (0 : Int) < 2 ^ (level + 1) := Int.pow_pos (by omega)
      rw [power, int64_of_bounds (by omega) (by omega)]
      exact ⟨by omega, .inr (.inr ⟨level + 1, by omega, rfl⟩)⟩

theorem largestPowerOfTwoLoop_diverges {n : Int} (large : 2 ^ 62 < n) : ∀ fuel k, Trapped k →
    largestPowerOfTwoLoop fuel n k = none := by
  intro fuel
  induction fuel with
  | zero => intro k _; rfl
  | succ fuel ih =>
    intro k trapped
    obtain ⟨further, next⟩ := trapped.turn large
    rw [largestPowerOfTwoLoop, if_pos further]
    exact ih _ next

theorem largestPowerOfTwoLessThan_diverges {n : Int} (large : 2 ^ 62 < n) (fuel : Nat) :
    largestPowerOfTwoLessThan fuel n = none := by
  rw [largestPowerOfTwoLessThan, if_neg (by omega)]
  exact largestPowerOfTwoLoop_diverges large fuel 1 (.inr (.inr ⟨0, by omega, rfl⟩))

theorem rebuild_diverges_nonpositive : ∀ fuel (index treeSize : Int) (path : List Bytes),
    -2 ^ 63 ≤ treeSize → treeSize ≤ 0 →
      rebuild hashes profile leafHash fuel index treeSize path = none := by
  intro fuel
  induction fuel with
  | zero => intros; rfl
  | succ fuel ih =>
    intro index treeSize path lower upper
    have point : largestPowerOfTwoLessThan fuel treeSize = some 0 := by
      rw [largestPowerOfTwoLessThan, if_pos (by omega)]
    have same : int64 (treeSize - 0) = treeSize := by
      rw [Int.sub_zero]
      exact int64_of_bounds lower (by omega)
    rw [rebuild, if_neg (by omega)]
    simp only [point, bind_eq_bind, bind_some, same]
    split
    · rw [ih index 0 path (by omega) (by omega)]
      rfl
    · rw [ih _ treeSize path lower upper]
      rfl

theorem rebuild_diverges_large {treeSize} (large : 2 ^ 62 < treeSize) (fuel : Nat) (index : Int)
    (path : List Bytes) : rebuild hashes profile leafHash fuel index treeSize path = none := by
  cases fuel with
  | zero => rfl
  | succ fuel =>
    rw [rebuild, if_neg (by omega), largestPowerOfTwoLessThan_diverges large]
    rfl

end

end Machine

section

variable {hashes : Hashes} {profile : Profile} {leafHash root : Bytes} {index treeSize : Nat}
  {auditPath : List Bytes}

def accepts (hashes : Hashes) (profile : Profile) (leafHash : Bytes) (index treeSize : Nat)
    (auditPath : List Bytes) (root : Bytes) : Bool :=
  if Malformed profile leafHash root index treeSize then false
  else
    match (rfcShape treeSize).rebuild (hashNode hashes profile) Digest.ofBytes?
        (bytesToHash leafHash) index auditPath with
    | some (got, rest) => rest.isEmpty && got.bytes = root
    | none => false

theorem verifyWithProfile_eq_accepts {fuel} (small : treeSize ≤ 2 ^ 62) (enough : Machine.enoughFuel ≤ fuel) :
    verifyWithProfile hashes fuel profile leafHash index treeSize auditPath root =
      some (accepts hashes profile leafHash index treeSize auditPath root) := by
  unfold verifyWithProfile accepts
  by_cases malformed : Malformed profile leafHash root index treeSize
  · rw [if_pos malformed, if_pos malformed]
  · rw [if_neg malformed, if_neg malformed]
    simp only [Malformed, not_or] at malformed
    unfold Machine.enoughFuel at enough
    have indexEq : int64 (index : Int) = index := int64_of_bounds (by omega) (by omega)
    have sizeEq : int64 (treeSize : Int) = treeSize := int64_of_bounds (by omega) (by omega)
    rw [indexEq, sizeEq, Machine.rebuild_eq 62 treeSize index fuel auditPath (by omega) small
      (le_rfl) (by omega) (by omega)]
    simp only [bind_eq_bind, bind_some]
    split <;> simp_all

theorem verifyWithProfile_eq_some {fuel result} (small : treeSize ≤ 2 ^ 62)
    (finished : verifyWithProfile hashes fuel profile leafHash index treeSize auditPath root =
      some result) : result = accepts hashes profile leafHash index treeSize auditPath root := by
  have extended : verifyWithProfile hashes (fuel + Machine.enoughFuel) profile leafHash index
      treeSize auditPath root = some result := by
    unfold verifyWithProfile at finished ⊢
    split at finished
    · rename_i malformed
      rw [if_pos malformed]
      exact finished
    · rename_i wellFormed
      rw [if_neg wellFormed]
      obtain ⟨rebuilt, found, decided⟩ := bind_eq_some_iff.mp finished
      exact bind_eq_some_iff.mpr ⟨rebuilt, Machine.rebuild_mono_add _ found, decided⟩
  rw [verifyWithProfile_eq_accepts small (by omega)] at extended
  exact (some.inj extended).symm

theorem verifyWithProfile_diverges {fuel} (wellFormed : ¬Malformed profile leafHash root index treeSize)
    (large : 2 ^ 62 < treeSize) (range : treeSize < 2 ^ 64) :
    verifyWithProfile hashes fuel profile leafHash index treeSize auditPath root = none := by
  have diverges : Machine.rebuild hashes profile leafHash fuel (int64 index) (int64 treeSize)
      auditPath = none := by
    by_cases positive : treeSize < 2 ^ 63
    · have exact : int64 (treeSize : Int) = treeSize := int64_of_bounds (by omega) (by omega)
      rw [exact]
      exact Machine.rebuild_diverges_large (by omega) fuel _ _
    · have negative : int64 (treeSize : Int) = treeSize - 2 ^ 64 := by
        rw [int64, Int.bmod_def]
        split <;> omega
      rw [negative]
      exact Machine.rebuild_diverges_nonpositive fuel _ _ _ (by omega) (by omega)
  rw [verifyWithProfile, if_neg wellFormed, diverges]
  rfl

/-- Verification finishes exactly when the input is rejected at once or the tree size is at
most `2 ^ 62`; the split of a single size finishes exactly up to `2 ^ 62`. -/
theorem verifyWithProfile_finishes_iff (hashes : Hashes) (profile : Profile)
    (leafHash root : Bytes) (index treeSize : UInt64) (auditPath : List Bytes) (size : BitVec 64) :
    ((∃ fuel result, verifyWithProfile hashes fuel profile leafHash index.toNat treeSize.toNat
        auditPath root = some result) ↔
      Malformed profile leafHash root index.toNat treeSize.toNat ∨ treeSize.toNat ≤ 2 ^ 62) ∧
    ((∃ fuel k, Machine.largestPowerOfTwoLessThan fuel size.toInt = some k) ↔
      size.toInt ≤ 2 ^ 62) := by
  constructor
  · constructor
    · rintro ⟨fuel, result, finished⟩
      by_contra stuck
      simp only [not_or, not_le] at stuck
      rw [verifyWithProfile_diverges stuck.1 stuck.2 treeSize.toNat_lt] at finished
      simp at finished
    · rintro (malformed | small)
      · exact ⟨0, false, by rw [verifyWithProfile, if_pos malformed]⟩
      · exact ⟨Machine.enoughFuel, _, verifyWithProfile_eq_accepts small (Nat.le_refl _)⟩
  · constructor
    · rintro ⟨fuel, k, found⟩
      by_contra large
      rw [Machine.largestPowerOfTwoLessThan_diverges (by omega)] at found
      simp at found
    · intro small
      by_cases large : size.toInt < 2
      · exact ⟨0, 0, by rw [Machine.largestPowerOfTwoLessThan, if_pos large]⟩
      · obtain ⟨n, same⟩ := Int.eq_ofNat_of_zero_le (by omega : 0 ≤ size.toInt)
        rw [same] at small large ⊢
        exact ⟨62, _, Machine.largestPowerOfTwoLessThan_eq_split (by omega) (by omega)
          (Nat.le_refl _)⟩

/-- One leaf above `2 ^ 62` the loop never stops. -/
theorem verifyWithProfile_never_finishes :
    ¬∃ fuel result, verifyWithProfile Hashes.sample fuel (.ofProvider .intlV1Provider)
      (Digest.fill 0).bytes 0 (2 ^ 62 + 1) [] (Digest.fill 0).bytes = some result := by
  rintro ⟨fuel, result, finished⟩
  have exact : int64 ((2 ^ 62 + 1 : Nat) : Int) = 2 ^ 62 + 1 := by decide
  have wellFormed : ¬Malformed (.ofProvider .intlV1Provider) (Digest.fill 0).bytes
      (Digest.fill 0).bytes 0 (2 ^ 62 + 1) := by simp [Malformed]
  rw [verifyWithProfile, if_neg wellFormed, exact,
    Machine.rebuild_diverges_large (by omega) fuel] at finished
  exact absurd finished (by simp)

end

end TrustDB.Merkle
