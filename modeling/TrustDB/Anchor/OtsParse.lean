import TrustDB.Codec.Slice
import TrustDB.Codec.Varint
import TrustDB.Trusterr

/-!
The OpenTimestamps parser of package `anchor`, its two readers of variable-length numbers: `readVaruint`
takes them from the parser's reader, `parseAttestationVaruint` from the payload of an attestation. A Go
`uint64` is a number below `2 ^ 64`.
-/

namespace TrustDB.Anchor

open Result Slice List

def failed {α : Type} (message : String) : Outcome α := .error (.text message)

/-- `v |= uint64(b&0x7f) << shift`. -/
def addDigit (v shift : Nat) (byte : UInt8) : Nat := v ||| ((byte.toNat % 128) <<< shift) % 2 ^ 64

def readVaruintFrom (v shift : Nat) : Bytes → Outcome (Nat × Bytes)
  | [] => if shift < 64 then failed "EOF" else failed "ots: varuint overflow (>64 bits)"
  | byte :: rest =>
    if shift < 64 then
      if byte.toNat < 128 then .ok (addDigit v shift byte, rest)
      else readVaruintFrom (addDigit v shift byte) (shift + 7) rest
    else failed "ots: varuint overflow (>64 bits)"

def readVaruint (data : Bytes) : Outcome (Nat × Bytes) := readVaruintFrom 0 0 data

def parseAttestationVaruintFrom (v shift i : Nat) : Bytes → Outcome (Nat × Nat)
  | [] => failed "ots: payload varuint truncated"
  | byte :: rest =>
    if byte.toNat < 128 then .ok (addDigit v shift byte, i + 1)
    else if 64 ≤ shift + 7 then failed "ots: payload varuint overflow (>64 bits)"
    else parseAttestationVaruintFrom (addDigit v shift byte) (shift + 7) (i + 1) rest

def parseAttestationVaruint (payload : Bytes) : Outcome (Nat × Nat) := parseAttestationVaruintFrom 0 0 0 payload

section Varuint

theorem addDigit_eq {v shift byte} (below : v < 2 ^ shift) (inside : shift < 64) :
    addDigit v shift byte = (v + 2 ^ shift * (byte.toNat % 128)) % 2 ^ 64 := by
  have whole : 2 ^ 64 = 2 ^ shift * 2 ^ (64 - shift) := by
    rw [← Nat.pow_add]
    congr 1
    omega
  rw [addDigit, Nat.shiftLeft_eq, Nat.mul_comm, whole, Nat.mul_mod_mul_left, Nat.or_comm,
    ← Nat.two_pow_add_eq_or_of_lt below, Nat.mod_mul, Nat.add_mul_mod_self_left, Nat.mod_eq_of_lt below,
    Nat.add_mul_div_left _ _ (Nat.two_pow_pos shift), Nat.div_eq_of_lt below, Nat.zero_add, Nat.add_comm]

theorem addDigit_lt {v shift : Nat} {byte : UInt8} (below : v < 2 ^ shift) (inside : shift + 7 < 64) :
    addDigit v shift byte = v + 2 ^ shift * (byte.toNat % 128) ∧ addDigit v shift byte < 2 ^ (shift + 7) := by
  have digit : byte.toNat % 128 + 1 ≤ 128 := Nat.mod_lt _ (by decide)
  have next : v + 2 ^ shift * (byte.toNat % 128) < 2 ^ (shift + 7) := by
    calc v + 2 ^ shift * (byte.toNat % 128)
        < 2 ^ shift * (byte.toNat % 128 + 1) := by rw [Nat.mul_add, Nat.mul_one]; omega
      _ ≤ 2 ^ shift * 128 := Nat.mul_le_mul_left _ digit
      _ = 2 ^ (shift + 7) := by rw [Nat.pow_add]
  have fits : v + 2 ^ shift * (byte.toNat % 128) < 2 ^ 64 :=
    Nat.lt_of_lt_of_le next (Nat.pow_le_pow_right (by decide) (Nat.le_of_lt inside))
  rw [addDigit_eq below (by omega), Nat.mod_eq_of_lt fits]
  exact ⟨rfl, next⟩

theorem readVaruintFrom_eq_ok (data : Bytes) : ∀ {v shift : Nat} {result : Nat × Bytes}, v < 2 ^ shift → shift < 64 →
    shift % 7 = 0 → (readVaruintFrom v shift data = .ok result ↔ ∃ digits, data = digits ++ result.2 ∧
      Varint.Terminated digits ∧ shift + 7 * digits.length ≤ 70 ∧
        result.1 = (v + 2 ^ shift * Varint.value digits) % 2 ^ 64) := by
  induction data with
  | nil =>
    intro v shift result _ inside _
    rw [readVaruintFrom, if_pos inside]
    constructor
    · intro read
      cases read
    · rintro ⟨digits, empty, terminated, _⟩
      exact absurd (append_eq_nil_iff.mp empty.symm).1 (Varint.terminated_ne_nil terminated)
  | cons byte rest ih =>
    intro v shift result below inside aligned
    rw [readVaruintFrom, if_pos inside]
    by_cases last : byte.toNat < 128
    · rw [if_pos last, Except.ok.injEq, addDigit_eq below inside]
      constructor
      · rintro rfl
        refine ⟨[byte], rfl, (Varint.terminated_last last).mpr rfl, by simp only [length_singleton]; omega, ?_⟩
        simp [Varint.value]
      · rintro ⟨digits, split, terminated, _, same⟩
        cases digits with
        | nil => exact terminated.elim
        | cons first others =>
          obtain ⟨rfl, rest_⟩ := cons.inj split
          obtain rfl := (Varint.terminated_last last).mp terminated
          refine Prod.ext ?_ rest_
          rw [same]
          simp [Varint.value]
    · rw [if_neg last]
      by_cases room : shift + 7 < 64
      · obtain ⟨sum, smaller⟩ := @addDigit_lt v shift byte below room
        rw [ih smaller room (by omega)]
        have shifted (digits : Bytes) : addDigit v shift byte + 2 ^ (shift + 7) * Varint.value digits =
            v + 2 ^ shift * Varint.value (byte :: digits) := by
          rw [sum, Varint.value, Nat.pow_add, Nat.mul_add, Nat.mul_assoc, Nat.add_assoc]
        constructor
        · rintro ⟨digits, split, terminated, short, same⟩
          refine ⟨byte :: digits, by rw [split, cons_append],
            (Varint.terminated_cons (by omega)).mpr terminated, by rw [length_cons]; omega, ?_⟩
          rw [same, shifted]
        · rintro ⟨digits, split, terminated, short, same⟩
          cases digits with
          | nil => exact terminated.elim
          | cons first others =>
            obtain ⟨rfl, rest_⟩ := cons.inj split
            refine ⟨others, rest_, (Varint.terminated_cons (by omega)).mp terminated,
              by rw [length_cons] at short; omega, ?_⟩
            rw [same, shifted]
      · have full : readVaruintFrom (addDigit v shift byte) (shift + 7) rest =
            failed "ots: varuint overflow (>64 bits)" := by
          cases rest with
          | nil => rw [readVaruintFrom, if_neg room]
          | cons next rest => rw [readVaruintFrom, if_neg room]
        rw [full]
        constructor
        · intro read
          cases read
        · rintro ⟨digits, split, terminated, short, _⟩
          cases digits with
          | nil => exact terminated.elim
          | cons first others =>
            obtain ⟨rfl, _⟩ := cons.inj split
            rw [length_cons] at short
            have none_ : others = [] := length_eq_zero_iff.mp (by omega)
            subst none_
            simp only [Varint.Terminated] at terminated
            omega

theorem readVaruint_eq_ok {data result} : readVaruint data = .ok result ↔
    ∃ digits, data = digits ++ result.2 ∧ Varint.Terminated digits ∧ digits.length ≤ 10 ∧
      result.1 = Varint.value digits % 2 ^ 64 := by
  rw [readVaruint, readVaruintFrom_eq_ok data (by decide) (by decide) (by decide)]
  refine exists_congr fun digits => and_congr_right fun _ => and_congr_right fun _ => ?_
  rw [Nat.pow_zero, Nat.one_mul, Nat.zero_add, Nat.zero_add]
  omega

theorem readVaruintFrom_shorter (data : Bytes) : ∀ {v shift : Nat} {result : Nat × Bytes},
    readVaruintFrom v shift data = .ok result → result.2.length < data.length := by
  induction data with
  | nil =>
    intro v shift result read
    rw [readVaruintFrom] at read
    split at read <;> cases read
  | cons byte rest ih =>
    intro v shift result read
    rw [readVaruintFrom] at read
    split at read
    · split at read
      · cases read
        exact Nat.lt_succ_self _
      · exact Nat.lt_succ_of_lt (ih read)
    · cases read

theorem parseAttestationVaruintFrom_eq (data : Bytes) : ∀ v shift i, shift < 64 →
    (parseAttestationVaruintFrom v shift i data).toOption =
      (readVaruintFrom v shift data).toOption.map fun read => (read.1, i + (data.length - read.2.length)) := by
  induction data with
  | nil =>
    intro v shift i inside
    rw [parseAttestationVaruintFrom, readVaruintFrom, if_pos inside]
    rfl
  | cons byte rest ih =>
    intro v shift i inside
    rw [parseAttestationVaruintFrom, readVaruintFrom, if_pos inside]
    by_cases last : byte.toNat < 128
    · simp [last, Except.toOption]
    · rw [if_neg last, if_neg last]
      by_cases room : 64 ≤ shift + 7
      · rw [if_pos room]
        cases rest with
        | nil => rw [readVaruintFrom, if_neg (by omega)]; rfl
        | cons next rest => rw [readVaruintFrom, if_neg (by omega)]; rfl
      · rw [if_neg room, ih _ _ _ (by omega)]
        cases read : readVaruintFrom (addDigit v shift byte) (shift + 7) rest with
        | error fault => rfl
        | ok result =>
          have shorter := readVaruintFrom_shorter rest read
          simp only [Except.toOption, Option.map_some, length_cons, Option.some.injEq, Prod.mk.injEq, true_and]
          omega

/-- Both readers agree; their number is exact unless the tenth byte has more than its lowest bit. -/
theorem varuint_exact_iff (data : Bytes) :
    ((parseAttestationVaruint data).toOption =
      (readVaruint data).toOption.map fun read => (read.1, data.length - read.2.length)) ∧
    ∀ v rest, readVaruint data = .ok (v, rest) → ∃ digits, data = digits ++ rest ∧ Varint.Terminated digits ∧
      (v = Varint.value digits ↔ ∀ byte, digits[9]? = some byte → byte.toNat ≤ 1) := by
  constructor
  · rw [parseAttestationVaruint, parseAttestationVaruintFrom_eq data 0 0 0 (by decide), readVaruint]
    simp only [Nat.zero_add]
  · intro v rest read
    obtain ⟨digits, split, terminated, short, rfl⟩ := readVaruint_eq_ok.mp read
    refine ⟨digits, split, terminated, ?_⟩
    rw [← Varint.value_lt_two_pow_iff terminated short]
    exact ⟨fun same => same ▸ Nat.mod_lt _ (by decide), Nat.mod_eq_of_lt⟩

/-- A tenth byte of two: `2 ^ 64` is read as zero. -/
theorem tenth_byte_is_lost :
    let digits : Bytes := List.replicate 9 0x80 ++ [0x02]
    (readVaruint digits).toOption = some (0, []) ∧ (parseAttestationVaruint digits).toOption = some (0, 10) ∧
      Varint.value digits = 2 ^ 64 := by
  decide +kernel

end Varuint

end TrustDB.Anchor
