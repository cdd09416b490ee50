import TrustDB.FiscoBcos.Validators

/-!
Package `anchor/fiscobcos`, the arguments of calls of the consensus precompile. The decoders accept
the standard encodings and nothing else, and they read inside their input only.
-/

namespace TrustDB.FiscoBcos

open Result List Slice

def abiWord (value : Nat) : Bytes := Words.encode 32 value

/-- The dynamic part of a string: its length, its bytes and zeros up to the next word. -/
def abiTail (value : Bytes) : Bytes :=
  abiWord value.length ++ value ++ replicate ((value.length + 31) / 32 * 32 - value.length) 0

def encodeABIString (value : Bytes) : Bytes := abiWord 32 ++ abiTail value

def encodeABIStringUint256 (value : Bytes) (number : Nat) : Bytes := abiWord 64 ++ abiWord number ++ abiTail value

section Reads

/-- `data[start:stop]`, which panics outside of the input. -/
def readRange (data : Bytes) (start stop : Nat) : Option Bytes :=
  if start ≤ stop ∧ stop ≤ data.length then some (slice start (stop - start) data) else none

def readUint64 (data : Bytes) (start : Nat) : Option Nat := (readRange data start (start + 8)).map Words.decode

/-- `bytes.Equal(data[start:stop], make([]byte, stop-start))`. -/
def readZeros (data : Bytes) (start stop : Nat) : Option Bool :=
  (readRange data start stop).map (· = replicate (stop - start) 0)

/-- The decoder with the reads that the source makes, up to the first check that fails. -/
def readABITailString (data : Bytes) (offset : Nat) : Option (Outcome Bytes) := do
  let badOffset := some (.error (.text "non-canonical ABI string offset or length"))
  if data.length < offset + 32 then badOffset
  else if ¬(← readZeros data offset (offset + 24)) then badOffset
  else
    let length ← readUint64 data (offset + 24)
    let padded := (length + 31) / 32 * 32
    let badPadding := some (.error (.text "ABI string has trailing or non-zero padding"))
    if maxConfigString < length ∨ data.length - (offset + 32) < length then
      some (.error (.text "ABI string is oversized or truncated"))
    else if offset + 32 + padded ≠ data.length then badPadding
    else if (← readRange data (offset + 32 + length) data.length) ≠ replicate (padded - length) 0 then badPadding
    else return .ok (← readRange data (offset + 32) (offset + 32 + length))

def readABIString (data : Bytes) : Option (Outcome Bytes) := do
  let bad := some (.error (.text "non-canonical ABI string arguments"))
  if data.length < 64 then bad
  else if (← readUint64 data 24) ≠ 32 then bad
  else if ¬(← readZeros data 0 24) then bad
  else readABITailString data 32

def readABIStringUint256 (data : Bytes) : Option (Outcome (Bytes × UInt64)) := do
  let bad := some (.error (.text "non-canonical ABI string,uint256 arguments"))
  if data.length < 96 then bad
  else if ¬(← readZeros data 0 24) then bad
  else if (← readUint64 data 24) ≠ 64 then bad
  else if ¬(← readZeros data 32 56) then bad
  else
    match ← readABITailString data 64 with
    | .error err => return .error err
    | .ok value => return .ok (value, UInt64.ofNat (← readUint64 data 56))

variable {data : Bytes}

theorem readRange_inside {start stop : Nat} (ordered : start ≤ stop) (inside : stop ≤ data.length) :
    readRange data start stop = some (slice start (stop - start) data) := if_pos ⟨ordered, inside⟩

theorem readUint64_inside {start : Nat} (inside : start + 8 ≤ data.length) :
    readUint64 data start = some (Words.decode (slice start 8 data)) := by
  rw [readUint64, readRange_inside (by omega) inside, Nat.add_sub_cancel_left, Option.map_some]

theorem readZeros_inside {start stop : Nat} (ordered : start ≤ stop) (inside : stop ≤ data.length) :
    readZeros data start stop = some (zeros data start stop) := by
  rw [readZeros, readRange_inside ordered inside, Option.map_some, zeros]

theorem readABITailString_eq (data : Bytes) (offset : Nat) :
    readABITailString data offset = some (decodeABITailString data offset) := by
  unfold readABITailString decodeABITailString
  by_cases short : data.length < offset + 32
  · simp [short, reject]
  · rw [readZeros_inside (by omega) (by omega), readUint64_inside (by omega)]
    by_cases zero : zeros data offset (offset + 24) = true
    · generalize Words.decode (slice (offset + 24) 8 data) = length
      by_cases large : maxConfigString < length ∨ data.length - (offset + 32) < length
      · simp [short, zero, large, reject]
      · have rest : readRange data (offset + 32 + length) data.length = some (data.drop (offset + 32 + length)) := by
          rw [readRange_inside (by omega) (le_rfl), slice, take_of_length_le (by rw [length_drop])]
        have body : readRange data (offset + 32) (offset + 32 + length) = some (slice (offset + 32) length data) := by
          rw [readRange_inside (by omega) (by omega), Nat.add_sub_cancel_left]
        by_cases whole : offset + 32 + (length + 31) / 32 * 32 = data.length
        · by_cases padding : data.drop (offset + 32 + length) = replicate ((length + 31) / 32 * 32 - length) 0
          · simp [short, zero, large, rest, body, whole, padding, reject]
          · simp [short, zero, large, rest, whole, padding, reject]
        · simp [short, zero, large, whole, reject]
    · simp [short, zero, reject]

theorem readABIString_eq (data : Bytes) : readABIString data = some (decodeABIString data) := by
  unfold readABIString decodeABIString
  by_cases short : data.length < 64
  · simp [short, reject]
  · rw [readUint64_inside (by omega), readZeros_inside (by omega) (by omega)]
    by_cases offset : Words.decode (slice 24 8 data) = 32 <;> by_cases zero : zeros data 0 24 = true <;>
      simp [short, offset, zero, reject, readABITailString_eq]

theorem readABIStringUint256_eq (data : Bytes) :
    readABIStringUint256 data = some (decodeABIStringUint256 data) := by
  unfold readABIStringUint256 decodeABIStringUint256
  by_cases short : data.length < 96
  · simp [short, reject]
  · rw [readUint64_inside (by omega), readUint64_inside (by omega), readZeros_inside (by omega) (by omega),
      readZeros_inside (by omega) (by omega)]
    by_cases first : zeros data 0 24 = true <;> by_cases offset : Words.decode (slice 24 8 data) = 64 <;>
      by_cases second : zeros data 32 56 = true <;>
      simp [short, first, offset, second, reject, readABITailString_eq]
    cases decodeABITailString data 64 <;> rfl

end Reads

section Words

variable {data value : Bytes} {offset : Nat}

theorem abiWord_eq {number : Nat} (small : number < 2 ^ 64) :
    abiWord number = replicate 24 0 ++ Words.encode 8 number := by
  have whole := Words.encode_decode (replicate 24 0 ++ Words.encode 8 number)
  have zero : Words.decode (replicate 24 0) = 0 := by decide
  have number_eq : Words.decode (replicate 24 0 ++ Words.encode 8 number) = number := by
    have step := Words.decode_encode 8 number small
    rw [Words.decode] at zero step ⊢
    rw [foldl_append, zero, step]
  rw [number_eq] at whole
  exact whole

theorem slice_append_slice (start width more : Nat) :
    slice start width data ++ slice (start + width) more data = slice start (width + more) data := by
  rw [slice, slice, slice, take_add, drop_drop]

theorem word_iff (inside : offset + 32 ≤ data.length) {number : Nat} :
    (zeros data offset (offset + 24) = true ∧ Words.decode (slice (offset + 24) 8 data) = number) ↔
      number < 2 ^ 64 ∧ slice offset 32 data = abiWord number := by
  have low : (slice (offset + 24) 8 data).length = 8 := by
    rw [slice, length_take, length_drop]
    omega
  have high : (slice offset 24 data).length = 24 := by
    rw [slice, length_take, length_drop]
    omega
  rw [← slice_append_slice offset 24 8, zeros, Nat.add_sub_cancel_left, decide_eq_true_eq]
  constructor
  · rintro ⟨zero, rfl⟩
    have bound := Words.decode_lt (slice (offset + 24) 8 data)
    have bytes := Words.encode_decode (slice (offset + 24) 8 data)
    rw [low] at bound bytes
    exact ⟨bound, by rw [abiWord_eq bound, zero, bytes]⟩
  · rintro ⟨small, same⟩
    rw [abiWord_eq small] at same
    obtain ⟨zero, rest⟩ := append_inj same (by rw [high, length_replicate])
    exact ⟨zero, by rw [rest, Words.decode_encode 8 number small]⟩

@[simp] theorem abiWord_length (number : Nat) : (abiWord number).length = 32 := Words.encode_length 32 number

theorem decodeABITailString_eq_ok : decodeABITailString data offset = .ok value ↔
    value.length ≤ maxConfigString ∧ data.drop offset = abiTail value := by
  have small : maxConfigString < 2 ^ 64 := by decide
  simp only [decodeABITailString, bind_eq_ok, reject_eq_ok, not_or, Nat.not_lt, not_not, return_eq_ok]
  constructor
  · rintro ⟨_, ⟨inside, zero⟩, _, ⟨limit, fits⟩, _, ⟨whole, padding⟩, rfl⟩
    obtain ⟨_, word⟩ := (word_iff inside).mp ⟨zero, rfl⟩
    generalize Words.decode (slice (offset + 24) 8 data) = length at *
    have exact_ : (slice (offset + 32) length data).length = length := by
      rw [slice, length_take, length_drop]
      omega
    refine ⟨by rw [exact_]; exact limit, ?_⟩
    rw [abiTail, exact_, ← padding, ← word, slice_append_slice, slice, Nat.add_assoc, ← drop_drop,
      take_append_drop]
  · rintro ⟨limit, same⟩
    have length := congrArg length same
    simp only [abiTail, length_append, abiWord_length, length_replicate, length_drop] at length
    have at_ : ∀ start width, slice (offset + start) width data = slice start width (abiTail value) := by
      intro start width
      rw [slice, slice, ← drop_drop, same]
    have word : slice offset 32 data = abiWord value.length := by
      rw [← Nat.add_zero offset, at_, abiTail, append_assoc, slice_of_append (abiWord_length _)]
    obtain ⟨zero, decoded⟩ := (word_iff (by omega)).mpr ⟨by omega, word⟩
    have body : slice (offset + 32) value.length data = value := by
      rw [at_, abiTail, append_assoc, slice_skip (by simp), abiWord_length, Nat.sub_self, slice_of_append rfl]
    have padding : data.drop (offset + 32 + value.length) =
        replicate ((value.length + 31) / 32 * 32 - value.length) 0 := by
      rw [Nat.add_assoc, ← drop_drop, same, abiTail, drop_left' (by simp)]
    rw [decoded, body, padding]
    exact ⟨(), ⟨by omega, zero⟩, (), ⟨limit, by omega⟩, (), ⟨by omega, rfl⟩, rfl⟩

theorem decodeABIString_eq_ok : decodeABIString data = .ok value ↔
    value.length ≤ maxConfigString ∧ data = encodeABIString value := by
  simp only [decodeABIString, bind_eq_ok, reject_eq_ok, not_or, Nat.not_lt, not_not, decodeABITailString_eq_ok]
  constructor
  · rintro ⟨_, ⟨inside, offset, zero⟩, limit, tail⟩
    obtain ⟨_, word⟩ := (@word_iff data 0 (by omega) _).mp ⟨zero, offset⟩
    refine ⟨limit, ?_⟩
    rw [encodeABIString, ← word, ← tail, slice, drop_zero, take_append_drop]
  · rintro ⟨limit, rfl⟩
    have inside : 64 ≤ (encodeABIString value).length := by
      simp only [encodeABIString, abiTail, length_append, abiWord_length]
      omega
    have first : slice 0 32 (encodeABIString value) = abiWord 32 := slice_of_append (abiWord_length 32)
    have tail : (encodeABIString value).drop 32 = abiTail value := drop_left' (abiWord_length 32)
    obtain ⟨zero, offset⟩ := (@word_iff (encodeABIString value) 0 (by omega) 32).mpr ⟨by decide, first⟩
    exact ⟨(), ⟨inside, offset, zero⟩, limit, tail⟩

theorem decodeABIStringUint256_eq_ok {number : UInt64} : decodeABIStringUint256 data = .ok (value, number) ↔
    value.length ≤ maxConfigString ∧ data = encodeABIStringUint256 value number.toNat := by
  simp only [decodeABIStringUint256, bind_eq_ok, reject_eq_ok, not_or, Nat.not_lt, not_not, return_eq_ok,
    Prod.mk.injEq, decodeABITailString_eq_ok]
  constructor
  · rintro ⟨_, ⟨inside, zero, offset, second⟩, _, ⟨limit, tail⟩, rfl, rfl⟩
    obtain ⟨_, word⟩ := (@word_iff data 0 (by omega) _).mp ⟨zero, offset⟩
    obtain ⟨small, numbered⟩ := (@word_iff data 32 (by omega) _).mp ⟨second, rfl⟩
    refine ⟨limit, ?_⟩
    rw [encodeABIStringUint256, UInt64.toNat_ofNat_of_lt' small, ← word, ← numbered, ← tail, slice_append_slice, slice,
      drop_zero, take_append_drop]
  · rintro ⟨limit, rfl⟩
    have inside : 96 ≤ (encodeABIStringUint256 value number.toNat).length := by
      simp only [encodeABIStringUint256, abiTail, length_append, abiWord_length]
      omega
    have heads : (abiWord 64 ++ abiWord number.toNat).length = 64 := by simp
    have first : slice 0 32 (encodeABIStringUint256 value number.toNat) = abiWord 64 := by
      rw [encodeABIStringUint256, append_assoc, slice_of_append (abiWord_length 64)]
    have second : slice 32 32 (encodeABIStringUint256 value number.toNat) = abiWord number.toNat := by
      rw [encodeABIStringUint256, append_assoc, slice_skip (by simp), abiWord_length,
        slice_of_append (abiWord_length _)]
    obtain ⟨zero, offset⟩ := (@word_iff _ 0 (by omega) 64).mpr ⟨by decide, first⟩
    obtain ⟨zeroToo, decoded⟩ := (@word_iff _ 32 (by omega) _).mpr ⟨number.toNat_lt, second⟩
    refine ⟨(), ⟨inside, zero, offset, zeroToo⟩, value, ⟨limit, drop_left' heads⟩, rfl, ?_⟩
    rw [decoded, UInt64.ofNat_toNat]

end Words

/-- The decoders return arguments exactly for their standard encodings, one for each arguments, and
no read of theirs is outside of the input. -/
theorem abi_decoding_exact (data : Bytes) :
    (∀ value, decodeABIString data = .ok value ↔
      value.length ≤ maxConfigString ∧ data = encodeABIString value) ∧
    (∀ value number, decodeABIStringUint256 data = .ok (value, number) ↔
      value.length ≤ maxConfigString ∧ data = encodeABIStringUint256 value number.toNat) ∧
    readABIString data = some (decodeABIString data) ∧
    readABIStringUint256 data = some (decodeABIStringUint256 data) ∧
    (∀ other value, decodeABIString data = .ok value → decodeABIString other = .ok value → data = other) ∧
    ∀ other arguments, decodeABIStringUint256 data = .ok arguments →
      decodeABIStringUint256 other = .ok arguments → data = other := by
  refine ⟨fun _ => decodeABIString_eq_ok, fun _ _ => decodeABIStringUint256_eq_ok, readABIString_eq data,
    readABIStringUint256_eq data, fun other value decoded again => ?_, ?_⟩
  · rw [(decodeABIString_eq_ok.mp decoded).2, (decodeABIString_eq_ok.mp again).2]
  · rintro other ⟨value, number⟩ decoded again
    rw [(decodeABIStringUint256_eq_ok.mp decoded).2, (decodeABIStringUint256_eq_ok.mp again).2]

end TrustDB.FiscoBcos
