import TrustDB.Wal.RoundTrip

/-!
Package `wal`, one record as it is read: its header is the one that its fields give, and its hash is
that of its bytes.
-/

namespace TrustDB.Wal

open Result List CryptoSuite TrustCrypto Model Slice

def Record.preimage (sums : Sums) (record : Record) : Bytes :=
  checksummed sums (encodeHeader (suiteProvider record.cryptoSuite) record.position.segmentID
    record.position.sequence record.unixNano record.prevHash record.payload) record.payload

def recordDigest (hashes : Hashes) (preimage : Bytes) : Digest :=
  if field preimage 64 2 = 2 then hashes.sm3 preimage else hashes.sha256 preimage

/-- A record as it can be read: its fields fit the header, and its hash is that of its bytes. -/
structure Authentic (sums : Sums) (record : Record) : Prop where
  suite : (suiteProvider record.cryptoSuite).suite = record.cryptoSuite
  segment : record.position.segmentID < 2 ^ 64
  sequence : record.position.sequence < 2 ^ 64
  time : Int.bmod record.unixNano (2 ^ 64) = record.unixNano
  small : record.payload.length ≤ maxPayloadBytes
  hash : record.recordHash = recordDigest sums.hashes (record.preimage sums)

section Reading

variable {sums : Sums} {header data rest : Bytes} {offset n : Nat} {prev : Digest} {record : Record}

theorem slice_append_drop (start width : Nat) (data : Bytes) :
    slice start width data ++ data.drop (start + width) = data.drop start := by
  rw [slice, ← drop_drop, take_append_drop]

theorem slice_length {start width : Nat} (inside : start + width ≤ data.length) :
    (slice start width data).length = width := by
  rw [slice, length_take, length_drop]
  omega

theorem encode_field {start width : Nat} (inside : start + width ≤ data.length) :
    Words.encode width (field data start width) = slice start width data := by
  have whole := Words.encode_decode (slice start width data)
  rwa [slice_length inside] at whole

theorem field_lt {start width : Nat} (inside : start + width ≤ data.length) :
    field data start width < 256 ^ width := by
  have bound := Words.decode_lt (slice start width data)
  rwa [slice_length inside] at bound

theorem toNat_bmod {value : Nat} (bound : value < 256 ^ 8) : (Int.bmod value (2 ^ 64) % 2 ^ 64).toNat = value := by
  simp only [Int.bmod]
  split <;> omega

theorem bmod_toInt (value : Int) : Int.bmod (Int.bmod value (2 ^ 64)) (2 ^ 64) = Int.bmod value (2 ^ 64) := by
  rw [Int.bmod_bmod]

theorem encodeHeader_fields {provider payload} (length : header.length = headerSize)
    (magicField : field header 0 4 = magic) (versionField : field header 4 2 = version)
    (typeField : field header 6 2 = typeAccepted) (code : field header 64 2 = suiteCode provider)
    (size : field header 66 4 = payload.length) :
    encodeHeader provider (field header 8 8) (field header 16 8) (Int.bmod (field header 24 8) (2 ^ 64))
      (Digest.ofBytes (slice 32 32 header)) payload = header := by
  unfold headerSize at length
  have time : (Int.bmod (field header 24 8) (2 ^ 64) % 2 ^ 64).toNat = field header 24 8 :=
    toNat_bmod (field_lt (by omega))
  have prevBytes : (Digest.ofBytes (slice 32 32 header)).bytes = slice 32 32 header :=
    Digest.bytes_ofBytes (slice_length (by omega))
  rw [encodeHeader, ← magicField, ← versionField, ← typeField, ← code, ← size, time, prevBytes]
  rw [encode_field (by omega), encode_field (by omega), encode_field (by omega), encode_field (by omega),
    encode_field (by omega), encode_field (by omega), encode_field (by omega), encode_field (by omega)]
  have last : slice 66 4 header = header.drop 66 := by
    rw [slice, take_of_length_le]
    rw [length_drop]
    omega
  rw [last, slice_append_drop 64 2, slice_append_drop 32 32, slice_append_drop 24 8, slice_append_drop 16 8,
    slice_append_drop 8 8, slice_append_drop 6 2, slice_append_drop 4 2, slice_append_drop 0 4, drop_zero]

theorem suiteFromCode_eq_ok {code suiteID} (known : suiteFromCode code = .ok suiteID) :
    (suiteProvider suiteID).suite = suiteID ∧ code = suiteCode (suiteProvider suiteID) := by
  unfold suiteFromCode at known
  split at known
  · cases known
    exact ⟨rfl, by assumption⟩
  · split at known
    · cases known
      exact ⟨rfl, by assumption⟩
    · cases known

theorem readOneWithFrame_eq_ok (read : readOneWithFrame sums data offset prev = .ok (record, n, rest)) :
    Authentic sums record ∧ record.prevHash = prev ∧ record.position.offset = offset ∧
      n = recordBytes record.payload.length := by
  simp only [readOneWithFrame, readBody, bind_eq_ok, mapError_eq_ok, reject_eq_ok, not_not,
    return_eq_ok, Prod.mk.injEq, Nat.not_lt] at read
  obtain ⟨⟨header, behind⟩, headerRead, _, magicField, _, versionField, _, typeField, _, prevField, suiteID, suite, _,
    _, _, small, ⟨payload, tail⟩, payloadRead, ⟨trailer, _⟩, trailerRead, _, crcField, sum, hashed, _, stored,
    shown, size, _⟩ := read
  dsimp only at magicField versionField typeField prevField suite payloadRead crcField hashed stored shown size
  obtain ⟨headerLength, -⟩ := readFull_eq_ok headerRead
  obtain ⟨payloadLength, -⟩ := readFull_eq_ok payloadRead
  obtain ⟨trailerLength, -⟩ := readFull_eq_ok trailerRead
  obtain ⟨provider, code⟩ := suiteFromCode_eq_ok suite
  have inside : header.length = 70 := headerLength
  have header_eq := encodeHeader_fields headerLength magicField versionField typeField code payloadLength.symm
  have crc_eq : slice 0 4 trailer = Words.encode 4 (sums.crc (header ++ payload)).toNat := by
    rw [crcField]
    refine (encode_field ?_).symm
    rw [trailerLength]
    decide
  subst shown
  refine ⟨⟨provider, ?_, ?_, ?_, ?_, ?_⟩, prevField, rfl, size.symm⟩
  · exact field_lt (by omega)
  · exact field_lt (by omega)
  · simp only [bmod_toInt]
  · rw [payloadLength]
    exact small
  · have preimage : Record.preimage sums {
        cryptoSuite := suiteID
        position := { segmentID := field header 8 8, offset := offset, sequence := field header 16 8 }
        unixNano := Int.bmod (field header 24 8) (2 ^ 64)
        payload := payload
        prevHash := Digest.ofBytes (slice 32 32 header)
        recordHash := Digest.ofBytes (slice 4 32 trailer) } = header ++ payload ++ slice 0 4 trailer := by
      simp only [Record.preimage, header_eq, checksummed, crc_eq]
    rw [preimage, recordDigest]
    have codeField : field (header ++ payload ++ slice 0 4 trailer) 64 2 = suiteCode (suiteProvider suiteID) := by
      have within : (slice 64 2 header).length = 2 := slice_length (by omega)
      rw [← code, field, field, append_assoc, slice_append within]
    rw [← provider, walHash_provider, Except.ok.injEq] at hashed
    change Digest.ofBytes (slice 4 32 trailer) = _
    rw [← stored, codeField, ← hashed]
    cases suiteProvider suiteID <;> rfl

end Reading

end TrustDB.Wal
