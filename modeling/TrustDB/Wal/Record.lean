import TrustDB.Codec.Slice
import TrustDB.Codec.Words
import TrustDB.TrustCrypto

/-!
Package `wal`, one record: a header of 70 bytes, the payload, a checksum and the hash that
the next record is chained to. The checksum and the hashes are arbitrary functions.
-/

namespace TrustDB.Wal

open Result List CryptoSuite TrustCrypto Model Slice

def magic : Nat := 0x54445731

def version : Nat := 2

def typeAccepted : Nat := 1

def headerSize : Nat := 70

def crcSize : Nat := 4

def recordHashSize : Nat := 32

def maxPayloadBytes : Nat := 64 * 2 ^ 20

structure Record where
  cryptoSuite : ID
  position : WALPosition
  unixNano : Int
  payload : Bytes
  prevHash : Digest
  recordHash : Digest
  deriving DecidableEq

/-- `crc32.Checksum` and the hash functions. -/
structure Sums where
  crc : Bytes → UInt32
  hashes : Hashes

/-- Why a record could not be read. The end of the stream between two records is no error. -/
inductive ReadErr
  | eof
  | torn (message : String)
  | corrupt (message : String)
  | badMagic (message : String)
  | unsupported (message : String)
  deriving Repr, DecidableEq

def ReadErr.err : ReadErr → Err
  | eof => .text "EOF"
  | torn message => .text ("wal: torn record: " ++ message)
  | corrupt message => .text ("wal: corrupt record: " ++ message)
  | badMagic message => .text ("wal: bad record magic" ++ message)
  | unsupported message => .text ("wal: unsupported record encoding: " ++ message)

def suiteCode : Provider → Nat
  | .intlV1Provider => 1
  | .cnSMV1Provider => 2

def suiteFromCode (code : Nat) : Outcome ID :=
  if code = 1 then .ok intlV1
  else if code = 2 then .ok cnSmV1
  else .error (.text s!"unknown suite code {code}")

def walHash (hashes : Hashes) (suiteID : ID) (data : Bytes) : Outcome Digest := do
  let suite ← requireAvailable suiteID
  let factory ← hashFactoryForSuite suiteID suite.storageIntegrityHash.algorithm
  reject (factory.size ≠ recordHashSize)
    (.text s!"storage hash size {factory.size}, want {recordHashSize}")
  return factory.sum hashes data

def storageSum (hashes : Hashes) : Provider → Bytes → Digest
  | .intlV1Provider => hashes.sha256
  | .cnSMV1Provider => hashes.sm3

theorem walHash_provider (hashes : Hashes) (provider : Provider) (data : Bytes) :
    walHash hashes provider.suite data = .ok (storageSum hashes provider data) := by
  cases provider <;> rfl

def encodeHeader (provider : Provider) (segmentID sequence : Nat) (unixNano : Int) (prevHash : Digest)
    (payload : Bytes) : Bytes :=
  Words.encode 4 magic ++ (Words.encode 2 version ++ (Words.encode 2 typeAccepted ++
    (Words.encode 8 segmentID ++ (Words.encode 8 sequence ++
      (Words.encode 8 (unixNano % 2 ^ 64).toNat ++ (prevHash.bytes ++
        (Words.encode 2 (suiteCode provider) ++ Words.encode 4 payload.length)))))))

def checksummed (sums : Sums) (header payload : Bytes) : Bytes :=
  header ++ payload ++ Words.encode 4 (sums.crc (header ++ payload)).toNat

def encodeRecordIntoForSuite (sums : Sums) (provider : Provider) (segmentID sequence : Nat)
    (unixNano : Int) (prevHash : Digest) (payload : Bytes) : Bytes × Digest :=
  let header := encodeHeader provider segmentID sequence unixNano prevHash payload
  let sum := storageSum sums.hashes provider (checksummed sums header payload)
  (checksummed sums header payload ++ sum.bytes, sum)

def field (header : Bytes) (start width : Nat) : Nat := Words.decode (slice start width header)

/-- `readOneWithFrame` behind the checks of the header. -/
def readBody (sums : Sums) (header : Bytes) (offset : Nat) (prev : Digest) (suiteID : ID)
    (payloadLen : Nat) (data : Bytes) : Except ReadErr (Record × Nat × Bytes) := do
  let (payload, data) ← (readFull payloadLen data).mapError fun
    | .eof => .torn s!"truncated payload at offset {offset}: EOF"
    | .unexpectedEOF => .torn s!"truncated payload at offset {offset}: unexpected EOF"
  let (trailer, data) ← (readFull (crcSize + recordHashSize) data).mapError fun
    | .eof => .torn s!"truncated trailer at offset {offset}: EOF"
    | .unexpectedEOF => .torn s!"truncated trailer at offset {offset}: unexpected EOF"
  reject ((sums.crc (header ++ payload)).toNat ≠ field trailer 0 4)
    (.corrupt s!"crc mismatch at offset {offset}")
  let gotHash ← (walHash sums.hashes suiteID (header ++ payload ++ slice 0 4 trailer)).mapError
    fun cause => .unsupported (s!"storage hash at offset {offset}: " ++ cause.message)
  let storedHash := Digest.ofBytes (slice 4 32 trailer)
  reject (gotHash ≠ storedHash) (.corrupt s!"record hash mismatch at offset {offset}")
  let record : Record := {
    cryptoSuite := suiteID
    position := {
      segmentID := field header 8 8
      offset := offset
      sequence := field header 16 8 }
    unixNano := Int.bmod (field header 24 8) (2 ^ 64)
    payload := payload
    prevHash := prev
    recordHash := storedHash }
  return (record, headerSize + payload.length + crcSize + recordHashSize, data)

/-- Reads the record at the front of the stream, with the bytes that it takes and the stream
behind it. -/
def readOneWithFrame (sums : Sums) (data : Bytes) (offset : Nat) (expectedPrev : Digest) :
    Except ReadErr (Record × Nat × Bytes) := do
  let (header, data) ← (readFull headerSize data).mapError fun
    | .eof => .eof
    | .unexpectedEOF => .torn s!"truncated header at offset {offset}"
  reject (field header 0 4 ≠ magic) (.badMagic s!" at offset {offset}")
  reject (field header 4 2 ≠ version) (.unsupported s!"version at offset {offset}")
  reject (field header 6 2 ≠ typeAccepted) (.unsupported s!"record type at offset {offset}")
  let prev := Digest.ofBytes (slice 32 32 header)
  reject (prev ≠ expectedPrev) (.corrupt s!"hash chain mismatch at offset {offset}")
  let suiteID ← (suiteFromCode (field header 64 2)).mapError fun cause =>
    .unsupported (s!"crypto_suite at offset {offset}: " ++ cause.message)
  let payloadLen := field header 66 4
  reject (payloadLen = 0) (.corrupt s!"empty payload at offset {offset}")
  reject (maxPayloadBytes < payloadLen)
    (.corrupt s!"payload too large at offset {offset}: {payloadLen} > {maxPayloadBytes}")
  readBody sums header offset prev suiteID payloadLen data

def recordBytes (payloadLen : Nat) : Nat := headerSize + payloadLen + crcSize + recordHashSize

def written (sums : Sums) (provider : Provider) (position : WALPosition) (unixNano : Int)
    (prevHash : Digest) (payload : Bytes) : Record where
  cryptoSuite := provider.suite
  position := position
  unixNano := Int.bmod unixNano (2 ^ 64)
  payload := payload
  prevHash := prevHash
  recordHash := (encodeRecordIntoForSuite sums provider position.segmentID position.sequence unixNano
    prevHash payload).2

section

variable {sums : Sums} {provider : Provider} {segmentID sequence : Nat} {unixNano : Int}
  {prevHash : Digest} {payload : Bytes}

@[simp] theorem encodeHeader_length :
    (encodeHeader provider segmentID sequence unixNano prevHash payload).length = headerSize := by
  simp [encodeHeader, headerSize]

@[simp] theorem encodeRecord_length :
    (encodeRecordIntoForSuite sums provider segmentID sequence unixNano prevHash payload).1.length =
      recordBytes payload.length := by
  simp only [encodeRecordIntoForSuite, checksummed, length_append, encodeHeader_length,
    Words.encode_length, Digest.bytes_length, recordBytes, crcSize, recordHashSize]

theorem suiteFromCode_suiteCode : suiteFromCode (suiteCode provider) = .ok provider.suite := by
  cases provider <;> rfl

theorem bmod_emod (value : Int) : Int.bmod ((value % 2 ^ 64).toNat : Int) (2 ^ 64) = Int.bmod value (2 ^ 64) := by
  rw [Int.toNat_of_nonneg (Int.emod_nonneg _ (by decide))]
  exact Int.emod_bmod value (2 ^ 64)

theorem header_fields (segmentBound : segmentID < 2 ^ 64) (sequenceBound : sequence < 2 ^ 64)
    (small : payload.length ≤ maxPayloadBytes) :
    let header := encodeHeader provider segmentID sequence unixNano prevHash payload
    (field header 0 4 = magic ∧ field header 4 2 = version ∧ field header 6 2 = typeAccepted) ∧
      field header 8 8 = segmentID ∧ field header 16 8 = sequence ∧
      field header 24 8 = (unixNano % 2 ^ 64).toNat ∧ slice 32 32 header = prevHash.bytes ∧
      field header 64 2 = suiteCode provider ∧ field header 66 4 = payload.length := by
  have codeBound : suiteCode provider < 256 ^ 2 := by cases provider <;> decide
  have timeBound : (unixNano % 2 ^ 64).toNat < 256 ^ 8 := by
    have upper := Int.emod_lt_of_pos unixNano (by decide : (0 : Int) < 2 ^ 64)
    omega
  unfold maxPayloadBytes at small
  refine ⟨⟨?_, ?_, ?_⟩, ?_, ?_, ?_, ?_, ?_, ?_⟩ <;>
    simp (disch := simp) only [field, encodeHeader, slice_skip, slice_of_append, slice_all,
      Words.encode_length, Digest.bytes_length, Nat.reduceSub]
  · exact Words.decode_encode 4 magic (by decide)
  · exact Words.decode_encode 2 version (by decide)
  · exact Words.decode_encode 2 typeAccepted (by decide)
  · exact Words.decode_encode 8 segmentID (by omega)
  · exact Words.decode_encode 8 sequence (by omega)
  · exact Words.decode_encode 8 _ timeBound
  · exact Words.decode_encode 2 _ codeBound
  · exact Words.decode_encode 4 _ (by omega)

def trailer (crc : UInt32) (sum : Digest) : Bytes := Words.encode 4 crc.toNat ++ sum.bytes

theorem trailer_fields (crc : UInt32) (sum : Digest) :
    (trailer crc sum).length = crcSize + recordHashSize ∧ field (trailer crc sum) 0 4 = crc.toNat ∧
      slice 0 4 (trailer crc sum) = Words.encode 4 crc.toNat ∧
      Digest.ofBytes (slice 4 32 (trailer crc sum)) = sum := by
  have first : slice 0 4 (trailer crc sum) = Words.encode 4 crc.toNat := slice_of_append (by simp)
  have second : slice 4 32 (trailer crc sum) = slice 0 32 sum.bytes := by
    rw [trailer, slice_skip (by simp), Words.encode_length]
  refine ⟨by simp [trailer, crcSize, recordHashSize], ?_, first, ?_⟩
  · rw [field, first, Words.decode_encode 4 _ crc.toNat_lt]
  · rw [second, slice_all (by simp), Digest.ofBytes_bytes]

theorem readOneWithFrame_header {offset} (segmentBound : segmentID < 2 ^ 64) (sequenceBound : sequence < 2 ^ 64)
    (nonempty : 0 < payload.length) (small : payload.length ≤ maxPayloadBytes) (rest : Bytes) :
    readOneWithFrame sums (encodeHeader provider segmentID sequence unixNano prevHash payload ++ rest)
        offset prevHash =
      readBody sums (encodeHeader provider segmentID sequence unixNano prevHash payload) offset prevHash
        provider.suite payload.length rest := by
  obtain ⟨⟨magicField, versionField, typeField⟩, -, -, -, prevField, codeField, lengthField⟩ :=
    @header_fields provider segmentID sequence unixNano prevHash payload segmentBound sequenceBound small
  have tooShort : ¬payload.length = 0 := by omega
  have tooLong : ¬maxPayloadBytes < payload.length := by omega
  rw [readOneWithFrame, readFull_append encodeHeader_length]
  simp only [Except.mapError, ok_bind, magicField, versionField, typeField, prevField, codeField,
    lengthField, suiteFromCode_suiteCode, Digest.ofBytes_bytes, ne_eq, not_true_eq_false,
    reject_of_not, tooShort, tooLong, not_false_eq_true]

theorem encodeRecord_parts :
    (encodeRecordIntoForSuite sums provider segmentID sequence unixNano prevHash payload).1 =
      encodeHeader provider segmentID sequence unixNano prevHash payload ++ (payload ++
        trailer (sums.crc (encodeHeader provider segmentID sequence unixNano prevHash payload ++ payload))
          (encodeRecordIntoForSuite sums provider segmentID sequence unixNano prevHash payload).2) := by
  simp only [encodeRecordIntoForSuite, checksummed, trailer, append_assoc]

theorem readOneWithFrame_encode {offset} (segmentBound : segmentID < 2 ^ 64) (sequenceBound : sequence < 2 ^ 64)
    (nonempty : 0 < payload.length) (small : payload.length ≤ maxPayloadBytes) (rest : Bytes) :
    readOneWithFrame sums
        ((encodeRecordIntoForSuite sums provider segmentID sequence unixNano prevHash payload).1 ++ rest)
        offset prevHash =
      .ok (written sums provider { segmentID, offset, sequence } unixNano prevHash payload,
        recordBytes payload.length, rest) := by
  obtain ⟨-, segmentField, sequenceField, timeField, -⟩ :=
    @header_fields provider segmentID sequence unixNano prevHash payload segmentBound sequenceBound small
  rw [encodeRecord_parts, append_assoc, append_assoc,
    readOneWithFrame_header segmentBound sequenceBound nonempty small]
  simp only [encodeRecordIntoForSuite, written]
  generalize encodeHeader provider segmentID sequence unixNano prevHash payload = header at *
  obtain ⟨trailerLength, crcField, crcBytes, hashField⟩ := trailer_fields (sums.crc (header ++ payload))
    (storageSum sums.hashes provider (checksummed sums header payload))
  have summed : header ++ payload ++ Words.encode 4 (sums.crc (header ++ payload)).toNat =
      checksummed sums header payload := rfl
  simp only [readBody, Except.mapError, ok_bind, ne_eq, not_true_eq_false, reject_of_not,
    not_false_eq_true, readFull_append, trailerLength, crcField, crcBytes, hashField, summed,
    walHash_provider, segmentField, sequenceField, timeField, bmod_emod, pure_eq_ok, recordBytes]

theorem readBody_torn {header behind offset length suiteID} (whole : behind.length = crcSize + recordHashSize)
    (short : length < payload.length + behind.length) :
    ∃ message, readBody sums header offset prevHash suiteID payload.length
      ((payload ++ behind).take length) = .error (.torn message) := by
  by_cases inPayload : length < payload.length
  · have cut : ((payload ++ behind).take length).length < payload.length := by
      rw [length_take]
      omega
    rw [readBody, readFull_short cut]
    split <;> exact ⟨_, rfl⟩
  · have cut : (behind.take (length - payload.length)).length < crcSize + recordHashSize := by
      rw [length_take]
      omega
    rw [take_append, take_of_length_le (by omega : payload.length ≤ length), readBody,
      readFull_append rfl]
    simp only [Except.mapError, ok_bind, readFull_short cut]
    split <;> exact ⟨_, rfl⟩

theorem readOneWithFrame_torn {offset length : Nat} (segmentBound : segmentID < 2 ^ 64)
    (sequenceBound : sequence < 2 ^ 64) (nonempty : 0 < payload.length)
    (small : payload.length ≤ maxPayloadBytes) (started : 0 < length)
    (short : length < recordBytes payload.length) :
    ∃ message, readOneWithFrame sums
        ((encodeRecordIntoForSuite sums provider segmentID sequence unixNano prevHash payload).1.take length)
        offset prevHash = .error (.torn message) := by
  have headerLength := @encodeHeader_length provider segmentID sequence unixNano prevHash payload
  rw [encodeRecord_parts, take_append, headerLength]
  by_cases inHeader : length < headerSize
  · have cut : ((encodeHeader provider segmentID sequence unixNano prevHash payload).take length).length <
        headerSize := by
      rw [length_take]
      omega
    have someBytes : ((encodeHeader provider segmentID sequence unixNano prevHash payload).take
        length).isEmpty = false := by
      rw [isEmpty_eq_false_iff, ← length_pos_iff, length_take, headerLength]
      unfold headerSize
      omega
    rw [Nat.sub_eq_zero_of_le (by omega), take_zero, append_nil, readOneWithFrame,
      readFull_short cut, someBytes]
    exact ⟨_, rfl⟩
  · rw [take_of_length_le (by omega),
      readOneWithFrame_header segmentBound sequenceBound nonempty small]
    apply readBody_torn (trailer_fields _ _).1
    rw [(trailer_fields _ _).1]
    unfold recordBytes at short
    omega

end

end TrustDB.Wal
