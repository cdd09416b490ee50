import TrustDB.Codec.Slice
import TrustDB.Codec.Words
import TrustDB.TrustCrypto

/-!
Package `backup`, the encrypted frames of an archive: a byte stream is cut into chunks, each
sealed under its own nonce together with its position, its length and whether it is the last. The
cipher is a parameter; it opens what was sealed under the key and nothing else.
-/

namespace TrustDB.Backup

open Result List

structure AEAD where
  sealUp : (nonce plaintext aad : Bytes) → Bytes
  openUp : (nonce ciphertext aad : Bytes) → Option Bytes
  sealUp_length : ∀ nonce plaintext aad, (sealUp nonce plaintext aad).length = plaintext.length + 16

/-- A call of `Seal`: nonce, plaintext and associated data. -/
abbrev SealCall := Bytes × Bytes × Bytes

/-- The cipher opens the results of the calls that were made under its key, and rejects the rest. -/
def AEAD.Ideal (aead : AEAD) (calls : List SealCall) : Prop :=
  ∀ nonce ciphertext aad plaintext, aead.openUp nonce ciphertext aad = some plaintext ↔
    (nonce, plaintext, aad) ∈ calls ∧ ciphertext = aead.sealUp nonce plaintext aad

def minFramePlainBytes : Nat := 64 * 2 ^ 10

def maxFramePlainBytes : Nat := 16 * 2 ^ 20

def backupFrameFinal : UInt8 := 1

/-- What the checked envelope header fixes for the frames behind it. -/
structure Envelope where
  noncePrefix : Bytes
  prefixLength : noncePrefix.length = 8
  headerDigest : Digest
  maxPlain : Nat
  minimum : minFramePlainBytes ≤ maxPlain
  maximum : maxPlain ≤ maxFramePlainBytes

def makeFrameHeader (ordinal plainLength : Nat) (flags : UInt8) : Bytes :=
  Words.encode 4 ordinal ++ Words.encode 4 plainLength ++ [flags]

def makeFrameNonce (noncePrefix : Bytes) (ordinal : Nat) : Bytes := noncePrefix ++ Words.encode 4 ordinal

def makeFrameAAD (headerDigest : Digest) (frameHeader : Bytes) : Bytes :=
  utf8 "trustdb.backup-frame.v1" ++ headerDigest.bytes ++ frameHeader

def authenticationFailed : Err := .new .dataLoss "backup authentication failed"

inductive Ended
  | eof
  | failed (err : Err)
  deriving Repr, DecidableEq

section

variable (aead : AEAD) (envelope : Envelope)

theorem Envelope.positive : 0 < envelope.maxPlain := by
  have minimum := envelope.minimum
  simp only [minFramePlainBytes] at minimum
  omega

def sealCall (ordinal : Nat) (plaintext : Bytes) (flags : UInt8) : SealCall :=
  (makeFrameNonce envelope.noncePrefix ordinal, plaintext,
    makeFrameAAD envelope.headerDigest (makeFrameHeader ordinal plaintext.length flags))

def frame (ordinal : Nat) (plaintext : Bytes) (flags : UInt8) : Bytes :=
  let (nonce, plaintext, aad) := sealCall envelope ordinal plaintext flags
  makeFrameHeader ordinal plaintext.length flags ++ aead.sealUp nonce plaintext aad

/-- The writer. A full chunk is written at once, so the one it holds has room. -/
structure FrameWriter where
  dst : Bytes
  chunk : Bytes
  room : chunk.length < envelope.maxPlain
  ordinal : Nat
  closed : Bool

namespace FrameWriter

variable {envelope}

def start : FrameWriter envelope where
  dst := []
  chunk := []
  room := envelope.positive
  ordinal := 0
  closed := false

def writeFrame (w : FrameWriter envelope) (plaintext : Bytes) (flags : UInt8) :
    Outcome (FrameWriter envelope) := do
  reject (w.ordinal = 2 ^ 32 - 1) (.new .resourceExhausted "backup has too many encrypted frames")
  return { w with dst := w.dst ++ frame aead envelope w.ordinal plaintext flags, ordinal := w.ordinal + 1 }

/-- The loop of `Write`: a round that does not fill the chunk has taken all of `p`. -/
def fill (w : FrameWriter envelope) (p : Bytes) : Outcome (FrameWriter envelope) :=
  let space := envelope.maxPlain - w.chunk.length
  if fits : p.length < space then
    .ok { w with chunk := w.chunk ++ p, room := by rw [List.length_append]; omega }
  else do
    let next ← w.writeFrame aead (w.chunk ++ p.take space) 0
    fill { next with chunk := [], room := envelope.positive } (p.drop space)
termination_by p.length
decreasing_by
  have room := w.room
  rw [List.length_drop]
  omega

def write (w : FrameWriter envelope) (p : Bytes) : Outcome (FrameWriter envelope) := do
  reject (w.closed = true) (.text "backup frame writer is closed")
  w.fill aead p

def close (w : FrameWriter envelope) : Outcome (FrameWriter envelope) := do
  if w.closed then return w
  let w := { w with closed := true }
  if w.chunk ≠ [] then
    let w ← w.writeFrame aead w.chunk 0
    { w with chunk := [], room := envelope.positive }.writeFrame aead [] backupFrameFinal
  else w.writeFrame aead [] backupFrameFinal

end FrameWriter

/-- The bytes behind the header once the writer is closed. -/
def writeStream (writes : List Bytes) : Outcome Bytes := do
  let w ← writes.foldlM (FrameWriter.write aead) (FrameWriter.start : FrameWriter envelope)
  let w ← w.close aead
  return w.dst

structure FrameReader where
  src : Bytes
  expected : Nat
  plain : Bytes
  final : Bool
  failed : Option Err

namespace FrameReader

def start (src : Bytes) : FrameReader := { src, expected := 0, plain := [], final := false, failed := none }

/-- The frame behind its checked header, and the reader after it. -/
def readBody (r : FrameReader) (header src : Bytes) : Outcome FrameReader := do
  let ordinal := Words.decode (header.take 4)
  let plainLength := Words.decode ((header.drop 4).take 4)
  let flags := (header.drop 8).headD 0
  reject (ordinal ≠ r.expected ∨ envelope.maxPlain < plainLength ∨ (flags ≠ 0 ∧ flags ≠ backupFrameFinal))
    authenticationFailed
  reject (flags = backupFrameFinal ∧ plainLength ≠ 0) authenticationFailed
  let (ciphertext, src) ← (Slice.readFull (plainLength + 16) src).mapError fun _ =>
    .new .dataLoss "encrypted backup frame is truncated"
  match aead.openUp (makeFrameNonce envelope.noncePrefix ordinal) ciphertext
      (makeFrameAAD envelope.headerDigest header) with
  | none => .error authenticationFailed
  | some plaintext =>
    let r := { r with src, expected := (r.expected + 1) % 2 ^ 32 }
    if flags = backupFrameFinal then do
      reject (src ≠ []) (.new .dataLoss "encrypted backup has trailing data")
      return { r with final := true }
    else return { r with plain := plaintext }

def readFrame (r : FrameReader) : Outcome FrameReader := do
  let (header, src) ← (Slice.readFull 9 r.src).mapError fun _ =>
    .new .dataLoss "encrypted backup is truncated before its final frame"
  r.readBody aead envelope header src

variable {aead envelope}

theorem makeFrameHeader_parts {ordinal length : Nat} {flags : UInt8} (small : ordinal < 2 ^ 32)
    (short : length < 2 ^ 32) : let header := makeFrameHeader ordinal length flags
    Words.decode (header.take 4) = ordinal ∧ Words.decode ((header.drop 4).take 4) = length ∧
      (header.drop 8).headD 0 = flags := by
  have first := Words.encode_length 4 ordinal
  have second := Words.encode_length 4 length
  refine ⟨?_, ?_, ?_⟩
  · rw [makeFrameHeader, append_assoc, take_left' first, Words.decode_encode 4 _ small]
  · rw [makeFrameHeader, append_assoc, drop_left' first, take_left' second, Words.decode_encode 4 _ short]
  · rw [makeFrameHeader, drop_left' (by simp), headD_cons]

theorem eq_makeFrameHeader {header : Bytes} (width : header.length = 9) :
    ∃ (ordinal length : Nat) (flags : UInt8), ordinal < 2 ^ 32 ∧ length < 2 ^ 32 ∧
      header = makeFrameHeader ordinal length flags := by
  obtain ⟨flags, last⟩ := length_eq_one_iff.mp (show (header.drop 8).length = 1 by simp [width])
  have first : (header.take 4).length = 4 := length_take_of_le (by omega)
  have second : ((header.drop 4).take 4).length = 4 := length_take_of_le (by simp [width])
  refine ⟨Words.decode (header.take 4), Words.decode ((header.drop 4).take 4), flags,
    lt_of_lt_of_eq (Words.decode_lt _) (by rw [first]; rfl),
    lt_of_lt_of_eq (Words.decode_lt _) (by rw [second]; rfl), ?_⟩
  have front := Words.encode_decode (header.take 4)
  have middle := Words.encode_decode ((header.drop 4).take 4)
  rw [first] at front
  rw [second] at middle
  have rejoined := take_append_drop 4 (header.drop 4)
  rw [drop_drop, last] at rejoined
  rw [makeFrameHeader, front, middle, append_assoc, rejoined, take_append_drop]

/-- The reader behind one frame. -/
inductive After (r : FrameReader) (flags : UInt8) (length : Nat) (plaintext rest : Bytes) : FrameReader → Prop
  | last (final : flags = backupFrameFinal) (empty : length = 0) (ended : rest = []) :
      After r flags length plaintext rest { r with src := rest, expected := (r.expected + 1) % 2 ^ 32, final := true }
  | more (plain : flags = 0) :
      After r flags length plaintext rest
        { r with src := rest, expected := (r.expected + 1) % 2 ^ 32, plain := plaintext }

/-- What the reader takes as its next frame. -/
structure Taken (aead : AEAD) (envelope : Envelope) (r next : FrameReader) (flags : UInt8)
    (plaintext ciphertext rest : Bytes) (length : Nat) : Prop where
  source : r.src = makeFrameHeader r.expected length flags ++ (ciphertext ++ rest)
  ciphertextLength : ciphertext.length = length + 16
  bounded : length ≤ envelope.maxPlain
  opened : aead.openUp (makeFrameNonce envelope.noncePrefix r.expected) ciphertext
    (makeFrameAAD envelope.headerDigest (makeFrameHeader r.expected length flags)) = some plaintext
  after : After r flags length plaintext rest next

theorem taken_of_readFrame {r next : FrameReader} (done : r.readFrame aead envelope = .ok next) :
    ∃ flags plaintext ciphertext rest length, Taken aead envelope r next flags plaintext ciphertext rest length := by
  simp only [readFrame, readBody, bind_eq_ok, mapError_eq_ok, reject_eq_ok] at done
  obtain ⟨⟨header, src⟩, read, _, checked, _, whole, ⟨ciphertext, rest⟩, found, done⟩ := done
  obtain ⟨width, front⟩ := Slice.readFull_eq_ok read
  obtain ⟨ordinal, length, flags, ordinalBound, lengthBound, rfl⟩ := eq_makeFrameHeader width
  obtain ⟨readOrdinal, readLength, readFlags⟩ := @makeFrameHeader_parts _ _ flags ordinalBound lengthBound
  simp only [readOrdinal, readLength, readFlags, not_or, not_and, not_not, not_lt] at checked whole found done
  obtain ⟨rfl, bounded, known⟩ := checked
  obtain ⟨ciphertextLength, back⟩ := Slice.readFull_eq_ok found
  split at done
  · cases done
  · rename_i plaintext opened
    refine ⟨flags, plaintext, ciphertext, rest, length, back ▸ front, ciphertextLength, bounded, opened, ?_⟩
    split at done
    · rename_i final
      simp only [bind_eq_ok, reject_eq_ok, not_not, return_eq_ok] at done
      obtain ⟨_, ended, rfl⟩ := done
      exact .last final (whole final) ended
    · rename_i plain
      cases done
      exact .more (by_contra fun other => plain (known other))

theorem readFrame_of_taken {r next : FrameReader} {flags plaintext ciphertext rest length}
    (small : r.expected < 2 ^ 32) (taken : Taken aead envelope r next flags plaintext ciphertext rest length) :
    r.readFrame aead envelope = .ok next := by
  obtain ⟨source, ciphertextLength, bounded, opened, after⟩ := taken
  have maximum := envelope.maximum
  simp only [maxFramePlainBytes] at maximum
  obtain ⟨readOrdinal, readLength, readFlags⟩ := @makeFrameHeader_parts r.expected length flags small (by omega)
  have front : Slice.readFull 9 r.src = .ok (makeFrameHeader r.expected length flags, ciphertext ++ rest) :=
    source ▸ Slice.readFull_append (by simp [makeFrameHeader])
  have back : Slice.readFull (length + 16) (ciphertext ++ rest) = .ok (ciphertext, rest) :=
    Slice.readFull_append ciphertextLength
  simp only [readFrame, readBody, front, readOrdinal, readLength, readFlags, back, opened, Except.mapError, ok_bind]
  cases after with
  | last final empty ended => simp [final, empty, ended, reject]
  | more plain => simp [plain, backupFrameFinal, reject, bounded]

theorem readFrame_shorter {r next : FrameReader} (done : r.readFrame aead envelope = .ok next) :
    next.src.length < r.src.length := by
  obtain ⟨_, _, _, _, _, taken⟩ := taken_of_readFrame done
  rw [taken.source, length_append, length_append, makeFrameHeader]
  cases taken.after <;> simp only [length_append, Words.encode_length] <;> omega

/-- The loop of `Read`, which leaves a reader with bytes to give, or at its end, or failed. -/
def fetch (aead : AEAD) (envelope : Envelope) (r : FrameReader) : FrameReader :=
  if r.failed ≠ none ∨ r.plain ≠ [] ∨ r.final = true then r
  else match _ : r.readFrame aead envelope with
    | .error err => { r with failed := some err }
    | .ok next => fetch aead envelope next
termination_by r.src.length
decreasing_by exact readFrame_shorter ‹_›

def read (aead : AEAD) (envelope : Envelope) (r : FrameReader) (size : Nat) : Except Ended Bytes × FrameReader :=
  let r := r.fetch aead envelope
  match r.failed with
  | some err => (.error (.failed err), r)
  | none =>
    if r.plain = [] then (.error .eof, r)
    else (.ok (r.plain.take size), { r with plain := r.plain.drop size })

/-- The answers to a sequence of reads into buffers of the given sizes. -/
def reads (aead : AEAD) (envelope : Envelope) : List Nat → FrameReader → List (Except Ended Bytes)
  | [], _ => []
  | size :: rest, r => (r.read aead envelope size).1 :: reads aead envelope rest (r.read aead envelope size).2

end FrameReader

end

end TrustDB.Backup
