import TrustDB.Machine
import TrustDB.Wal.Segment

/-!
What a log is for: a list of items, cut into segments, in which every record knows its
position and the hash of the record before. A cursor is the place where the next record
goes; the bytes of a segment and the records that a reader finds there are read off the
cursor's way through the items.
-/

namespace TrustDB.Wal

open Result List CryptoSuite TrustCrypto Model Slice

structure Item where
  payload : Bytes
  unixNano : Int
  deriving DecidableEq

def Item.Fits (item : Item) : Prop :=
  0 < item.payload.length ∧ item.payload.length ≤ maxPayloadBytes

structure Cursor where
  segmentID : Nat
  sequence : Nat
  offset : Nat
  prev : Digest
  deriving DecidableEq

namespace Cursor

def first (segmentID : Nat) : Cursor where
  segmentID := segmentID
  sequence := 0
  offset := 0
  prev := zeroHash

def position (cursor : Cursor) : WALPosition where
  segmentID := cursor.segmentID
  offset := cursor.offset
  sequence := cursor.sequence + 1

def rotate (cursor : Cursor) : Cursor :=
  { cursor with segmentID := cursor.segmentID + 1, offset := 0 }

variable (sums : Sums) (provider : Provider)

def frame (cursor : Cursor) (item : Item) : Bytes × Digest :=
  encodeRecordIntoForSuite sums provider cursor.segmentID (cursor.sequence + 1) item.unixNano
    cursor.prev item.payload

def record (cursor : Cursor) (item : Item) : Record :=
  written sums provider cursor.position item.unixNano cursor.prev item.payload

def next (cursor : Cursor) (item : Item) : Cursor where
  segmentID := cursor.segmentID
  sequence := cursor.sequence + 1
  offset := cursor.offset + recordBytes item.payload.length
  prev := (cursor.frame sums provider item).2

def after (cursor : Cursor) (items : List Item) : Cursor :=
  items.foldl (Cursor.next sums provider) cursor

def records (cursor : Cursor) (items : List Item) : List Record :=
  Machine.outputs (Cursor.next sums provider) (Cursor.record sums provider) cursor items

def bytes (cursor : Cursor) (items : List Item) : Bytes :=
  (Machine.outputs (Cursor.next sums provider)
    (fun cursor item => (cursor.frame sums provider item).1) cursor items).flatten

variable {sums provider} {cursor : Cursor} {item : Item} {items : List Item}

@[simp] theorem after_cons :
    cursor.after sums provider (item :: items) =
      (cursor.next sums provider item).after sums provider items := rfl

@[simp] theorem records_nil : cursor.records sums provider [] = [] := rfl

@[simp] theorem records_cons :
    cursor.records sums provider (item :: items) =
      cursor.record sums provider item :: (cursor.next sums provider item).records sums provider items :=
  rfl

@[simp] theorem bytes_nil : cursor.bytes sums provider [] = [] := rfl

@[simp] theorem bytes_cons :
    cursor.bytes sums provider (item :: items) = (cursor.frame sums provider item).1 ++
        (cursor.next sums provider item).bytes sums provider items := rfl

theorem after_append (more : List Item) :
    cursor.after sums provider (items ++ more) =
      (cursor.after sums provider items).after sums provider more := by
  simp [after]

theorem records_append (more : List Item) :
    cursor.records sums provider (items ++ more) = cursor.records sums provider items ++
        (cursor.after sums provider items).records sums provider more := by
  simp [records, after]

theorem bytes_append (more : List Item) :
    cursor.bytes sums provider (items ++ more) = cursor.bytes sums provider items ++
        (cursor.after sums provider items).bytes sums provider more := by
  simp [bytes, after]

@[simp] theorem frame_length :
    (cursor.frame sums provider item).1.length = recordBytes item.payload.length :=
  encodeRecord_length

@[simp] theorem after_segmentID : (cursor.after sums provider items).segmentID = cursor.segmentID := by
  induction items generalizing cursor with
  | nil => rfl
  | cons item rest ih => exact ih

@[simp] theorem after_sequence :
    (cursor.after sums provider items).sequence = cursor.sequence + items.length := by
  induction items generalizing cursor with
  | nil => rfl
  | cons item rest ih =>
    rw [after_cons, ih]
    simp only [next, length_cons]
    omega

theorem after_offset :
    (cursor.after sums provider items).offset =
      cursor.offset + (cursor.bytes sums provider items).length := by
  induction items generalizing cursor with
  | nil => rfl
  | cons item rest ih =>
    rw [after_cons, ih, bytes_cons, length_append, frame_length, ← Nat.add_assoc]
    rfl

theorem length_le_bytes : items.length ≤ (cursor.bytes sums provider items).length := by
  induction items generalizing cursor with
  | nil => simp
  | cons item rest ih =>
    have shorter := @ih (cursor.next sums provider item)
    simp only [bytes_cons, length_append, frame_length, recordBytes, length_cons]
    unfold headerSize
    omega

end Cursor

def visitAll {τ : Type} (visit : Option (Visit τ)) : List Record → τ → Outcome Unit × τ
  | [], seen => (.ok (), seen)
  | record :: rest, seen =>
    Result.chain (visit.elim (.ok (), seen) fun call => call record seen) fun _ seen =>
      visitAll visit rest seen

section

variable (sums : Sums) (provider : Provider)

def noted : ScanState → Cursor → List Item → ScanState
  | state, _, [] => state
  | state, cursor, item :: rest =>
    let past := cursor.next sums provider item
    noted (state.note past.offset (cursor.record sums provider item)) past rest

structure ScanState.Tracks (state : ScanState) (cursor : Cursor) : Prop where
  suite : 0 < state.records → state.cryptoSuite = provider.suite
  segment : 0 < state.records → state.segmentID = cursor.segmentID
  sequence : 0 < state.records → state.lastSequence = cursor.sequence

variable {sums provider} {state : ScanState} {cursor : Cursor} {item : Item} {items : List Item}

theorem ScanState.Tracks.note (tracks : state.Tracks provider cursor) :
    (state.note (cursor.next sums provider item).offset (cursor.record sums provider item)).Tracks
      provider (cursor.next sums provider item) := by
  by_cases first : state.records = 0
  · constructor <;> intro _ <;> simp [ScanState.note, first, Cursor.record, Cursor.next, written,
      Cursor.position]
  · have positive : 0 < state.records := by omega
    constructor
    · intro _
      simpa [ScanState.note, first] using tracks.suite positive
    · intro _
      simpa [ScanState.note, first, Cursor.next] using tracks.segment positive
    · intro _
      rfl

theorem ScanState.Tracks.no_objection (tracks : state.Tracks provider cursor)
    (segmentPositive : 0 < cursor.segmentID) (sequenceBound : cursor.sequence + 1 < 2 ^ 64)
    (offset : Nat) : state.objection offset (cursor.record sums provider item) = none := by
  have nonzero : ¬(cursor.segmentID = 0 ∨ cursor.sequence + 1 = 0) := by omega
  by_cases first : state.records = 0
  · simp [ScanState.objection, Cursor.record, written, Cursor.position, first]
    omega
  · have positive : 0 < state.records := by omega
    have notLast : cursor.sequence ≠ maxUint64 := by
      unfold maxUint64
      omega
    simp [ScanState.objection, Cursor.record, written, Cursor.position, first, tracks.suite positive,
      tracks.segment positive, tracks.sequence positive, notLast]
    omega

theorem readOneWithFrame_frame (segmentBound : cursor.segmentID < 2 ^ 64)
    (sequenceBound : cursor.sequence + 1 < 2 ^ 64) (fits : item.Fits) (rest : Bytes) :
    readOneWithFrame sums ((cursor.frame sums provider item).1 ++ rest) cursor.offset cursor.prev =
      .ok (cursor.record sums provider item, recordBytes item.payload.length, rest) :=
  readOneWithFrame_encode segmentBound sequenceBound fits.1 fits.2 rest

theorem scanLoop_items {τ : Type} (tolerateTail : Bool) (visit : Option (Visit τ)) (tail : Bytes)
    (fits : ∀ item ∈ items, item.Fits) (segmentPositive : 0 < cursor.segmentID)
    (segmentBound : cursor.segmentID < 2 ^ 64) (sequenceBound : cursor.sequence + items.length < 2 ^ 64)
    (tracks : state.Tracks provider cursor) (fuel : Nat) (seen : τ) :
    scanLoop sums tolerateTail visit (items.length + fuel) (cursor.bytes sums provider items ++ tail)
        cursor.offset cursor.prev state seen =
      Result.chain (visitAll visit (cursor.records sums provider items) seen) fun _ seen =>
        scanLoop sums tolerateTail visit fuel tail (cursor.after sums provider items).offset
          (cursor.after sums provider items).prev (noted sums provider state cursor items) seen := by
  induction items generalizing cursor state seen with
  | nil => simp [Cursor.records, visitAll, Cursor.after, noted]
  | cons item rest ih =>
    have itemBound : cursor.sequence + 1 < 2 ^ 64 := by
      simp only [length_cons] at sequenceBound
      omega
    have read := @readOneWithFrame_frame sums provider cursor item segmentBound itemBound
      (fits item mem_cons_self) ((cursor.next sums provider item).bytes sums provider rest ++ tail)
    have passes := @ScanState.Tracks.no_objection sums provider state cursor item tracks segmentPositive
      itemBound cursor.offset
    have more : (item :: rest).length + fuel = (rest.length + fuel) + 1 := by
      simp only [length_cons]
      omega
    rw [more, scanLoop, Cursor.bytes_cons, append_assoc, read]
    simp only [passes, Cursor.records_cons, visitAll, chain_chain]
    congr 1
    funext _ seen
    apply ih (fun other member => fits other (mem_cons_of_mem item member))
    · exact segmentPositive
    · exact segmentBound
    · simp only [Cursor.next, length_cons] at *
      omega
    · exact tracks.note

def summary (sums : Sums) (provider : Provider) (cursor : Cursor) (items : List Item) : ScanState :=
  if items.isEmpty then .zero
  else {
    records := items.length
    validBytes := (cursor.after sums provider items).offset
    firstSequence := cursor.sequence + 1
    lastSequence := (cursor.after sums provider items).sequence
    segmentID := cursor.segmentID
    firstPrev := cursor.prev
    lastHash := (cursor.after sums provider items).prev
    cryptoSuite := provider.suite }

theorem noted_of_positive (positive : 0 < state.records) (offset : state.validBytes = cursor.offset)
    (sequence : state.lastSequence = cursor.sequence) (prev : state.lastHash = cursor.prev) :
    noted sums provider state cursor items = { state with
      records := state.records + items.length
      validBytes := (cursor.after sums provider items).offset
      lastSequence := (cursor.after sums provider items).sequence
      lastHash := (cursor.after sums provider items).prev } := by
  induction items generalizing state cursor with
  | nil =>
    simp only [noted, Cursor.after, foldl_nil, length_nil, Nat.add_zero]
    rw [← offset, ← sequence, ← prev]
  | cons item rest ih =>
    rw [noted, ih (Nat.succ_pos _) rfl rfl rfl]
    simp only [ScanState.note, Nat.ne_of_gt positive, if_false, length_cons, Cursor.after_cons]
    congr 1
    omega

theorem noted_zero : noted sums provider .zero cursor items = summary sums provider cursor items := by
  cases items with
  | nil => rfl
  | cons item rest =>
    rw [noted, noted_of_positive (Nat.succ_pos _) rfl rfl rfl]
    simp only [ScanState.note, ScanState.zero, summary, isEmpty_cons, Bool.false_eq_true,
      if_false, if_true, length_cons, Cursor.after_cons]
    congr 1
    omega

def Torn (sums : Sums) (provider : Provider) (cursor : Cursor) (tail : Bytes) : Prop :=
  ∃ item length, item.Fits ∧ length < recordBytes item.payload.length ∧
    tail = (cursor.frame sums provider item).1.take length

theorem scanLoop_end {τ : Type} (tolerateTail : Bool) (visit : Option (Visit τ)) {offset prev} (fuel : Nat)
    (seen : τ) : scanLoop sums tolerateTail visit (fuel + 1) [] offset prev state seen = (.ok state, seen) := by
  have read : readOneWithFrame sums [] offset prev = .error .eof := by
    rw [readOneWithFrame, readFull_short (by decide)]
    rfl
  rw [scanLoop, read]

theorem scanLoop_torn {τ : Type} (visit : Option (Visit τ)) {tail} (segmentBound : cursor.segmentID < 2 ^ 64)
    (sequenceBound : cursor.sequence + 1 < 2 ^ 64) (torn : Torn sums provider cursor tail) (fuel : Nat)
    (seen : τ) : scanLoop sums true visit (fuel + 1) tail cursor.offset cursor.prev state seen =
      (.ok state, seen) := by
  obtain ⟨item, length, fits, short, rfl⟩ := torn
  by_cases nothing : length = 0
  · rw [nothing, take_zero]
    exact scanLoop_end true visit fuel seen
  · obtain ⟨message, read⟩ := @readOneWithFrame_torn sums provider cursor.segmentID
      (cursor.sequence + 1) item.unixNano cursor.prev item.payload cursor.offset length segmentBound
      sequenceBound fits.1 fits.2 (by omega) short
    rw [scanLoop, Cursor.frame, read]
    rfl

/-- The file of one segment: whole records, and perhaps the start of another one. -/
structure SegmentFile (sums : Sums) (provider : Provider) (dir : Directory) (cursor : Cursor) (items : List Item)
    (tail : Bytes) : Prop where
  file : dir.lookup (segmentName cursor.segmentID) = some (.file (cursor.bytes sums provider items ++ tail))
  atStart : cursor.offset = 0
  segmentPositive : 0 < cursor.segmentID
  segmentBound : cursor.segmentID < 2 ^ 64
  sequenceBound : cursor.sequence + items.length < 2 ^ 64
  fits : ∀ item ∈ items, item.Fits
  cut : tail = [] ∨ cursor.sequence + items.length + 1 < 2 ^ 64 ∧
    Torn sums provider (cursor.after sums provider items) tail

theorem SegmentFile.scanFileVisit_eq {τ : Type} {dir tail}
    (segment : SegmentFile sums provider dir cursor items tail) {tolerateTail : Bool}
    (tolerated : tail = [] ∨ tolerateTail = true) (visit : Option (Visit τ)) (seen : τ) :
    scanFileVisit sums dir (segmentName cursor.segmentID) tolerateTail cursor.prev visit seen =
      Result.chain (visitAll visit (cursor.records sums provider items) seen) fun _ seen =>
        (.ok (summary sums provider cursor items), seen) := by
  have enough : items.length ≤ (cursor.bytes sums provider items).length := Cursor.length_le_bytes
  obtain ⟨fuel, spare⟩ : ∃ fuel,
      (cursor.bytes sums provider items ++ tail).length + 1 = items.length + (fuel + 1) :=
    ⟨(cursor.bytes sums provider items ++ tail).length - items.length, by
      rw [length_append]
      omega⟩
  have tracks : ScanState.zero.Tracks provider cursor := by
    constructor <;> intro positive <;> cases positive
  have scanned := @scanLoop_items sums provider .zero cursor items τ tolerateTail visit tail segment.fits
    segment.segmentPositive segment.segmentBound segment.sequenceBound tracks (fuel + 1) seen
  rw [scanFileVisit, Directory.readFile, segment.file]
  simp only [Except.mapError, chain_ok]
  rw [spare, ← segment.atStart, scanned, noted_zero]
  congr 1
  funext _ seen
  have segmentBound := segment.segmentBound
  rcases segment.cut with rfl | ⟨roomLeft, torn⟩
  · exact scanLoop_end tolerateTail visit fuel seen
  · rcases tolerated with rfl | rfl
    · exact scanLoop_end tolerateTail visit fuel seen
    · exact scanLoop_torn visit (by simpa using segmentBound) (by simpa using roomLeft) torn fuel seen

end

namespace Cursor

variable (sums : Sums) (provider : Provider)

def advance (cursor : Cursor) (items : List Item) : Cursor := (cursor.after sums provider items).rotate

def logRecords (cursor : Cursor) (segments : List (List Item)) : List Record :=
  (Machine.outputs (Cursor.advance sums provider)
    (fun cursor items => cursor.records sums provider items) cursor segments).flatten

variable {sums provider} {cursor : Cursor} {items : List Item} {segments : List (List Item)}

@[simp] theorem logRecords_nil : cursor.logRecords sums provider [] = [] := rfl

@[simp] theorem logRecords_cons :
    cursor.logRecords sums provider (items :: segments) = cursor.records sums provider items ++
        (cursor.advance sums provider items).logRecords sums provider segments := rfl

@[simp] theorem advance_segmentID :
    (cursor.advance sums provider items).segmentID = cursor.segmentID + 1 := by
  simp [advance, rotate]

@[simp] theorem advance_sequence :
    (cursor.advance sums provider items).sequence = cursor.sequence + items.length := by
  simp [advance, rotate]

@[simp] theorem advance_offset : (cursor.advance sums provider items).offset = 0 := rfl

theorem foldl_advance_segmentID :
    (segments.foldl (Cursor.advance sums provider) cursor).segmentID =
      cursor.segmentID + segments.length := by
  induction segments generalizing cursor with
  | nil => rfl
  | cons items rest ih =>
    rw [foldl_cons, ih, advance_segmentID, length_cons]
    omega

theorem foldl_advance_sequence :
    (segments.foldl (Cursor.advance sums provider) cursor).sequence =
      cursor.sequence + segments.flatten.length := by
  induction segments generalizing cursor with
  | nil => rfl
  | cons items rest ih =>
    rw [foldl_cons, ih, advance_sequence, flatten_cons, length_append]
    omega

theorem records_take (count : Nat) :
    cursor.records sums provider (items.take count) = (cursor.records sums provider items).take count := by
  induction items generalizing cursor count with
  | nil => simp
  | cons item rest ih =>
    cases count with
    | zero => rfl
    | succ count => rw [take_succ_cons, records_cons, records_cons, take_succ_cons, ih]

@[simp] theorem records_length : (cursor.records sums provider items).length = items.length :=
  Machine.outputs_length _ _ _ _

theorem records_prev :
    (cursor.after sums provider items).prev =
      ((cursor.records sums provider items).getLast?.map (·.recordHash)).getD cursor.prev := by
  induction items generalizing cursor with
  | nil => rfl
  | cons item rest ih =>
    rw [after_cons, ih, records_cons]
    cases rest with
    | nil => rfl
    | cons other more => rfl

theorem logRecords_prev :
    (segments.foldl (Cursor.advance sums provider) cursor).prev =
      ((cursor.logRecords sums provider segments).getLast?.map (·.recordHash)).getD cursor.prev := by
  induction segments generalizing cursor with
  | nil => rfl
  | cons items rest ih =>
    have here : (cursor.advance sums provider items).prev = _ := records_prev
    rw [foldl_cons, ih, logRecords_cons, getLast?_append, here]
    cases ((cursor.advance sums provider items).logRecords sums provider rest).getLast? <;> rfl

@[simp] theorem logRecords_length :
    (cursor.logRecords sums provider segments).length = segments.flatten.length := by
  induction segments generalizing cursor with
  | nil => rfl
  | cons items rest ih => simp [ih]

theorem records_sequence :
    (cursor.records sums provider items).map (·.position.sequence) =
      range' (cursor.sequence + 1) items.length := by
  induction items generalizing cursor with
  | nil => rfl
  | cons item rest ih =>
    rw [records_cons, map_cons, ih, length_cons, range'_succ]
    rfl

theorem logRecords_sequence :
    (cursor.logRecords sums provider segments).map (·.position.sequence) =
      range' (cursor.sequence + 1) segments.flatten.length := by
  induction segments generalizing cursor with
  | nil => rfl
  | cons items rest ih =>
    rw [logRecords_cons, map_append, ih, records_sequence, advance_sequence, flatten_cons,
      length_append, Nat.add_right_comm, range'_append_1]

theorem foldl_advance_offset (atStart : cursor.offset = 0) :
    (segments.foldl (Cursor.advance sums provider) cursor).offset = 0 := by
  induction segments generalizing cursor with
  | nil => exact atStart
  | cons items rest ih => exact ih rfl

theorem logRecords_append (more : List (List Item)) :
    cursor.logRecords sums provider (segments ++ more) = cursor.logRecords sums provider segments ++
        (segments.foldl (Cursor.advance sums provider) cursor).logRecords sums provider more := by
  simp [logRecords]

end Cursor

end TrustDB.Wal
