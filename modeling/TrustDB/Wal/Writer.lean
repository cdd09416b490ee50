import TrustDB.Wal.Replay

/-!
Package `wal`, the writer of a directory. An append fixes its position first and is written
when its turn comes; a failed write or sync poisons the writer. The answers of the file
system to the single operations of an append are an input.
-/

namespace TrustDB.Wal

open Result CryptoSuite TrustCrypto Model

structure Writer where
  file : Option String
  maxBytes : Int
  segmentID : Nat
  sequence : Nat
  offset : Nat
  prevHash : Digest
  stickyErr : Option Err
  closed : Bool
  suiteID : ID
  binding : Binding
  deriving DecidableEq

def Writer.cursor (writer : Writer) : Cursor where
  segmentID := writer.segmentID
  sequence := writer.sequence
  offset := writer.offset
  prev := writer.prevHash

structure Log where
  writer : Writer
  dir : Directory

structure AppendState where
  segmentID : Nat
  sequence : Nat
  offset : Nat
  deriving DecidableEq

/-- The operations of an append that fail, with their causes. A failed write leaves some bytes
behind. The sync behind the write counts only where the sync mode asks for one. -/
structure Faults where
  syncBefore : Option Err
  closeBefore : Option Err
  openNext : Option Err
  publish : Option Err
  write : Option (Nat × Err)
  sync : Option Err

def Faults.none : Faults where
  syncBefore := .none
  closeBefore := .none
  openNext := .none
  publish := .none
  write := .none
  sync := .none

def suiteProvider (suiteID : ID) : Provider :=
  if suiteID = cnSmV1 then .cnSMV1Provider else .intlV1Provider

def errWriterClosed : Err := .text "wal: writer is closed"

def errAppendReservationInvalidated : Err :=
  .text "wal: append reservation invalidated; retry request"

def validatePayloadLength (length : Nat) : Outcome Unit := do
  reject (length = 0) (.text "wal: empty payload")
  reject (maxPayloadBytes < length)
    (.text s!"wal: payload too large: {length} > {maxPayloadBytes}")

namespace Writer

variable (writer : Writer)

def readyToAppendLocked : Outcome Unit := do
  reject (writer.closed = true) errWriterClosed
  raise writer.stickyErr
  reject (writer.file = none) errWriterClosed
  reject (writer.sequence = maxUint64) (.text "wal: sequence exhausted")

/-- A record that would push a segment past the limit goes to the next one, unless the segment
is still empty. -/
def rotates (offset payloadLen : Nat) : Bool :=
  0 < writer.maxBytes && 0 < offset && writer.maxBytes - recordBytes payloadLen < offset

def positionAfter (state : AppendState) (payloadLen : Nat) : Outcome (WALPosition × AppendState) := do
  reject (state.sequence = maxUint64) (.text "wal: sequence exhausted")
  reject (writer.rotates state.offset payloadLen = true ∧ state.segmentID = maxUint64)
    (.text "wal: segment id exhausted")
  let segmentID := if writer.rotates state.offset payloadLen then state.segmentID + 1 else state.segmentID
  let offset := if writer.rotates state.offset payloadLen then 0 else state.offset
  return ({ segmentID, offset, sequence := state.sequence + 1 },
    { segmentID, offset := offset + recordBytes payloadLen, sequence := state.sequence + 1 })

def appendState : AppendState where
  segmentID := writer.segmentID
  sequence := writer.sequence
  offset := writer.offset

def nextPositionLocked (payloadLen : Nat) : Outcome WALPosition := do
  let (position, _) ← writer.positionAfter writer.appendState payloadLen
  return position

end Writer

namespace Log

variable (log : Log)

/-- `poisonLocked`: the first failure stays. -/
def poison {α : Type} (cause : Err) : Outcome α × Log :=
  let sticky := log.writer.stickyErr.getD cause
  (.error sticky, { log with writer := { log.writer with stickyErr := some sticky } })

def rotateLocked (faults : Faults) : Outcome Unit × Log :=
  if log.writer.segmentID = maxUint64 then (.error (.text "wal: segment id exhausted"), log)
  else
    match faults.syncBefore with
    | some cause => log.poison (.textOf "wal: sync before rotate" cause)
    | none =>
      let nextSeg := log.writer.segmentID + 1
      let name := segmentName nextSeg
      let detached : Log := { log with writer := { log.writer with file := none } }
      let created : Outcome Directory := do
        (raise faults.closeBefore).mapError (.textOf "wal: close before rotate")
        (raise faults.openNext).mapError (.textOf s!"wal: open rotated segment {nextSeg}")
        (log.dir.createFile name).mapError (.textOf s!"wal: open rotated segment {nextSeg}")
      match created with
      | .error cause => detached.poison cause
      | .ok dir =>
        match faults.publish with
        | some cause =>
          { detached with dir }.poison (.textOf s!"wal: publish rotated segment {nextSeg}" cause)
        | none =>
          (.ok (), {
            writer := { log.writer with file := some name, segmentID := nextSeg, offset := 0 }
            dir := dir })

variable (sums : Sums)

/-- The end of `commitAtExpected`: the record is encoded for the active segment, written and
synced. -/
def writeLocked (faults : Faults) (payload : Bytes) (unixNano : Int) :
    Outcome (WALPosition × Digest) × Log :=
  let writer := log.writer
  let sequence := writer.sequence + 1
  let (encoded, recordHash) := encodeRecordIntoForSuite sums (suiteProvider writer.suiteID)
    writer.segmentID sequence unixNano writer.prevHash payload
  let name := writer.file.getD ""
  match faults.write with
  | some (count, cause) =>
    let dir := (log.dir.appendFile name (encoded.take count)).toOption.getD log.dir
    { log with dir }.poison (.textOf "wal: write" cause)
  | none =>
    match log.dir.appendFile name encoded with
    | .error cause => log.poison (.textOf "wal: write" cause)
    | .ok dir =>
      match faults.sync with
      | some cause => { log with dir }.poison (.textOf "wal: sync" cause)
      | none =>
        (.ok ({ segmentID := writer.segmentID, offset := writer.offset, sequence }, recordHash), {
          writer := { writer with
            sequence := sequence
            offset := writer.offset + encoded.length
            prevHash := recordHash }
          dir := dir })

/-- `ctxErr` is the error of the request's context, once it is done. -/
def commitAtExpected (faults : Faults) (ctxErr : Option Err) (payload : Bytes) (unixNano : Int)
    (expected : WALPosition) : Outcome (WALPosition × Digest) × Log :=
  let admitted := do
    validatePayloadLength payload.length
    raise ctxErr
    log.writer.readyToAppendLocked
    let position ← log.writer.nextPositionLocked payload.length
    reject (position ≠ expected) errAppendReservationInvalidated
  Result.chain (admitted, log) fun _ log =>
    if log.writer.rotates log.writer.offset payload.length then
      Result.chain (log.rotateLocked faults) fun _ log => log.writeLocked sums faults payload unixNano
    else log.writeLocked sums faults payload unixNano

/-- `AppendAt` with no other append under way: the position is reserved and the reservation
completed at once. -/
def appendAt (payload : Bytes) (unixNano : Int) : Outcome (WALPosition × Digest) × Log :=
  let reserved := do
    validatePayloadLength payload.length
    log.writer.readyToAppendLocked
    log.writer.nextPositionLocked payload.length
  Result.chain (reserved, log) fun position log =>
    log.commitAtExpected sums .none none payload unixNano position

/-- `Close`, where nothing fails but what already has. -/
def close : Outcome Unit × Log :=
  (raise (if log.writer.closed then none else log.writer.stickyErr),
    { log with writer := { log.writer with closed := true, file := none } })

end Log

section

variable {log next : Log} {faults : Faults} {sums : Sums} {payload : Bytes} {unixNano : Int}

theorem Log.rotateLocked_eq_ok (rotated : log.rotateLocked faults = (.ok (), next)) :
    log.writer.segmentID ≠ maxUint64 ∧
      log.dir.lookup (segmentName (log.writer.segmentID + 1)) = none ∧
      next = {
        writer := { log.writer with
          file := some (segmentName (log.writer.segmentID + 1))
          segmentID := log.writer.segmentID + 1
          offset := 0 }
        dir := log.dir.insert (segmentName (log.writer.segmentID + 1)) (.file []) } := by
  simp only [rotateLocked] at rotated
  split at rotated
  · cases rotated
  · rename_i notLast
    split at rotated
    · cases rotated
    · split at rotated
      · cases rotated
      · rename_i dir created
        split at rotated
        · cases rotated
        · simp only [bind_eq_ok, mapError_eq_ok, Directory.createFile_eq_ok] at created
          obtain ⟨_, _, _, _, free, rfl⟩ := created
          refine ⟨notLast, free, ?_⟩
          exact (Prod.mk.inj rotated).2.symm

theorem Log.writeLocked_eq_ok {answer}
    (wrote : log.writeLocked sums faults payload unixNano = (.ok answer, next)) :
    let frame := log.writer.cursor.frame sums (suiteProvider log.writer.suiteID) { payload, unixNano }
    answer = (log.writer.cursor.position, frame.2) ∧
      ∃ data, log.dir.lookup (log.writer.file.getD "") = some (.file data) ∧ next = {
        writer := { log.writer with
          sequence := log.writer.sequence + 1
          offset := log.writer.offset + recordBytes payload.length
          prevHash := frame.2 }
        dir := log.dir.insert (log.writer.file.getD "") (.file (data ++ frame.1)) } := by
  simp only [writeLocked] at wrote
  split at wrote
  · cases wrote
  · split at wrote
    · cases wrote
    · rename_i dir appended
      split at wrote
      · cases wrote
      · obtain ⟨data, stored, _, rfl⟩ := Directory.appendFile_eq_ok.mp appended
        obtain ⟨same, rest⟩ := Prod.mk.inj wrote
        refine ⟨(Except.ok.inj same).symm, data, stored, ?_⟩
        rw [← rest, encodeRecord_length]
        rfl

theorem validatePayloadLength_eq_ok {length : Nat} :
    validatePayloadLength length = .ok () ↔ 0 < length ∧ length ≤ maxPayloadBytes := by
  simp [validatePayloadLength, Nat.pos_iff_ne_zero]

theorem Writer.readyToAppendLocked_eq_ok {writer : Writer} :
    writer.readyToAppendLocked = .ok () ↔ writer.closed = false ∧ writer.stickyErr = none ∧
      writer.file ≠ none ∧ writer.sequence ≠ maxUint64 := by
  simp [Writer.readyToAppendLocked]

theorem Log.commitAtExpected_eq_ok {ctxErr expected answer}
    (committed : log.commitAtExpected sums faults ctxErr payload unixNano expected = (.ok answer, next)) :
    validatePayloadLength payload.length = .ok () ∧ ctxErr = none ∧
      log.writer.readyToAppendLocked = .ok () ∧
      log.writer.nextPositionLocked payload.length = .ok expected ∧
      if log.writer.rotates log.writer.offset payload.length then
        ∃ rotated, log.rotateLocked faults = (.ok (), rotated) ∧
          rotated.writeLocked sums faults payload unixNano = (.ok answer, next)
      else log.writeLocked sums faults payload unixNano = (.ok answer, next) := by
  obtain ⟨_, admitted, done⟩ := check_eq_ok.mp committed
  simp only [bind_eq_ok, raise_eq_ok, reject_eq_ok] at admitted
  obtain ⟨_, length, _, alive, _, ready, position, reserved, same⟩ := admitted
  obtain rfl := not_not.mp same
  refine ⟨length, alive, ready, reserved, ?_⟩
  by_cases rotates : log.writer.rotates log.writer.offset payload.length
  · rw [if_pos rotates] at done ⊢
    obtain ⟨_, rotated, rotation, wrote⟩ := chain_eq_ok.mp done
    exact ⟨rotated, rotation, wrote⟩
  · rw [if_neg rotates] at done ⊢
    exact done

end

/-- The segments of an existing directory are replayed for the state that the next append
needs. The last segment with a record counts. -/
def replaySegments (sums : Sums) (dir : Directory) (suiteID : ID) :
    SegmentChainState → ScanState → List Nat → Outcome ScanState
  | _, last, [] => return last
  | chain, last, seg :: rest => do
    let (chain, state) ← (replaySegment sums dir suiteID chain seg
      (some fun _ seen => (.ok (), seen)) ()).1
    replaySegments sums dir suiteID chain (if 0 < state.records then state else last) rest

def Options.firstSegment (opts : Options) : Nat :=
  if opts.initialSegmentID = 0 then 1 else opts.initialSegmentID.toNat

def openDirWriterWithOps (env : Env) (dir : Directory) (opts : Options) : Outcome Writer × Directory :=
  let admitted := do
    let binding ← bindingForOptions opts
    let segments ← listSegments dir
    return (binding, segments)
  Result.chain (admitted, dir) fun (binding, segments) dir =>
    Result.chain (ensureBinding env dir binding (!segments.isEmpty)) fun _ dir =>
      let writer (activeSeg : Nat) (last : ScanState) (offset : Nat) : Writer := {
        file := some (segmentName activeSeg)
        maxBytes := opts.maxSegmentBytes
        segmentID := activeSeg
        sequence := last.lastSequence
        offset := offset
        prevHash := last.lastHash
        stickyErr := none
        closed := false
        suiteID := binding.cryptoSuite
        binding := binding }
      match segments.getLast? with
      | none =>
        let activeSeg := opts.firstSegment
        match dir.createFile (segmentName activeSeg) with
        | .error cause => (.error (.textOf s!"wal: open segment {activeSeg}" cause), dir)
        | .ok dir => (.ok (writer activeSeg .zero 0), dir)
      | some activeSeg =>
        let reopened := do
          let last ← replaySegments env.sums dir binding.cryptoSuite (.start (firstAbove segments))
            .zero segments
          let data ← (dir.readFile (segmentName activeSeg)).mapError
            (.textOf s!"wal: open segment {activeSeg}")
          return writer activeSeg last data.length
        (reopened, dir)

theorem Options.firstSegment_bounds (opts : Options) :
    0 < opts.firstSegment ∧ opts.firstSegment < 2 ^ 64 := by
  unfold firstSegment
  split
  · decide
  · rename_i nonzero
    refine ⟨Nat.pos_of_ne_zero fun zero => nonzero ?_, opts.initialSegmentID.toNat_lt⟩
    exact UInt64.toNat_inj.mp zero

end TrustDB.Wal
