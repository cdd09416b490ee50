import TrustDB.Wal.Directory
import TrustDB.Wal.Record

/-!
Package `wal`, one segment file: the scan that reads it record by record, and the state that
carries the hash chain from one segment to the next.
-/

namespace TrustDB.Wal

open Result CryptoSuite TrustCrypto Model Slice

abbrev Visit (τ : Type) := Record → τ → Outcome Unit × τ

def zeroHash : Digest := .fill 0

structure ScanState where
  records : Nat
  validBytes : Nat
  firstSequence : Nat
  lastSequence : Nat
  segmentID : Nat
  firstPrev : Digest
  lastHash : Digest
  cryptoSuite : ID
  deriving DecidableEq

namespace ScanState

def zero : ScanState where
  records := 0
  validBytes := 0
  firstSequence := 0
  lastSequence := 0
  segmentID := 0
  firstPrev := zeroHash
  lastHash := zeroHash
  cryptoSuite := ""

/-- What is wrong with a record that could be read, and whether a scan that tolerates a broken
tail stops there instead of failing. -/
def objection (state : ScanState) (offset : Nat) (record : Record) : Option (Err × Bool) :=
  if record.position.segmentID = 0 ∨ record.position.sequence = 0 then
    some (.text s!"wal: zero segment_id or sequence at offset {offset}", true)
  else if state.records = 0 then none
  else if record.cryptoSuite ≠ state.cryptoSuite then
    some (.text s!"wal: mixed crypto_suite at offset {offset}", false)
  else if record.position.segmentID ≠ state.segmentID then
    some (.text (s!"wal: segment_id changed from {state.segmentID} to " ++
      s!"{record.position.segmentID} at offset {offset}"), true)
  else if state.lastSequence = maxUint64 ∨ record.position.sequence ≠ state.lastSequence + 1 then
    some (.text (s!"wal: sequence discontinuity at offset {offset}: got " ++
      s!"{record.position.sequence} after {state.lastSequence}"), true)
  else none

def note (state : ScanState) (offset : Nat) (record : Record) : ScanState :=
  let first := state.records = 0
  { records := state.records + 1
    validBytes := offset
    firstSequence := if first then record.position.sequence else state.firstSequence
    lastSequence := record.position.sequence
    segmentID := if first then record.position.segmentID else state.segmentID
    firstPrev := if first then record.prevHash else state.firstPrev
    lastHash := record.recordHash
    cryptoSuite := if first then record.cryptoSuite else state.cryptoSuite }

def tolerates (state : ScanState) : ReadErr → Bool
  | .torn _ => true
  | .corrupt _ => true
  | .badMagic _ => 0 < state.records
  | .eof => false
  | .unsupported _ => false

end ScanState

section

variable {τ : Type} (sums : Sums)

/-- The loop of `scanFileVisit`. A record takes bytes off the stream, so the fuel that the
caller gives lasts to its end. -/
def scanLoop (tolerateTail : Bool) (visit : Option (Visit τ)) :
    Nat → Bytes → Nat → Digest → ScanState → τ → Outcome ScanState × τ
  | 0, _, _, _, _, seen => (.error (.text "wal: endless segment"), seen)
  | fuel + 1, data, offset, prev, state, seen =>
    match readOneWithFrame sums data offset prev with
    | .error .eof => (.ok state, seen)
    | .error failure =>
      if tolerateTail && state.tolerates failure then (.ok state, seen)
      else (.error failure.err, seen)
    | .ok (record, n, rest) =>
      match state.objection offset record with
      | some (failure, tolerable) =>
        if tolerateTail && tolerable then (.ok state, seen) else (.error failure, seen)
      | none =>
        Result.chain (visit.elim (.ok (), seen) fun call => call record seen) fun _ seen =>
          scanLoop tolerateTail visit fuel rest (offset + n) record.recordHash
            (state.note (offset + n) record) seen

def scanFileVisit (dir : Directory) (name : String) (tolerateTail : Bool) (startPrev : Digest)
    (visit : Option (Visit τ)) (seen : τ) : Outcome ScanState × τ :=
  Result.chain ((dir.readFile name).mapError (.textOf "wal: open reader"), seen) fun data seen =>
    scanLoop sums tolerateTail visit (data.length + 1) data 0 startPrev .zero seen

/-- `scanFileFrom` with a scan that does not collect. -/
def scanFileFrom (dir : Directory) (name : String) (tolerateTail : Bool) (startPrev : Digest) :
    Outcome ScanState :=
  (scanFileVisit sums dir name tolerateTail startPrev (some fun _ seen => (.ok (), seen)) ()).1

end

structure FirstRecordHeader where
  segmentID : Nat
  sequence : Nat
  prevHash : Digest

/-- Why the first header of a segment cannot be used. A repair goes on after a torn one. -/
inductive PeekErr
  | repairable (message : String)
  | other (cause : Err)

def PeekErr.err : PeekErr → Err
  | repairable message => .text ("wal: repairable first record header" ++ message)
  | other cause => cause

def peekFirstHeaderIfPresent (dir : Directory) (name : String) :
    Except PeekErr (Option FirstRecordHeader) := do
  let data ← (dir.readFile name).mapError .other
  match readFull headerSize data with
  | .error .eof => return none
  | .error .unexpectedEOF => throw (.repairable ": truncated header: unexpected EOF")
  | .ok (header, _) =>
    reject (field header 0 4 ≠ magic)
      (.other (.text "wal: bad record magic at segment start"))
    return some {
      segmentID := field header 8 8
      sequence := field header 16 8
      prevHash := Digest.ofBytes (slice 32 32 header) }

structure SegmentChainState where
  trustBoundary : Bool
  haveSegment : Bool
  lastSegment : Nat
  havePrev : Bool
  expectPrev : Digest
  prevSegment : Nat
  lastSequence : Nat

namespace SegmentChainState

def start (trustBoundary : Bool) : SegmentChainState where
  trustBoundary := trustBoundary
  haveSegment := false
  lastSegment := 0
  havePrev := false
  expectPrev := zeroHash
  prevSegment := 0
  lastSequence := 0

variable (chain : SegmentChainState)

def startPrev (dir : Directory) (name : String) : Except PeekErr Digest :=
  if chain.havePrev || !chain.trustBoundary then .ok chain.expectPrev
  else do
    match ← peekFirstHeaderIfPresent dir name with
    | some header => return header.prevHash
    | none => return zeroHash

def repairStartPrev (dir : Directory) (name : String) : Except PeekErr Digest :=
  match chain.startPrev dir name with
  | .error (.repairable message) =>
    if chain.trustBoundary && !chain.havePrev then .ok zeroHash else .error (.repairable message)
  | outcome => outcome

def validateNextSegment (segmentID : Nat) : Outcome Unit :=
  reject (chain.haveSegment = true ∧ segmentID ≠ (chain.lastSegment + 1) % 2 ^ 64)
    (.text s!"wal: segment id gap between {chain.lastSegment} and {segmentID}")

def validateFirstPosition (segmentID recordSegmentID sequence : Nat) (prevHash : Digest) :
    Outcome Unit := do
  reject (recordSegmentID ≠ segmentID)
    (.text s!"wal: segment {segmentID} file reports segment_id {recordSegmentID}")
  reject (sequence = 0) (.text s!"wal: segment {segmentID} starts with zero sequence")
  if chain.havePrev then
    reject (chain.lastSequence = maxUint64 ∨ sequence ≠ chain.lastSequence + 1)
      (.text (s!"wal: sequence discontinuity between segments {chain.prevSegment} and " ++
        s!"{segmentID}: got {sequence} after {chain.lastSequence}"))
  else
    reject ((chain.trustBoundary = false ∨ prevHash = zeroHash) ∧ sequence ≠ 1)
      (.text s!"wal: first segment {segmentID} starts at sequence {sequence}, want 1")

def validateFirstRecord (segmentID : Nat) (record : Record) : Outcome Unit :=
  chain.validateFirstPosition segmentID record.position.segmentID record.position.sequence
    record.prevHash

def accept (segmentID : Nat) (state : ScanState) : Outcome SegmentChainState := do
  chain.validateNextSegment segmentID
  let chain := { chain with haveSegment := true, lastSegment := segmentID }
  if state.records = 0 then return chain
  else
    chain.validateFirstPosition segmentID state.segmentID state.firstSequence state.firstPrev
    reject (chain.havePrev = true ∧ state.firstPrev ≠ chain.expectPrev)
      (.text s!"wal: hash chain break between segments {chain.prevSegment} and {segmentID}")
    return { chain with
      havePrev := true
      expectPrev := state.lastHash
      prevSegment := segmentID
      lastSequence := state.lastSequence }

end SegmentChainState

end TrustDB.Wal
