import TrustDB.Wal.Replay

/-!
Package `wal`, the repair of a directory: every segment but the last has to be sound, and the
last one is cut behind its last whole record.
-/

namespace TrustDB.Wal

open Result CryptoSuite TrustCrypto Model

structure InspectResult where
  path : String
  records : Nat
  validBytes : Nat
  firstSequence : Nat
  lastSequence : Nat
  segmentID : Nat
  lastHash : Digest

structure RepairResult where
  path : String
  records : Nat
  validBytes : Nat
  originalBytes : Nat
  truncatedBytes : Nat
  repaired : Bool

structure DirRepairResult where
  segments : List InspectResult
  tailRepair : Option RepairResult
  activeSegmentID : Nat

def inspected (id : Nat) (state : ScanState) : InspectResult where
  path := segmentName id
  records := state.records
  validBytes := state.validBytes
  firstSequence := state.firstSequence
  lastSequence := state.lastSequence
  segmentID := id
  lastHash := state.lastHash

def trusterrNonTailBreak (id : Nat) (cause : Err) : Err :=
  .wrap .failedPrecondition (s!"wal: non-tail segment {id} (" ++ segmentName id ++
    ") is corrupt; refusing to repair because truncation would cascade into later segments") cause

section

variable (sums : Sums) (dir : Directory)

def validateDirRecordSuitesBeforeRepair (expected : ID) : SegmentChainState → List Nat → Outcome Unit
  | _, [] => return ()
  | chain, id :: rest => do
    let name := segmentName id
    chain.validateNextSegment id
    let startPrev ← (chain.repairStartPrev dir name).mapError PeekErr.err
    let state ← scanFileFrom sums dir name rest.isEmpty startPrev
    reject (0 < state.records ∧ state.cryptoSuite ≠ expected)
      (.text (s!"wal: segment {id} crypto_suite " ++ state.cryptoSuite ++
        " does not match configured " ++ expected))
    let chain ← chain.accept id state
    validateDirRecordSuitesBeforeRepair expected chain rest

def inspectFront : SegmentChainState → List Nat → Outcome (SegmentChainState × List InspectResult)
  | chain, [] => return (chain, [])
  | chain, id :: rest => do
    let name := segmentName id
    let (chain, state) ← (do
      chain.validateNextSegment id
      let startPrev ← (chain.startPrev dir name).mapError PeekErr.err
      let state ← scanFileFrom sums dir name false startPrev
      let chain ← chain.accept id state
      return (chain, state) : Outcome _).mapError (trusterrNonTailBreak id)
    let (chain, later) ← inspectFront chain rest
    return (chain, inspected id state :: later)

/-- The checks of the last segment that come before anything is changed: the hash that its
first record has to continue. -/
def seedTail (chain : SegmentChainState) (tailID : Nat) : Outcome Digest := do
  let name := segmentName tailID
  (chain.validateNextSegment tailID).mapError (trusterrNonTailBreak tailID)
  (match peekFirstHeaderIfPresent dir name with
    | .ok (some header) =>
      (chain.validateFirstPosition tailID header.segmentID header.sequence header.prevHash).mapError
        (.wrap .failedPrecondition (s!"wal: tail segment {tailID} (" ++ name ++
          ") has invalid position metadata; refusing to mutate it"))
    | _ => .ok () : Outcome Unit)
  (chain.repairStartPrev dir name).mapError fun cause =>
    .textOf s!"wal: seed tail segment {tailID}" cause.err

def repairFileWithOps (name : String) (originalBytes : Nat) (startPrev : Digest) :
    Outcome (RepairResult × Directory) := do
  let state ← scanFileFrom sums dir name true startPrev
  reject (originalBytes < state.validBytes)
    (.text (s!"wal: repair file grew during scan: valid bytes {state.validBytes} exceed original " ++
      s!"bytes {originalBytes}"))
  let truncated := originalBytes - state.validBytes
  let result : RepairResult := {
    path := name
    records := state.records
    validBytes := state.validBytes
    originalBytes := originalBytes
    truncatedBytes := truncated
    repaired := 0 < truncated }
  let data ← (dir.readFile name).mapError (.textOf "wal: open for repair")
  return (result,
    if 0 < truncated then dir.insert name (.file (data.take state.validBytes)) else dir)

def repairDirWithOps : Outcome DirRepairResult × Directory :=
  Result.chain (listSegments dir, dir) fun ids dir =>
    match ids.getLast? with
    | none => (.ok { segments := [], tailRepair := none, activeSegmentID := 0 }, dir)
    | some tailID =>
      let name := segmentName tailID
      let seeded := do
        let (chain, segments) ← inspectFront sums dir (.start (firstAbove ids)) ids.dropLast
        let startPrev ← seedTail dir chain tailID
        let data ← (dir.readFile name).mapError (.textOf "wal: stat tail segment")
        let (tail, repaired) ← repairFileWithOps sums dir name data.length startPrev
        return (chain, segments, startPrev, tail, repaired)
      Result.chain (seeded, dir) fun (chain, segments, startPrev, tail, repaired) _ =>
        let verified := do
          let state ← (scanFileFrom sums repaired name false startPrev).mapError
            (.textOf "wal: verify tail after repair")
          let _ ← (chain.accept tailID state).mapError
            (.textOf "wal: verify tail chain after repair")
          return {
            segments := segments ++ [inspected tailID state]
            tailRepair := some tail
            activeSegmentID := tailID }
        (verified, repaired)

end

def repairDir (env : Env) (dir : Directory) (opts : Options) : Outcome DirRepairResult × Directory :=
  let admitted := do
    let binding ← validateStoredBinding env dir opts
    (do
      let ids ← listSegments dir
      validateDirRecordSuitesBeforeRepair env.sums dir binding.cryptoSuite (.start (firstAbove ids)) ids :
        Outcome Unit).mapError (.wrap .failedPrecondition "wal: repair preflight failed")
  Result.chain (admitted, dir) fun _ dir => repairDirWithOps env.sums dir

end TrustDB.Wal
