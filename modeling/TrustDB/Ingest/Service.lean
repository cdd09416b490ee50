import TrustDB.Batch.Checkpoint
import TrustDB.Machine
import TrustDB.ProofLevel

/-!
Packages `ingest` and `submission`: the bounded queue of jobs, the workers that hand them to the
processor, and the calls that wait for their result or for the end of their context and then
enqueue the new record for batching. Every step is one action of a goroutine; what the processor
and the batch service answer is part of the step.
-/

namespace TrustDB.Ingest

open Model Batch

structure JobResult where
  record : ServerRecord
  accepted : AcceptedReceipt
  idempotent : Bool
  err : Option Err
  deriving Repr, DecidableEq

/-- `submission.Outcome`. -/
structure SubmitOutcome where
  recordID : String
  status : String
  proofLevel : String
  idempotent : Bool
  batchEnqueued : Bool
  batchError : String
  serverRecord : ServerRecord
  acceptedReceipt : AcceptedReceipt
  deriving Repr, DecidableEq

inductive Phase
  | checking
  | offering
  | waiting
  | enqueueing (record : ServerRecord) (accepted : AcceptedReceipt)
  | failed (failure : Err)
  | answered (outcome : SubmitOutcome)
  deriving Repr, DecidableEq

def Phase.Returned : Phase → Prop
  | .failed _ | .answered _ => True
  | .checking | .offering | .waiting | .enqueueing _ _ => False

/-- One call of `submission.Service.Submit`: its context, the result channel of its job, which
holds at most one result, and how far the call has come. -/
structure Call where
  signed : SignedClaim
  canceled : Option Err
  result : Option JobResult
  phase : Phase
  deriving Repr, DecidableEq

structure Options where
  queueSize : Int
  workers : Int
  deriving Repr, DecidableEq

/-- Jobs are named by the index of their call. A busy worker holds a job, and its result once the
processor has returned. `accepted` and `enqueued` keep what the processor newly accepted for a call
and what the call passed to the batch service. -/
structure System where
  capacity : Nat
  workers : Nat
  closed : Bool
  calls : List Call
  queue : List Nat
  busy : List (Nat × Option JobResult)
  accepted : List (Nat × Accepted)
  enqueued : List (Nat × Accepted)
  deriving Repr, DecidableEq

def System.new (options : Options) : System where
  capacity := if options.queueSize ≤ 0 then 1024 else options.queueSize.toNat
  workers := if options.workers ≤ 0 then 1 else options.workers.toNat
  closed := false
  calls := []
  queue := []
  busy := []
  accepted := []
  enqueued := []

inductive Step
  | submit (signed : SignedClaim)
  | cancel (index : Nat) (cause : Err)
  | check (index : Nat)
  | offer (index : Nat)
  | take
  | process (index : Nat) (result : JobResult)
  | deliver (index : Nat)
  | receive (index : Nat)
  | abandon (index : Nat)
  | enqueue (index : Nat) (failure : Option Err)
  | shutdown
  deriving Repr, DecidableEq

def requestCanceled (cause : Err) : Err := .wrap .deadlineExceeded "request context canceled" cause

def newOutcome (record : ServerRecord) (accepted : AcceptedReceipt) (idempotent : Bool) : SubmitOutcome where
  recordID := record.recordID
  status := accepted.status
  proofLevel := ProofLevel.Level.l2.string
  idempotent := idempotent
  batchEnqueued := false
  batchError := ""
  serverRecord := record
  acceptedReceipt := accepted

/-- What `submission.Service.Submit` does with the answer of `ingest.Service.Submit`. -/
def afterIngest (result : JobResult) : Phase :=
  match result.err with
  | some failure => .failed failure
  | none =>
    if result.idempotent then .answered (newOutcome result.record result.accepted true)
    else .enqueueing result.record result.accepted

def afterEnqueue (record : ServerRecord) (accepted : AcceptedReceipt) : Option Err → Phase
  | some failure => .answered { newOutcome record accepted false with batchError := failure.message }
  | none => .answered { newOutcome record accepted false with batchEnqueued := true }

namespace System

def setCall (system : System) (index : Nat) (call : Call) : System :=
  { system with calls := system.calls.set index call }

def atPhase (system : System) (index : Nat) (phase : Phase) : Option Call := do
  let call ← system.calls[index]?
  guard (call.phase = phase)
  return call

/-- The sending half of `ingest.Service.Submit`. -/
def offer (system : System) (index : Nat) (call : Call) : System :=
  if system.closed then
    system.setCall index { call with
      phase := .failed (.new .failedPrecondition "ingest service is shutting down") }
  else if system.queue.length < system.capacity then
    { system.setCall index { call with phase := .waiting } with queue := system.queue ++ [index] }
  else
    system.setCall index { call with phase := .failed (.new .resourceExhausted "ingest queue is full") }

def process (system : System) (index : Nat) (signed : SignedClaim) (result : JobResult) : System :=
  { system with
    busy := system.busy.map fun entry => if entry.1 = index then (index, some result) else entry
    accepted := if result.err = none ∧ result.idempotent = false then
        system.accepted ++ [(index, { signed, record := result.record, accepted := result.accepted })]
      else system.accepted }

def step (system : System) : Step → Option System
  | .submit signed =>
    some { system with calls := system.calls ++ [{ signed, canceled := none, result := none, phase := .checking }] }
  | .cancel index cause => do
    let call ← system.calls[index]?
    guard (call.canceled = none)
    return system.setCall index { call with canceled := some cause }
  | .check index => do
    let call ← system.atPhase index .checking
    return system.setCall index { call with
      phase := call.canceled.elim .offering fun cause => .failed (requestCanceled cause) }
  | .offer index => do
    let call ← system.atPhase index .offering
    return system.offer index call
  | .take =>
    match system.queue with
    | [] => none
    | index :: rest =>
      if system.busy.length < system.workers then
        some { system with queue := rest, busy := system.busy ++ [(index, none)] }
      else none
  | .process index result => do
    let call ← system.calls[index]?
    guard ((index, none) ∈ system.busy)
    return system.process index call.signed result
  | .deliver index => do
    let call ← system.calls[index]?
    let entry ← system.busy.find? fun entry => entry.1 = index
    let result ← entry.2
    return { system.setCall index { call with result := some result } with
      busy := system.busy.filter fun entry => entry.1 ≠ index }
  | .receive index => do
    let call ← system.atPhase index .waiting
    let result ← call.result
    return system.setCall index { call with result := none, phase := afterIngest result }
  | .abandon index => do
    let call ← system.atPhase index .waiting
    let cause ← call.canceled
    return system.setCall index { call with phase := .failed (requestCanceled cause) }
  | .enqueue index failure => do
    let call ← system.calls[index]?
    match call.phase with
    | .enqueueing record accepted =>
      some { system.setCall index { call with phase := afterEnqueue record accepted failure } with
        enqueued := system.enqueued ++ [(index, { signed := call.signed, record, accepted })] }
    | .checking | .offering | .waiting | .failed _ | .answered _ => none
  | .shutdown => some { system with closed := true }

end System

end TrustDB.Ingest
