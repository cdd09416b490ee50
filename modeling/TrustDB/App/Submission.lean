import TrustDB.App.Index
import TrustDB.App.Replayable

/-!
Package `app`, concurrent submissions. `Submit` is cut where other calls can run in between: it
checks the claim, takes the lock of its slot, looks the slot up, asks the durable store, appends
to the log, and puts the response into the index. Next to the calls run the batch service, which
publishes committed records and reports them to the index, and restarts, which rebuild the index
from the log. Calls that fail in the checks leave no trace.
-/

namespace TrustDB.App

open CryptoSuite TrustCrypto Model Keystore Idempotency

inductive Subject
  | keyed (identity : IdempotencyIdentity)
  | unkeyed (recordID : String)
  deriving DecidableEq

def Subject.slot : Subject → String
  | keyed identity => idempotencyKey identity.tenantID identity.clientID identity.idempotencyKey
  | unkeyed recordID => recordIDKey recordID

def subjectOf (claim : ClientClaim) (recordID : String) : Subject :=
  if claim.idempotencyKey = "" then .unkeyed recordID else .keyed (identityOf claim)

def ReplayedAccepted.subject (item : ReplayedAccepted) : Subject :=
  subjectOf item.signed.claim item.record.recordID

abbrev Answer := Outcome (ServerRecord × AcceptedReceipt × Bool)

/-- How far a call has come. From `locked` to `appended` it holds the lock of its slot. -/
inductive Phase
  | waiting
  | locked
  | missed
  | building
  | appended (item : ReplayedAccepted)
  | done (answer : Answer)

def Phase.holds : Phase → Bool
  | waiting => false
  | locked => true
  | missed => true
  | building => true
  | appended _ => true
  | done _ => false

/-- A call of `Submit` that has passed the checks. `seen` is the number of records in the log when it
took the lock of its slot, or when it began as long as it waits, for reference only. -/
structure Call where
  signed : SignedClaim
  now : Int
  validated : Validated
  phase : Phase
  seen : Nat

def Call.subject (call : Call) : Subject :=
  subjectOf call.signed.claim call.validated.verified.recordID

def Call.slot (call : Call) : String := call.subject.slot

def conflictErr (call : Call) : Err :=
  .new .alreadyExists (match call.subject with
    | .keyed identity =>
      "idempotency_key " ++ identity.idempotencyKey.quote ++ " already associated with a different claim"
    | .unkeyed recordID => "record_id " ++ recordID.quote ++ " already associated with a different claim")

def Call.answer (call : Call) : Reply → Answer
  | .loaded record accepted => .ok (record, accepted, true)
  | .conflict => .error (conflictErr call)

abbrev Logged := Wal.Record × ReplayedAccepted

/-- `torn` is a record whose append failed after its bytes had reached the file; the log then
refuses every append until it is opened again. `live` are the items that the batch service may
still commit. -/
structure System where
  index : IdempotencyIndex
  wal : List Logged
  torn : Option Logged
  stopped : Bool
  decisions : AList fun _ : IdempotencyIdentity => IdempotencyDecision
  bundles : AList fun _ : String => ProofBundle
  live : List ReplayedAccepted
  calls : List Call

def System.start (capacity : Nat) : System where
  index := .newIndex capacity
  wal := []
  torn := none
  stopped := false
  decisions := ∅
  bundles := ∅
  live := []
  calls := []

inductive Fate
  | written
  | refused (err : Err)
  | broken (err : Err) (landed : Bool)

inductive Op
  | submit (keys : Option Registry) (signed : SignedClaim) (now : Int)
  | acquire (id : Nat)
  | lookup (id : Nat)
  | read (id : Nat) (fault : Option Err)
  | append (id : Nat) (draw : Nat) (position : WALPosition) (prevHash recordHash : Digest) (fate : Fate)
  | put (id : Nat)
  | commit (item : Nat) (batchID : String)
  | mark (item : Nat)
  | restart (keys : Option Registry) (survives : Bool) (skipped : Nat) (draw : Nat)

namespace System

variable (run : Runtime) (e : LocalEngine) (system : System)

def setPhase (id : Nat) (call : Call) (phase : Phase) : System :=
  { system with calls := system.calls.set id { call with phase } }

def free (slot : String) : Bool :=
  system.calls.all fun call => !(call.phase.holds && call.slot = slot)

def submit (keys : Option Registry) (signed : SignedClaim) (now : Int) : System :=
  match { e with clientKeys := keys }.validateSigned run signed now with
  | .error _ => system
  | .ok validated => { system with
      calls := system.calls ++ [{ signed, now, validated, phase := .waiting, seen := system.wal.length }] }

def acquire (id : Nat) (call : Call) : Option System :=
  if system.free call.slot then some (system.setPhase id { call with seen := system.wal.length } .locked) else none

def lookup (id : Nat) (call : Call) : System :=
  match system.index.lookup call.slot with
  | some entry => system.setPhase id call (.done (call.answer (entry.reply call.validated.claimHash)))
  | none => system.setPhase id call .missed

/-- The durable reader's answer, or its failure. Only a claim without a stored response goes on
to be built. -/
def read (id : Nat) (call : Call) (fault : Option Err) : System :=
  let recalled (outcome : Outcome Reply × IdempotencyIndex) : System :=
    { system with index := outcome.2 }.setPhase id call (.done (outcome.1 >>= call.answer))
  match call.subject with
  | .keyed identity =>
    match fault with
    | some cause =>
      system.setPhase id call (.done (.error (.textOf "app: read durable idempotency decision" cause)))
    | none =>
      match system.decisions.lookup identity with
      | some decision =>
        recalled (system.index.recallDecision call.slot identity call.validated.claimHash decision)
      | none => system.setPhase id call .building
  | .unkeyed recordID =>
    match fault with
    | some cause => system.setPhase id call (.done (.error (.textOf "app: read durable record" cause)))
    | none =>
      match system.bundles.lookup recordID with
      | some bundle =>
        recalled (system.index.recallBundle call.slot recordID call.validated.claimHash bundle)
      | none => system.setPhase id call .building

/-- The build callback: the response is made for the position that the log gives, then the
record is written. -/
def append (id : Nat) (call : Call) (draw : Nat) (position : WALPosition) (prevHash recordHash : Digest)
    (fate : Fate) : Option System :=
  let built : Outcome Logged := do
    let payload ← run.payloads.marshal call.signed
    let (record, accepted) ← e.buildAccepted run draw call.signed call.validated position call.now
    return ({
      cryptoSuite := e.cryptoProvider.suite
      position, unixNano := call.now, payload, prevHash, recordHash }, { signed := call.signed, record, accepted })
  match built with
  | .error cause => some (system.setPhase id call (.done (.error cause)))
  | .ok logged =>
    match fate with
    | .refused err => some (system.setPhase id call (.done (.error err)))
    | .written =>
      if system.stopped then none
      else some ({ system with wal := system.wal ++ [logged] }.setPhase id call (.appended logged.2))
    | .broken err landed =>
      if system.stopped then none
      else some ({ system with
        torn := if landed then some logged else none
        stopped := true }.setPhase id call (.done (.error err)))

def put (id : Nat) (call : Call) (item : ReplayedAccepted) : System :=
  { system with
    index := system.index.put call.slot {
      record := item.record
      accepted := item.accepted
      claimHash := call.validated.claimHash
      durable := false
      durableEpoch := 0 }
    live := system.live ++ [item] }.setPhase id call (.done (.ok (item.record, item.accepted, false)))

def inPhase {α : Type} (id : Nat) (select : Phase → Option α) : Option (Call × α) := do
  let call ← system.calls[id]?
  let found ← select call.phase
  return (call, found)

def bundleOf (item : ReplayedAccepted) : ProofBundle := {
  (default : ProofBundle) with
  schemaVersion := schemaProofBundle
  cryptoSuite := item.record.cryptoSuite
  recordID := item.record.recordID
  signedClaim := item.signed
  serverRecord := item.record
  acceptedReceipt := item.accepted }

/-- A committed batch publishes the bundle and, for a keyed claim, its decision. A decision that
differs from a stored one is refused. -/
def commit (item : ReplayedAccepted) (batchID : String) : Option System :=
  let bundles := system.bundles.insert item.record.recordID (bundleOf item)
  match item.subject with
  | .unkeyed _ => some { system with bundles }
  | .keyed identity => do
    let decision ← (buildDecisionWithProvider run.hashes run.codec e.cryptoProvider batchID item.signed
      item.record item.accepted).toOption
    match system.decisions.lookup identity with
    | some existing => if existing = decision then some { system with bundles } else none
    | none => some { system with bundles, decisions := system.decisions.insert identity decision }

def published : Subject → Bool
  | .keyed identity => (system.decisions.lookup identity).isSome
  | .unkeyed recordID => (system.bundles.lookup recordID).isSome

/-- `MarkIdempotencyCommitted` and `MarkRecordCommitted`, which come after publication and take
the lock of the slot. -/
def mark (item : ReplayedAccepted) : Option System :=
  if system.published item.subject && system.free item.subject.slot then
    some { system with
      index := system.index.forgetCommitted item.subject.slot item.record.recordID }
  else none

/-- Replay of the retained records: each is rebuilt and restored; a committed one moves on to the
durable entries, the others go to the batch service. -/
def restoreAll (draw : Nat) : List Logged → IdempotencyIndex × List ReplayedAccepted →
    Option (IdempotencyIndex × List ReplayedAccepted)
  | [], found => some found
  | logged :: rest, (index, items) => do
    let item ← (e.replayAccepted run draw logged.1).toOption
    let (agrees, index) := index.restore item.subject.slot item.record item.accepted item.record.claimHash
    if agrees = true then
      if system.published item.subject then
        restoreAll draw rest (index.forgetCommitted item.subject.slot item.record.recordID, items)
      else restoreAll draw rest (index, items ++ [item])
    else none

/-- The records below the checkpoint are not read again; they are the first `skipped` ones, and all
of them are published. -/
def restart (keys : Option Registry) (survives : Bool) (skipped draw : Nat) : Option System :=
  let wal := system.wal ++ if survives then system.torn.toList else []
  if (wal.take skipped).all fun logged => system.published logged.2.subject then do
    let (index, items) ← system.restoreAll run { e with clientKeys := keys } draw (wal.drop skipped)
      (.newIndex system.index.durableSlots.length, [])
    return { system with index, wal, torn := none, stopped := false, live := items, calls := [] }
  else none

def step : Op → Option System
  | .submit keys signed now => some (system.submit run e keys signed now)
  | .acquire id => do
    let (call, _) ← system.inPhase id fun | .waiting => some () | _ => none
    system.acquire id call
  | .lookup id => do
    let (call, _) ← system.inPhase id fun | .locked => some () | _ => none
    return system.lookup id call
  | .read id fault => do
    let (call, _) ← system.inPhase id fun | .missed => some () | _ => none
    return system.read id call fault
  | .append id draw position prevHash recordHash fate => do
    let (call, _) ← system.inPhase id fun | .building => some () | _ => none
    system.append run e id call draw position prevHash recordHash fate
  | .put id => do
    let (call, item) ← system.inPhase id fun | .appended item => some item | _ => none
    return system.put id call item
  | .commit item batchID => do
    let item ← system.live[item]?
    system.commit run e item batchID
  | .mark item => do
    let item ← system.live[item]?
    system.mark item
  | .restart keys survives skipped draw => system.restart run e keys survives skipped draw

end System

end TrustDB.App
