import Mathlib
import TrustDB.Codec.Joined
import TrustDB.Idempotency.Decision

/-!
Package `app`, the idempotency index: accepted responses by slot, and a ring of slots that
bounds how many of the durable ones stay in memory.
-/

namespace TrustDB.App

open CryptoSuite TrustCrypto Model Idempotency

structure IdempotencyEntry where
  record : ServerRecord
  accepted : AcceptedReceipt
  claimHash : Bytes
  durable : Bool
  durableEpoch : UInt64
  deriving DecidableEq

structure DurableSlot where
  key : String
  epoch : UInt64
  deriving DecidableEq, Inhabited

structure IdempotencyIndex where
  entries : AList fun _ : String => IdempotencyEntry
  durableSlots : List DurableSlot
  durableNext : Nat
  nextDurableEpoch : UInt64

def idempotencyKey (tenantID clientID idempotencyKey : String) : String :=
  if idempotencyKey = "" then "" else tenantID ++ "\x00" ++ clientID ++ "\x00" ++ idempotencyKey

def recordIDKey (recordID : String) : String :=
  if recordID = "" then "" else "\x01" ++ recordID

/-- What a stored response means for a claim: the response of an exact retry, or a conflict. -/
inductive Reply
  | loaded (record : ServerRecord) (accepted : AcceptedReceipt)
  | conflict

def IdempotencyEntry.reply (entry : IdempotencyEntry) (claimHash : Bytes) : Reply :=
  if entry.claimHash ≠ claimHash then .conflict else .loaded entry.record entry.accepted

namespace IdempotencyIndex

def newIndex (capacity : Nat) : IdempotencyIndex where
  entries := ∅
  durableSlots := List.replicate capacity default
  durableNext := 0
  nextDurableEpoch := 0

variable (index : IdempotencyIndex)

def lookup (key : String) : Option IdempotencyEntry := index.entries.lookup key

def put (key : String) (entry : IdempotencyEntry) : IdempotencyIndex :=
  { index with entries := index.entries.insert key { entry with durable := false, durableEpoch := 0 } }

def evict : AList fun _ : String => IdempotencyEntry :=
  let evicted := index.durableSlots.getD index.durableNext default
  match index.entries.lookup evicted.key with
  | some existing =>
    if evicted.epoch ≠ 0 ∧ existing.durable = true ∧ existing.durableEpoch = evicted.epoch then
      index.entries.erase evicted.key
    else index.entries
  | none => index.entries

def nextEpoch : UInt64 :=
  if index.nextDurableEpoch + 1 = 0 then index.nextDurableEpoch + 2 else index.nextDurableEpoch + 1

def putDurableLocked (key : String) (entry : IdempotencyEntry) : IdempotencyIndex :=
  if index.durableSlots.length = 0 then index
  else {
    entries := index.evict.insert key { entry with durable := true, durableEpoch := index.nextEpoch }
    durableSlots := index.durableSlots.set index.durableNext { key, epoch := index.nextEpoch }
    durableNext := (index.durableNext + 1) % index.durableSlots.length
    nextDurableEpoch := index.nextEpoch }

/-- The part of `RememberDurable` behind a decision that was found. -/
def recallDecision (key : String) (identity : IdempotencyIdentity) (claimHash : Bytes)
    (decision : IdempotencyDecision) : Outcome Reply × IdempotencyIndex :=
  match validateDecision identity decision with
  | .error cause => (.error (.wrap .dataLoss "validate durable idempotency decision" cause), index)
  | .ok _ =>
    let entry : IdempotencyEntry := {
      record := decision.record
      accepted := decision.accepted
      claimHash := decision.claimHash
      durable := false
      durableEpoch := 0 }
    (.ok (entry.reply claimHash), index.putDurableLocked key entry)

/-- The part of `RememberDurableRecord` behind a bundle that was found. -/
def recallBundle (key recordID : String) (claimHash : Bytes) (bundle : ProofBundle) :
    Outcome Reply × IdempotencyIndex :=
  if bundle.recordID ≠ recordID ∨ bundle.serverRecord.recordID ≠ recordID ∨
      bundle.acceptedReceipt.recordID ≠ recordID ∨ bundle.serverRecord.claimHash ≠ claimHash then
    (.error (.new .dataLoss "durable record does not match deterministic record id"), index)
  else
    let entry : IdempotencyEntry := {
      record := bundle.serverRecord
      accepted := bundle.acceptedReceipt
      claimHash := claimHash
      durable := false
      durableEpoch := 0 }
    (.ok (.loaded entry.record entry.accepted), index.putDurableLocked key entry)

def forgetCommitted (key recordID : String) : IdempotencyIndex :=
  if key = "" ∨ recordID = "" then index
  else
    match index.entries.lookup key with
    | some existing =>
      if existing.record.recordID = recordID ∧ existing.durable = false then
        index.putDurableLocked key existing
      else index
    | none => index

def consistent (existing : IdempotencyEntry) (record : ServerRecord) (accepted : AcceptedReceipt)
    (claimHash : Bytes) : Bool :=
  existing.claimHash = claimHash && existing.record.recordID = record.recordID &&
    existing.record.wal = record.wal && existing.accepted.recordID = accepted.recordID &&
    existing.accepted.wal = accepted.wal

def restore (key : String) (record : ServerRecord) (accepted : AcceptedReceipt) (claimHash : Bytes) :
    Bool × IdempotencyIndex :=
  if key = "" then (true, index)
  else
    match index.entries.lookup key with
    | some existing =>
      let agrees := consistent existing record accepted claimHash
      if agrees = true ∧ existing.durable = true then
        (agrees, index.put key existing)
      else (agrees, index)
    | none => (true, index.put key { record, accepted, claimHash, durable := false, durableEpoch := 0 })

/-- Away from `key`, entries are as before or, where they were durable, gone. -/
def Spares (key : String) (next : IdempotencyIndex) : Prop :=
  ∀ other, other ≠ key → next.lookup other = index.lookup other ∨
    (next.lookup other = none ∧ ∃ entry, index.lookup other = some entry ∧ entry.durable = true)

variable {index} {key : String} {entry : IdempotencyEntry}

theorem lookup_put : (index.put key entry).lookup key =
    some { entry with durable := false, durableEpoch := 0 } := AList.lookup_insert _

theorem lookup_put_ne {other} (apart : other ≠ key) :
    (index.put key entry).lookup other = index.lookup other := AList.lookup_insert_ne apart

theorem spares_refl (key : String) : index.Spares key index := fun _ _ => .inl rfl

theorem spares_put : index.Spares key (index.put key entry) := fun _ apart => .inl (lookup_put_ne apart)

theorem evict_lookup (other : String) : index.evict.lookup other = index.lookup other ∨
    (index.evict.lookup other = none ∧ ∃ entry, index.lookup other = some entry ∧ entry.durable = true) := by
  simp only [evict]
  split
  · rename_i existing found
    split
    · rename_i due
      by_cases same : other = (index.durableSlots.getD index.durableNext default).key
      · subst same
        exact .inr ⟨AList.lookup_erase _ _, existing, found, due.2.1⟩
      · exact .inl (AList.lookup_erase_ne same)
    · exact .inl rfl
  · exact .inl rfl

theorem spares_putDurable : index.Spares key (index.putDurableLocked key entry) := by
  intro other apart
  unfold putDurableLocked
  split
  · exact .inl rfl
  · have inserted : (AList.insert key { entry with durable := true, durableEpoch := index.nextEpoch }
        index.evict).lookup other = index.evict.lookup other := AList.lookup_insert_ne apart
    rcases evict_lookup other with same | ⟨gone, was⟩
    · exact .inl (inserted.trans same)
    · exact .inr ⟨inserted.trans gone, was⟩

theorem lookup_putDurable : (index.putDurableLocked key entry).lookup key =
    (if index.durableSlots.length = 0 then index.lookup key
      else some { entry with durable := true, durableEpoch := index.nextEpoch }) := by
  unfold putDurableLocked
  split
  · rfl
  · exact AList.lookup_insert _

end IdempotencyIndex

end TrustDB.App
