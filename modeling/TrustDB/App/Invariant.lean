import TrustDB.App.Slots

/-!
The invariant behind idempotent submission, in its parts: what the log and the durable store
hold, what the index holds, and what a call knows in each of its phases. The parts speak of the
components that they depend on, so that a step only has to restore the parts that it touches.

`exact` says that receipts are to agree as well; without it, records and claim hashes are
compared, which do not depend on signatures.
-/

namespace TrustDB.App

open Result CryptoSuite TrustCrypto Model Keystore Idempotency

structure Same (exact : Prop) (record : ServerRecord) (accepted : AcceptedReceipt) (claimHash : Bytes)
    (item : ReplayedAccepted) : Prop where
  record : record = item.record
  claimHash : claimHash = item.record.claimHash
  accepted : exact → accepted = item.accepted

theorem Same.refl (exact : Prop) (item : ReplayedAccepted) :
    Same exact item.record item.accepted item.record.claimHash item :=
  ⟨rfl, rfl, fun _ => rfl⟩

/-- The log has a record of the subject with this response. -/
def Responds (exact : Prop) (wal : List Logged) (subject : Subject) (record : ServerRecord)
    (accepted : AcceptedReceipt) (claimHash : Bytes) : Prop :=
  ∃ logged ∈ wal, logged.2.subject = subject ∧ Same exact record accepted claimHash logged.2

theorem Responds.mono {exact wal grown subject record accepted claimHash}
    (responds : Responds exact wal subject record accepted claimHash) (grows : ∀ logged ∈ wal, logged ∈ grown) :
    Responds exact grown subject record accepted claimHash := by
  obtain ⟨logged, inLog, response⟩ := responds
  exact ⟨logged, grows logged inLog, response⟩

def Origin (run : Runtime) (e : LocalEngine) (logged : Logged) : Prop :=
  ∃ keys draw, { e with clientKeys := keys }.acceptNew run draw logged.2.signed logged.1.unixNano
    logged.1.position logged.1.prevHash logged.1.recordHash = .ok logged

section

variable {run : Runtime} {e : LocalEngine}

theorem LocalEngine.Derives.withKeys {keys signed validated}
    (derives : { e with clientKeys := keys }.Derives run signed validated) : e.Derives run signed validated :=
  ⟨derives.claim, derives.canonical, derives.recordID, derives.signature, derives.claimHash, derives.sigHash,
    derives.keyStatus⟩

theorem Origin.parts {logged} (origin : Origin run e logged) :
    ∃ validated draw, e.Derives run logged.2.signed validated ∧
      run.payloads.marshal logged.2.signed = .ok logged.1.payload ∧
      logged.2.record = e.serverRecord logged.2.signed validated logged.1.position logged.1.unixNano ∧
      Receipt.signAcceptedWithProvider run.codec run.primitives e.cryptoProvider
        (e.unsignedReceipt validated.verified.recordID logged.1.position logged.1.unixNano) e.serverSigner draw =
          .ok logged.2.accepted := by
  obtain ⟨keys, draw, accepted⟩ := origin
  simp only [LocalEngine.acceptNew, bind_eq_ok, Prod.exists, return_eq_ok,
    LocalEngine.buildAccepted_eq_ok] at accepted
  obtain ⟨validated, valid, payload, marshalled, record, receipt, ⟨rfl, _, signedBy⟩, same⟩ := accepted
  obtain ⟨first, second⟩ := Prod.ext_iff.mp same
  refine ⟨validated, draw, (LocalEngine.validateSigned_derives valid).withKeys, ?_, ?_, ?_⟩
  · rw [marshalled, ← first]
  · rw [← second]
    rfl
  · rw [← second]
    exact signedBy

theorem Origin.replay {logged keys draw again} (reads : run.payloads.RoundTrips) (origin : Origin run e logged)
    (replayed : { e with clientKeys := keys }.replayAccepted run draw logged.1 = .ok again) :
    again.signed = logged.2.signed ∧
      Same e.serverSigner.Deterministic again.record again.accepted again.record.claimHash logged.2 := by
  obtain ⟨validated, first, derives, marshalled, record, signedBy⟩ := origin.parts
  simp only [LocalEngine.replayAccepted, bind_eq_ok, Prod.exists, return_eq_ok, Except.ok.injEq,
    reads _ _ marshalled, exists_eq_left', LocalEngine.buildAccepted_eq_ok] at replayed
  obtain ⟨_, _, again, valid, _, receipt, ⟨rfl, _, resigned⟩, rfl⟩ := replayed
  obtain rfl := ((LocalEngine.validateSigned_derives valid).withKeys).unique derives
  refine ⟨rfl, record.symm, congrArg ServerRecord.claimHash record.symm, fun deterministic => ?_⟩
  exact Except.ok.inj (resigned.symm.trans ((signAccepted_again (.inl deterministic)).trans signedBy))

end

structure StoreOk (run : Runtime) (e : LocalEngine) (exact : Prop) (wal : List Logged) (torn : Option Logged)
    (stopped : Bool) (live : List ReplayedAccepted)
    (decisions : AList fun _ : IdempotencyIdentity => IdempotencyDecision) : Prop where
  origin : ∀ logged ∈ wal ++ torn.toList, Origin run e logged ∧ logged.2.subject.Plain
  unique : (wal ++ torn.toList).Pairwise fun first second => first.2.subject ≠ second.2.subject
  stops : torn ≠ none → stopped = true
  live : ∀ item ∈ live, Responds exact wal item.subject item.record item.accepted item.record.claimHash
  decisions : ∀ identity decision, decisions.lookup identity = some decision →
    validateDecisionForSuite e.cryptoProvider.suite identity decision = .ok () ∧
      Responds exact wal (.keyed identity) decision.record decision.accepted decision.claimHash

/-- What may stand at the slot of a subject: durable entries are in the store as well, and the
entry of a keyed claim is the response of its record. -/
structure EntryOk (exact : Prop) (published : Subject → Bool) (wal : List Logged) (subject : Subject)
    (entry : IdempotencyEntry) : Prop where
  durable : entry.durable = true → published subject = true
  response : ∀ identity, subject = .keyed identity →
    Responds exact wal subject entry.record entry.accepted entry.claimHash

def IndexOk (exact : Prop) (published : Subject → Bool) (wal : List Logged) (index : IdempotencyIndex) : Prop :=
  ∀ subject entry, subject.Plain → index.lookup subject.slot = some entry →
    EntryOk exact published wal subject entry

def Phase.missing : Phase → Bool
  | missed => true
  | building => true
  | appended _ => true
  | _ => false

theorem Phase.holds_of_missing {phase : Phase} (missing : phase.missing = true) : phase.holds = true := by
  cases phase <;> first | rfl | cases missing

def Call.settled (call : Call) (item : ReplayedAccepted) : Answer :=
  if item.record.claimHash = call.validated.claimHash then .ok (item.record, item.accepted, true)
  else .error (conflictErr call)

def Expected (call : Call) (item : ReplayedAccepted) (answer : Answer) : Prop :=
  (∃ cause, answer = .error (.textOf "app: read durable idempotency decision" cause)) ∨
    answer = call.settled item

def Call.Settles (exact : Prop) (wal : List Logged) (call : Call) (answer : Answer) : Prop :=
  exact → ∀ identity, call.subject = .keyed identity → ∀ (position : Nat) (logged : Logged),
    position < call.seen → wal[position]? = some logged → logged.2.subject = call.subject →
      Expected call logged.2 answer

/-- What becomes of a call when a record is appended for its key after it has taken the lock: the record
is its own, or the call had failed before. -/
def Call.Late (call : Call) (item : ReplayedAccepted) : Prop :=
  call.phase = .appended item ∨ call.phase = .done (.ok (item.record, item.accepted, false)) ∨
    ∃ err, call.phase = .done (.error err)

structure CallOk (run : Runtime) (e : LocalEngine) (exact : Prop) (wal : List Logged) (index : IdempotencyIndex)
    (call : Call) : Prop where
  plain : call.subject.Plain
  valid : ∃ keys, { e with clientKeys := keys }.validateSigned run call.signed call.now = .ok call.validated
  seen : call.seen ≤ wal.length
  missing : call.phase.missing = true → index.lookup call.slot = none
  building : call.phase = .building → ∀ logged ∈ wal, logged.2.subject ≠ call.subject
  appended : ∀ item, call.phase = .appended item → item.record.claimHash = call.validated.claimHash ∧
    item.subject = call.subject ∧ ∃ (position : Nat) (logged : Logged), call.seen ≤ position ∧
      wal[position]? = some logged ∧ logged.2 = item
  answers : ∀ answer, call.phase = .done answer → call.Settles exact wal answer
  made : ∀ record accepted, call.phase = .done (.ok (record, accepted, false)) →
    ∃ (position : Nat) (logged : Logged), call.seen ≤ position ∧ wal[position]? = some logged ∧
      logged.2.subject = call.subject ∧ logged.2.record = record ∧ logged.2.accepted = accepted
  answered : ∀ record accepted reused, call.phase = .done (.ok (record, accepted, reused)) →
    ∀ identity, call.subject = .keyed identity → ∃ logged ∈ wal, logged.2.subject = call.subject
  late : call.phase ≠ .waiting → ∀ identity, call.subject = .keyed identity → ∀ (position : Nat) (logged : Logged),
    call.seen ≤ position → wal[position]? = some logged → logged.2.subject = call.subject → call.Late logged.2

def Kept (published : Subject → Bool) (index : IdempotencyIndex) (calls : List Call) (logged : Logged) : Prop :=
  index.lookup logged.2.subject.slot ≠ none ∨ published logged.2.subject = true ∨
    ∃ call ∈ calls, call.phase = .appended logged.2

def Exclusive (calls : List Call) : Prop :=
  ∀ (i j : Nat) (first second : Call), calls[i]? = some first → calls[j]? = some second →
    first.phase.holds = true → second.phase.holds = true → first.slot = second.slot → i = j

structure Consistent (run : Runtime) (e : LocalEngine) (exact : Prop) (system : System) : Prop where
  store : StoreOk run e exact system.wal system.torn system.stopped system.live system.decisions
  index : IndexOk exact system.published system.wal system.index
  calls : ∀ call ∈ system.calls, CallOk run e exact system.wal system.index call
  kept : ∀ logged ∈ system.wal, Kept system.published system.index system.calls logged
  exclusive : Exclusive system.calls

section

variable {run : Runtime} {e : LocalEngine} {exact : Prop} {wal : List Logged} {published : Subject → Bool}
  {index next : IdempotencyIndex} {key : String} {entry : IdempotencyEntry} {call : Call} {calls : List Call}

theorem EntryOk.mono {grown more subject} (ok : EntryOk exact published wal subject entry)
    (sub : ∀ logged ∈ wal, logged ∈ grown) (spread : ∀ subject, published subject = true → more subject = true) :
    EntryOk exact more grown subject entry where
  durable := fun durable => spread subject (ok.durable durable)
  response := fun identity same => (ok.response identity same).mono sub

section

variable (ok : IndexOk exact published wal index)
include ok

theorem IndexOk.update (spares : index.Spares key next)
    (changed : ∀ subject entry, subject.Plain → subject.slot = key → next.lookup key = some entry →
      EntryOk exact published wal subject entry) :
    IndexOk exact published wal next := by
  intro subject entry plain found
  by_cases same : subject.slot = key
  · rw [same] at found
    exact changed subject entry plain same found
  · rcases spares _ same with unchanged | ⟨gone, _⟩
    · exact ok subject entry plain (unchanged ▸ found)
    · rw [gone] at found
      cases found

theorem IndexOk.put
    (fits : ∀ subject, subject.Plain → subject.slot = key → ∀ identity, subject = .keyed identity →
      Responds exact wal subject entry.record entry.accepted entry.claimHash) :
    IndexOk exact published wal (index.put key entry) := by
  apply ok.update IdempotencyIndex.spares_put
  intro subject found plain same lookup
  rw [IdempotencyIndex.lookup_put] at lookup
  cases lookup
  exact ⟨by simp, fits subject plain same⟩

theorem IndexOk.putDurable
    (fits : ∀ subject, subject.Plain → subject.slot = key → published subject = true ∧
      ∀ identity, subject = .keyed identity →
        Responds exact wal subject entry.record entry.accepted entry.claimHash) :
    IndexOk exact published wal (index.putDurableLocked key entry) := by
  apply ok.update IdempotencyIndex.spares_putDurable
  intro subject found plain same lookup
  rw [IdempotencyIndex.lookup_putDurable] at lookup
  split at lookup
  · exact ok subject found plain (same ▸ lookup)
  · cases lookup
    exact ⟨fun _ => (fits subject plain same).1, (fits subject plain same).2⟩

end

theorem spares_forgetCommitted {recordID} : index.Spares key (index.forgetCommitted key recordID) := by
  unfold IdempotencyIndex.forgetCommitted
  split
  · exact IdempotencyIndex.spares_refl key
  · split
    · split
      · exact IdempotencyIndex.spares_putDurable
      · exact IdempotencyIndex.spares_refl key
    · exact IdempotencyIndex.spares_refl key

theorem IndexOk.forgetCommitted {recordID} (ok : IndexOk exact published wal index)
    (known : ∀ subject, subject.Plain → subject.slot = key → published subject = true) :
    IndexOk exact published wal (index.forgetCommitted key recordID) := by
  unfold IdempotencyIndex.forgetCommitted
  split
  · exact ok
  · split
    · rename_i existing found
      split
      · refine ok.putDurable fun subject plain same => ⟨known subject plain same, ?_⟩
        exact (ok subject existing plain (same ▸ found)).response
      · exact ok
    · exact ok

theorem lookup_putDurable_ne_none (before : index.lookup key ≠ none) :
    (index.putDurableLocked key entry).lookup key ≠ none := by
  rw [IdempotencyIndex.lookup_putDurable]
  split
  · exact before
  · exact Option.some_ne_none _

theorem lookup_forgetCommitted {recordID} (before : index.lookup key ≠ none) :
    (index.forgetCommitted key recordID).lookup key ≠ none := by
  unfold IdempotencyIndex.forgetCommitted
  split
  · exact before
  · split
    · split
      · exact lookup_putDurable_ne_none before
      · exact before
    · exact before

theorem Kept.update {logged : Logged} (kept : Kept published index calls logged)
    (ok : IndexOk exact published wal index) (plain : logged.2.subject.Plain) (spares : index.Spares key next)
    (stays : index.lookup key ≠ none → next.lookup key ≠ none) : Kept published next calls logged := by
  rcases kept with found | rest
  · by_cases same : logged.2.subject.slot = key
    · exact .inl (same ▸ stays (same ▸ found))
    · rcases spares _ same with unchanged | ⟨_, entry, was, durable⟩
      · exact .inl (unchanged ▸ found)
      · exact .inr (.inl ((ok _ entry plain was).durable durable))
  · exact .inr rest

theorem Kept.mono {logged more others} (kept : Kept published index calls logged)
    (spread : ∀ subject, published subject = true → more subject = true)
    (sub : ∀ call ∈ calls, call.phase = .appended logged.2 → ∃ other ∈ others, other.phase = .appended logged.2) :
    Kept more index others logged := by
  rcases kept with found | stored | ⟨call, member, phase⟩
  · exact .inl found
  · exact .inr (.inl (spread _ stored))
  · exact .inr (.inr (sub call member phase))

theorem CallOk.update (ok : CallOk run e exact wal index call) (spares : index.Spares key next)
    (apart : call.slot = key → call.phase.missing = false) : CallOk run e exact wal next call := by
  refine { ok with missing := fun missing => ?_ }
  have different : call.slot ≠ key := fun same => by simp [apart same] at missing
  rcases spares _ different with unchanged | ⟨gone, _⟩
  · rw [unchanged]
    exact ok.missing missing
  · exact gone

/-- A call at work has seen every record of its key. -/
theorem CallOk.early (ok : CallOk run e exact wal index call)
    (working : call.phase = .locked ∨ call.phase = .missed ∨ call.phase = .building) {identity}
    (subject : call.subject = .keyed identity) {position : Nat} {logged} (found : wal[position]? = some logged)
    (same : logged.2.subject = call.subject) : position < call.seen := by
  by_contra beyond
  have started : call.phase ≠ .waiting := by rcases working with phase | phase | phase <;> simp [phase]
  rcases ok.late started identity subject position logged (by omega) found same with late | late | ⟨_, late⟩
  all_goals rcases working with phase | phase | phase <;> simp [phase] at late

theorem CallOk.grow {logged} (ok : CallOk run e exact wal index call)
    (apart : call.phase.holds = true → logged.2.subject ≠ call.subject)
    (fresh : ∀ old ∈ wal, old.2.subject ≠ logged.2.subject) :
    CallOk run e exact (wal ++ [logged]) index call := { ok with
  seen := ok.seen.trans (by simp)
  building := fun building other member => by
    rcases List.mem_append.mp member with old | new
    · exact ok.building building other old
    · rw [List.mem_singleton.mp new]
      exact apart (by simp [building, Phase.holds])
  appended := fun item phase => by
    obtain ⟨hash, subject, position, other, later, found, same⟩ := ok.appended item phase
    refine ⟨hash, subject, position, other, later, ?_, same⟩
    rw [List.getElem?_append_left (List.getElem?_eq_some_iff.mp found).1]
    exact found
  answers := fun answer phase holds identity subject position other before found => by
    rw [List.getElem?_append_left (before.trans_le ok.seen)] at found
    exact ok.answers answer phase holds identity subject position other before found
  made := fun record accepted phase => by
    obtain ⟨position, other, later, found, rest⟩ := ok.made record accepted phase
    refine ⟨position, other, later, ?_, rest⟩
    rw [List.getElem?_append_left (List.getElem?_eq_some_iff.mp found).1]
    exact found
  answered := fun record accepted reused phase identity subject => by
    obtain ⟨other, inLog, same⟩ := ok.answered record accepted reused phase identity subject
    exact ⟨other, List.mem_append_left _ inLog, same⟩
  late := fun started identity subject position other later found same => by
    rcases Nat.lt_or_ge position wal.length with old | new
    · rw [List.getElem?_append_left old] at found
      exact ok.late started identity subject position other later found same
    · rw [List.getElem?_append_right new] at found
      obtain rfl := List.mem_singleton.mp (List.mem_of_getElem? found)
      cases phase : call.phase with
      | waiting => exact absurd phase started
      | done answer =>
        cases answer with
        | error err => exact .inr (.inr ⟨err, phase⟩)
        | ok given =>
          obtain ⟨old, inLog, sameOld⟩ := ok.answered _ _ _ phase identity subject
          exact absurd (sameOld.trans same.symm) (fresh old inLog)
      | _ => exact absurd same (apart (by simp [phase, Phase.holds])) }

end

end TrustDB.App
