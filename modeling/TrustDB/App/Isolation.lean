import TrustDB.App.Idempotent

/-!
Separation of tenants: what the slots of the index and the identities of the registry let through
from one triple to another. Where tenant and client ids hold no NUL, nothing.
-/

namespace TrustDB.App

open CryptoSuite TrustCrypto Model Keystore Idempotency

section

variable {run : Runtime} {e : LocalEngine} {exact : Prop} {system : System} {id : Nat} {call : Call}

section

variable (consistent : Consistent run e exact system)
include consistent

theorem Consistent.lookup_misses (found : system.calls[id]? = some call) {identity}
    (subject : call.subject = .keyed identity) (unseen : ∀ logged ∈ system.wal, logged.2.subject ≠ call.subject) :
    system.lookup id call = system.setPhase id call .missed := by
  unfold System.lookup
  split
  · rename_i entry stored
    have plain := (consistent.calls call (List.mem_of_getElem? found)).plain
    obtain ⟨logged, inLog, same, _⟩ := (consistent.index call.subject entry plain stored).response identity subject
    exact absurd same (unseen logged inLog)
  · rfl

theorem Consistent.read_misses {identity} (subject : call.subject = .keyed identity)
    (unseen : ∀ logged ∈ system.wal, logged.2.subject ≠ call.subject) :
    system.read id call none = system.setPhase id call .building := by
  have absent : system.decisions.lookup identity = none := by
    cases stored : system.decisions.lookup identity with
    | none => rfl
    | some decision =>
      obtain ⟨_, logged, inLog, same, _⟩ := consistent.store.decisions identity decision stored
      exact absurd (same.trans subject.symm) (unseen logged inLog)
  simp only [System.read, subject, absent]

theorem Consistent.answered_by_own (found : system.calls[id]? = some call) {identity}
    (subject : call.subject = .keyed identity) {logged} (inLog : logged ∈ system.wal)
    (same : logged.2.subject = call.subject) :
    (system.lookup id call = system.setPhase id call .missed ∨ ∃ accepted,
      system.lookup id call = system.setPhase id call (.done (call.settled { logged.2 with accepted }))) ∧
    ∀ decision, system.decisions.lookup identity = some decision →
      decision.record = logged.2.record ∧ decision.claimHash = logged.2.record.claimHash := by
  refine ⟨?_, fun decision stored => ?_⟩
  · unfold System.lookup
    split
    · rename_i entry stored
      have plain := (consistent.calls call (List.mem_of_getElem? found)).plain
      have responds := (consistent.index call.subject entry plain stored).response identity subject
      exact .inr ⟨entry.accepted, by rw [(consistent.store.same responds inLog same).reply]⟩
    · exact .inl rfl
  · obtain ⟨_, responds⟩ := consistent.store.decisions identity decision stored
    have response := consistent.store.same responds inLog (same.trans subject)
    exact ⟨response.record, response.claimHash⟩

theorem Consistent.blocked_by_own (member : call ∈ system.calls) (blocked : system.free call.slot = false) :
    ∃ other ∈ system.calls, other.phase.holds = true ∧ other.subject = call.subject := by
  obtain ⟨other, among, blocks⟩ := List.all_eq_false.mp blocked
  have held : other.phase.holds = true ∧ other.slot = call.slot := by simpa using blocks
  exact ⟨other, among, held.1, Subject.slot_injective (consistent.calls other among).plain
    (consistent.calls call member).plain held.2⟩

end

end

theorem registered_of_lookup {env : Env} {registry : Registry} (rooted : registry.Rooted)
    (plain : ∀ event ∈ registry.events, NulFree event.tenantID ∧ NulFree event.clientID)
    {tenantID clientID keyID : String} {time : Int} {key : ClientKey}
    (found : registry.lookupClientKeyAt env tenantID clientID keyID time = .ok key) :
    ∃ event ∈ registry.events, (event.type = .register ∨ event.type = .rotate) ∧
      event.tenantID = tenantID ∧ event.clientID = clientID ∧ event.keyID = keyID := by
  obtain ⟨timeline, stored, _⟩ := Registry.lookupClientKeyAt_eq_ok.mp found
  have member := rooted.member _ timeline stored
  have free := plain timeline.registered member
  obtain ⟨tenant, client, key⟩ := identity_unshared_iff.mpr
    ⟨free.1, free.2, rooted.nulFree _ timeline stored⟩ _ _ _ (rooted.id _ timeline stored).symm
  exact ⟨timeline.registered, member, rooted.kind _ timeline stored, tenant.symm, client.symm, key.symm⟩

/-- Exactly the triples without an inner NUL have a slot and an identity of their own. Where
submitted claims and registered keys keep to ids without a NUL, a call goes on to build its record
until one of its own triple is in the log, from then on it is that record that the index and the store
answer with, it waits for calls of its own triple only, and keys are found for the triple that they were
registered for. -/
theorem triples_separate (tenantID clientID : String) :
    (∀ key, key ≠ "" →
      ((∀ tenant client other, other ≠ "" →
        idempotencyKey tenant client other = idempotencyKey tenantID clientID key →
          tenant = tenantID ∧ client = clientID ∧ other = key) ↔
        NulFree tenantID ∧ NulFree clientID ∧ nul ∉ key.toList.dropLast)) ∧
    (∀ keyID,
      ((∀ tenant client other, identity tenant client other = identity tenantID clientID keyID →
          tenant = tenantID ∧ client = clientID ∧ other = keyID) ↔
        NulFree tenantID ∧ NulFree clientID ∧ NulFree keyID)) ∧
    (∀ (run : Runtime) (e : LocalEngine) (capacity : Nat) (ops : List Op) (system : System),
      run.payloads.RoundTrips → (∀ op ∈ ops, op.Plain) →
      Machine.run (System.step run e) (.start capacity) ops = some system →
      ∀ (id : Nat) (call : Call) (identity : IdempotencyIdentity), system.calls[id]? = some call →
        call.subject = .keyed identity →
          ((∀ logged ∈ system.wal, logged.2.subject ≠ .keyed identity) →
            system.lookup id call = system.setPhase id call .missed ∧
            system.read id call none = system.setPhase id call .building) ∧
          (∀ logged ∈ system.wal, logged.2.subject = .keyed identity →
            (system.lookup id call = system.setPhase id call .missed ∨ ∃ accepted,
              system.lookup id call = system.setPhase id call (.done (call.settled { logged.2 with accepted }))) ∧
            ∀ decision, system.decisions.lookup identity = some decision →
              decision.record = logged.2.record ∧ decision.claimHash = logged.2.record.claimHash) ∧
          (system.free call.slot = false → ∃ other ∈ system.calls, other.phase.holds = true ∧
            other.subject = .keyed identity)) ∧
    (∀ (env : Env) (suite : CryptoSuite.ID) (calls : List (Command × Outcome (Signature × Bytes)))
      (registry : Registry), Machine.run (Registry.step env) (.empty suite) calls = some registry →
      (∀ event ∈ registry.events, NulFree event.tenantID ∧ NulFree event.clientID) →
      ∀ keyID time key,
        registry.lookupClientKeyAt env tenantID clientID keyID time = .ok key →
          ∃ event ∈ registry.events, (event.type = .register ∨ event.type = .rotate) ∧
            event.tenantID = tenantID ∧ event.clientID = clientID ∧ event.keyID = keyID) := by
  refine ⟨?_, ?_, ?_, ?_⟩
  · intro key filled
    exact slot_unshared_iff filled
  · intro keyID
    exact identity_unshared_iff
  · intro run e capacity ops system reads plain ran id call identity found subject
    have consistent : Consistent run e False system := .of_run reads (fun no => no.elim) (fun no => no.elim) plain ran
    refine ⟨fun unseen => ?_, fun logged inLog same => ?_, fun blocked => ?_⟩
    · rw [← subject] at unseen
      exact ⟨consistent.lookup_misses found subject unseen, consistent.read_misses subject unseen⟩
    · exact consistent.answered_by_own found subject inLog (same.trans subject.symm)
    · rw [← subject]
      exact consistent.blocked_by_own (List.mem_of_getElem? found) blocked
  · intro env suite calls registry ran plain keyID time key found
    exact registered_of_lookup ((Registry.Rooted.empty suite).run ran) plain found

namespace Sample

def outer : SignedClaim := signedClaim .intlV1Provider "a\x00b" "c" "k"

def inner : SignedClaim := signedClaim .intlV1Provider "a" "b\x00c" "k"

def borrowed : Option (Option (String × String)) := do
  let registry ← Machine.run (Registry.step (keys .intlV1Provider)) (.empty intlV1)
    [(.registerClientKey "a\x00b" "c" (descriptor .intlV1Provider) (some 10) none, stored)]
  return (registry.lookupClientKeyAt (keys .intlV1Provider) "a" "b\x00c" "k" 20).toOption.map fun key =>
    (key.tenantID, key.clientID)

def first : SignedClaim := signedClaim .intlV1Provider "a" "c" "k"

def second : SignedClaim := signedClaim .intlV1Provider "b" "c" "k"

/-- A record of the first triple, and a call of the second. -/
def separate : Option System := runs .intlV1Provider first second
  (asking 0 first ++ [.append 0 0 position default default .written, .put 0, .submit none second 100])

theorem separate_isSome : separate.isSome := by decide +kernel

theorem secondCall_isSome : (separate.get separate_isSome).calls[1]?.isSome := by decide +kernel

def registered : Option Registry := Machine.run (Registry.step (keys .intlV1Provider)) (.empty intlV1)
  [(.registerClientKey "a" "c" (descriptor .intlV1Provider) (some 10) none, stored)]

theorem registered_isSome : registered.isSome := by decide +kernel

theorem registeredKey_isSome : ((registered.get registered_isSome).lookupClientKeyAt (keys .intlV1Provider) "a" "c"
    "k" 20).toOption.isSome := by decide +kernel

end Sample

open Sample

theorem triples_separate_sample :
    (∃ system call, Sample.separate = some system ∧ system.wal ≠ [] ∧ system.calls[1]? = some call ∧
      system.lookup 1 call = system.setPhase 1 call .missed) ∧
    ∃ registry, Sample.registered = some registry ∧ ∃ event ∈ registry.events,
      (event.type = .register ∨ event.type = .rotate) ∧
        event.tenantID = "a" ∧ event.clientID = "c" ∧ event.keyID = "k" := by
  have ran := (Option.some_get Sample.separate_isSome).symm
  have found := (Option.some_get Sample.secondCall_isSome).symm
  have joined := (Option.some_get Sample.registered_isSome).symm
  obtain ⟨_, _, calls, keys⟩ := triples_separate "a" "c"
  refine ⟨⟨_, _, ran, by decide +kernel, found, ?_⟩, _, joined, ?_⟩
  · exact ((calls _ _ 4 _ _ (Sample.payloads_roundTrips _ _) (by decide +kernel) ran 1 _
      { tenantID := "b", clientID := "c", idempotencyKey := "k" } found (by decide +kernel)).1 (by decide +kernel)).1
  · exact keys _ _ _ _ joined (by decide +kernel) "k" 20 _
      (Result.toOption_eq_some.mp (Option.some_get Sample.registeredKey_isSome).symm)

/-- Two triples share a slot and an identity: the second submission is rejected because of the
first, and a key registered for one tenant is handed out for another. -/
theorem triples_shared :
    idempotencyKey "a\x00b" "c" "k" = idempotencyKey "a" "b\x00c" "k" ∧
    identity "a\x00b" "c" "k" = identity "a" "b\x00c" "k" ∧
    (Sample.runs .intlV1Provider Sample.outer Sample.inner
      (Sample.asking 0 Sample.outer ++ [.append 0 0 Sample.position default default .written, .put 0,
        .submit none Sample.inner 100, .acquire 1, .lookup 1])).map
        (fun system => (Sample.failures system).map (Option.map Err.codeOf)) =
      some [none, some .alreadyExists] ∧
    Sample.borrowed = some (some ("a", "b\x00c")) := by
  decide +kernel

end TrustDB.App
