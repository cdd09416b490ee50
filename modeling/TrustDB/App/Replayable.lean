import TrustDB.App.Engine

/-!
Replaying an accepted claim under a registry that has moved on. The replay asks for the key as
of the time of receipt, so a later event counts as soon as the time it names is not later.
-/

namespace TrustDB

open Result

namespace App

open CryptoSuite TrustCrypto Model Keystore

/-- `Submit` of a claim that no slot answers: the claim is checked, the log gives it a position,
and the record that goes into the log comes with the response. -/
def LocalEngine.acceptNew (run : Runtime) (e : LocalEngine) (draw : Nat) (signed : SignedClaim) (now : Int)
    (position : WALPosition) (prevHash recordHash : Digest) : Outcome (Wal.Record × ReplayedAccepted) := do
  let validated ← e.validateSigned run signed now
  let payload ← run.payloads.marshal signed
  let (record, accepted) ← e.buildAccepted run draw signed validated position now
  return ({
    cryptoSuite := e.cryptoProvider.suite
    position, unixNano := now, payload, prevHash, recordHash }, { signed, record, accepted })

section

variable {run : Runtime} {e : LocalEngine} {signed : SignedClaim} {receivedAt : Int}

theorem LocalEngine.validateSigned_resolves {validated}
    (accepted : e.validateSigned run signed receivedAt = .ok validated) :
    ∃ key, e.resolveClientKey run signed receivedAt = .ok key := by
  simp only [validateSigned, bind_eq_ok] at accepted
  obtain ⟨_, _, _, _, key, resolved, _⟩ := accepted
  exact ⟨key, resolved⟩

theorem LocalEngine.validateSigned_congr {other : LocalEngine} (provider : other.cryptoProvider = e.cryptoProvider)
    (key : other.resolveClientKey run signed receivedAt = e.resolveClientKey run signed receivedAt) :
    other.validateSigned run signed receivedAt = e.validateSigned run signed receivedAt := by
  simp only [validateSigned, provider, key]

theorem LocalEngine.resolveClientKey_later {registry next later key} (grown : registry.Grown later next)
    (resolved : { e with clientKeys := some registry }.resolveClientKey run signed receivedAt = .ok key)
    (other : PublicKeyDescriptor × String) :
    { e with clientKeys := some next }.resolveClientKey run signed receivedAt = .ok other ↔
      other = key ∧ ∀ event ∈ later, ¬Retires event
        (identity signed.claim.tenantID signed.claim.clientID signed.claim.keyID) receivedAt := by
  simp only [resolveClientKey, bind_eq_ok, mapError_eq_ok, return_eq_ok] at resolved ⊢
  obtain ⟨found, lookup, rest⟩ := resolved
  simp only [grown.lookup lookup, and_assoc, exists_eq_left]
  constructor
  · rintro ⟨spared, again⟩
    obtain ⟨_, valid, rfl⟩ := rest
    obtain ⟨_, _, rfl⟩ := again
    exact ⟨rfl, spared⟩
  · rintro ⟨rfl, spared⟩
    exact ⟨spared, rest⟩

theorem signAccepted_again {primitives : Primitives} {codec : Codec} {provider : Provider} {receipt : AcceptedReceipt}
    {signer : Signer} {first second : Nat} (signs : signer.Deterministic ∨ first = second) :
    Receipt.signAcceptedWithProvider codec primitives provider receipt signer first =
      Receipt.signAcceptedWithProvider codec primitives provider receipt signer second := by
  rcases signs with same | rfl
  · simp only [Receipt.signAcceptedWithProvider, sign, same first second]
  · rfl

end

/-- A claim that was accepted replays to the same response exactly when no later event retires its key
at or before the time of receipt. This is for a signer that signs the same way again; with any other,
the record at least is the same. -/
theorem replay_iff_not_retired {run : Runtime} {e : LocalEngine} {registry next : Registry}
    {calls : List (Command × Outcome (Signature × Bytes))} {draw : Nat} {signed : SignedClaim} {now : Int}
    {position : WALPosition} {prevHash recordHash : Digest} {logged : Wal.Record} {item : ReplayedAccepted}
    (reads : run.payloads.RoundTrips)
    (accepted : { e with clientKeys := some registry }.acceptNew run draw signed now position prevHash recordHash =
      .ok (logged, item))
    (ran : Machine.run (Registry.step run.keys) registry calls = some next) (redraw : Nat) :
    let spared := ∀ event ∈ next.events.drop registry.events.length, ¬Retires event
      (identity signed.claim.tenantID signed.claim.clientID signed.claim.keyID) now
    (e.serverSigner.Deterministic ∨ redraw = draw →
      ({ e with clientKeys := some next }.replayAccepted run redraw logged = .ok item ↔ spared)) ∧
    ∀ again, { e with clientKeys := some next }.replayAccepted run redraw logged = .ok again →
      spared ∧ again.signed = item.signed ∧ again.record = item.record := by
  intro spared
  obtain ⟨later, grown⟩ := Registry.grown_of_run ran
  have events : spared ↔ ∀ event ∈ later, ¬Retires event
      (identity signed.claim.tenantID signed.claim.clientID signed.claim.keyID) now := by
    simp only [spared, grown.events, List.drop_left]
  simp only [LocalEngine.acceptNew, bind_eq_ok, Prod.exists, pure_eq_ok, Except.ok.injEq,
    Prod.mk.injEq, LocalEngine.buildAccepted_eq_ok] at accepted
  obtain ⟨validated, valid, payload, marshalled, record, receipt, ⟨rfl, checked, signedBy⟩, rfl, rfl⟩ := accepted
  obtain ⟨key, resolved⟩ := LocalEngine.validateSigned_resolves valid
  have resolves := LocalEngine.resolveClientKey_later grown resolved
  have sameSuite : requireSame e.cryptoProvider.suite [e.cryptoProvider.suite] = .ok () :=
    requireSame_eq_ok.mpr ⟨e.cryptoProvider.known, by simp⟩
  simp only [LocalEngine.replayAccepted, sameSuite, bind_eq_ok, mapError_eq_ok,
    reads _ _ marshalled, Except.ok.injEq, exists_eq_left', Prod.exists, LocalEngine.buildAccepted_eq_ok,
    pure_eq_ok, true_and, exists_const]
  have revalidates (held : spared) : { e with clientKeys := some next }.validateSigned run signed now =
      .ok validated := by
    rw [← valid]
    apply LocalEngine.validateSigned_congr
    · rfl
    · rw [resolved, (resolves key).mpr ⟨rfl, events.mp held⟩]
  have always : ∀ again, { e with clientKeys := some next }.validateSigned run signed now = .ok again →
      spared ∧ validated = again := by
    intro again revalid
    obtain ⟨other, foundAgain⟩ := LocalEngine.validateSigned_resolves revalid
    have held := events.mpr ((resolves other).mp foundAgain).2
    exact ⟨held, Except.ok.inj ((revalidates held).symm.trans revalid)⟩
  refine ⟨fun signs => ⟨?_, fun held => ?_⟩, ?_⟩
  · rintro ⟨again, revalid, _⟩
    exact (always again revalid).1
  · have resigned := (signAccepted_again signs).trans signedBy
    exact ⟨validated, revalidates held, _, _, ⟨rfl, checked, resigned⟩, rfl⟩
  · rintro _ ⟨again, revalid, _, _, ⟨rfl, _⟩, rfl⟩
    obtain ⟨held, rfl⟩ := always again revalid
    exact ⟨held, rfl, rfl⟩

namespace Sample

def position : WALPosition := { segmentID := 1, offset := 0, sequence := 1 }

def claim (provider : Provider) : SignedClaim := signedClaim provider "tenant" "client" "key"

def stored : Outcome (Signature × Bytes) := .ok (default, [])

def registering (provider : Provider) : Command × Outcome (Signature × Bytes) :=
  (.registerClientKey "tenant" "client" (descriptor provider) (some 10) none, stored)

def revoking (time : Int) : Command × Outcome (Signature × Bytes) :=
  (.revokeClientKey "tenant" "client" "k" time "", stored)

/-- A registration, a submission at time 100 and a command after it, and the replay of the record
that the submission left. -/
def replayed (provider : Provider) (after : List (Command × Outcome (Signature × Bytes))) (redraw : Nat) :
    Option (Outcome (ReplayedAccepted × ReplayedAccepted)) := do
  let run := runtime provider (claim provider) (claim provider)
  let registry ← Machine.run (Registry.step run.keys) (.empty provider.suite) [registering provider]
  let (logged, item) ← ({ engine provider with clientKeys := some registry }.acceptNew run 0 (claim provider)
    100 position default default).toOption
  let next ← Machine.run (Registry.step run.keys) registry after
  return do
    let again ← { engine provider with clientKeys := some next }.replayAccepted run redraw logged
    return (item, again)

def atReceipt : Registry :=
  (Machine.run (Registry.step (keys .intlV1Provider)) (.empty intlV1) [registering .intlV1Provider]).getD
    (.empty intlV1)

def afterwards : Option Registry :=
  Machine.run (Registry.step (keys .intlV1Provider)) atReceipt [revoking 101]

def submission : Outcome (Wal.Record × ReplayedAccepted) :=
  { engine .intlV1Provider with clientKeys := some atReceipt }.acceptNew
    (runtime .intlV1Provider (claim .intlV1Provider) (claim .intlV1Provider)) 0 (claim .intlV1Provider) 100
    position default default

theorem submission_isSome : submission.toOption.isSome := by decide +kernel

theorem afterwards_isSome : afterwards.isSome := by decide +kernel

end Sample

open Sample

/-- A revocation that reaches the registry after a claim was accepted and names an earlier time
makes the replay of the claim fail. Under the SM suite the replayed receipt carries another
signature even when nothing has happened to the key. -/
theorem later_events_break_replay :
    (Sample.replayed .intlV1Provider [Sample.revoking 50] 0).map failure? =
      some (some (.wrap .failedPrecondition "client key is not admissible at claim receipt time"
        (.text "keystore: key status is revoked"))) ∧
    (Sample.replayed .cnSMV1Provider [] 1).map (fun outcome => outcome.toOption.map fun (item, again) =>
      decide (again.record = item.record ∧ again.accepted ≠ item.accepted)) = some (some true) := by
  decide +kernel

theorem replay_iff_not_retired_sample :
    ∃ logged item next, Sample.submission = .ok (logged, item) ∧ Sample.afterwards = some next ∧
      { Sample.engine .intlV1Provider with clientKeys := some next }.replayAccepted
        (Sample.runtime .intlV1Provider (Sample.claim .intlV1Provider) (Sample.claim .intlV1Provider)) 5 logged =
          .ok item := by
  have submitted := toOption_eq_some.mp (Option.some_get Sample.submission_isSome).symm
  have ran := (Option.some_get Sample.afterwards_isSome).symm
  refine ⟨_, _, _, submitted, ran, ?_⟩
  refine ((replay_iff_not_retired (Sample.payloads_roundTrips _ _) submitted ran 5).1 (.inl fun _ _ _ => rfl)).mpr ?_
  decide +kernel

end App

end TrustDB
