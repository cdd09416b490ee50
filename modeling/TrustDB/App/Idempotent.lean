import TrustDB.App.Steps

/-!
Idempotent submission over whole runs. A restart rebuilds the index from the log, so that the
invariant holds after every operation: a slot is appended for once, and a call that comes after
that gets the response of that append.
-/

namespace TrustDB.App

open CryptoSuite TrustCrypto Model Keystore Idempotency List Option

theorem Same.mono {exact weaker : Prop} {record accepted claimHash item}
    (same : Same exact record accepted claimHash item) (implies : weaker → exact) :
    Same weaker record accepted claimHash item :=
  ⟨same.record, same.claimHash, fun holds => same.accepted (implies holds)⟩

theorem Subject.slot_ne_empty {subject : Subject} (plain : subject.Plain) : subject.slot ≠ "" := by
  rw [← toList_ne_nil]
  cases subject with
  | keyed identity =>
    rw [slot, idempotencyKey_toList plain.1]
    exact ne_nil_of_mem (nul_mem_join _ _ _)
  | unkeyed recordID =>
    rw [slot, recordIDKey, if_neg plain.1]
    simp [String.toList_append]

section

variable {exact : Prop} {wal : List Logged} {published : Subject → Bool} {index : IdempotencyIndex} {key : String}
  {record : ServerRecord} {accepted : AcceptedReceipt} {claimHash : Bytes}

theorem spares_restore : index.Spares key (index.restore key record accepted claimHash).2 := by
  unfold IdempotencyIndex.restore
  split
  · exact IdempotencyIndex.spares_refl key
  · split
    · dsimp only
      split
      · exact IdempotencyIndex.spares_put
      · exact IdempotencyIndex.spares_refl key
    · exact IdempotencyIndex.spares_put

theorem lookup_restore (filled : key ≠ "") :
    (index.restore key record accepted claimHash).2.lookup key ≠ none := by
  unfold IdempotencyIndex.restore
  rw [if_neg filled]
  split
  · rename_i existing found
    dsimp only
    split
    · rw [IdempotencyIndex.lookup_put]
      exact some_ne_none _
    · change index.entries.lookup key ≠ none
      rw [found]
      exact some_ne_none _
  · rw [IdempotencyIndex.lookup_put]
    exact some_ne_none _

theorem IndexOk.restore (ok : IndexOk exact published wal index)
    (fits : ∀ subject, subject.Plain → subject.slot = key → ∀ identity, subject = .keyed identity →
      Responds exact wal subject record accepted claimHash) :
    IndexOk exact published wal (index.restore key record accepted claimHash).2 := by
  unfold IdempotencyIndex.restore
  split
  · exact ok
  · split
    · rename_i existing found
      dsimp only
      split
      · exact ok.put fun subject plain same => (ok subject existing plain (same ▸ found)).response
      · exact ok
    · exact ok.put fits

end

section

variable {run : Runtime} {e : LocalEngine} {exact : Prop} {system : System} {wal : List Logged}

theorem restoreAll_keeps (reads : run.payloads.RoundTrips) (signs : exact → e.serverSigner.Deterministic)
    {keys : Option Registry} {draw : Nat} {rest : List Logged} {index last : IdempotencyIndex}
    {items found : List ReplayedAccepted}
    (origin : ∀ logged ∈ wal, Origin run e logged ∧ logged.2.subject.Plain)
    (inLog : ∀ logged ∈ rest, logged ∈ wal) (ok : IndexOk exact system.published wal index)
    (live : ∀ item ∈ items, Responds exact wal item.subject item.record item.accepted item.record.claimHash)
    (restored : system.restoreAll run { e with clientKeys := keys } draw rest (index, items) = some (last, found)) :
    IndexOk exact system.published wal last ∧
      (∀ item ∈ found, Responds exact wal item.subject item.record item.accepted item.record.claimHash) ∧
      ∀ logged ∈ wal, Kept system.published index [] logged ∨ logged ∈ rest → Kept system.published last [] logged := by
  induction rest generalizing index items with
  | nil =>
    cases restored
    exact ⟨ok, live, fun _ _ kept => by simpa using kept⟩
  | cons logged rest ih =>
    simp only [System.restoreAll] at restored
    obtain ⟨item, replayed, restored⟩ := bind_eq_some_iff.mp restored
    have member := inLog logged mem_cons_self
    have behind : ∀ other ∈ rest, other ∈ wal := fun other among => inLog other (mem_cons_of_mem _ among)
    obtain ⟨signed, rebuilt⟩ := (origin logged member).1.replay reads (Result.toOption_eq_some.mp replayed)
    have same := rebuilt.mono signs
    have subject : logged.2.subject = item.subject := by
      rw [ReplayedAccepted.subject, ReplayedAccepted.subject, signed, same.record]
    have itemPlain : item.subject.Plain := subject ▸ (origin logged member).2
    have okNext : IndexOk exact system.published wal
        (index.restore item.subject.slot item.record item.accepted item.record.claimHash).2 := by
      refine ok.restore fun other otherPlain sameSlot _ _ => ⟨logged, member, ?_, same⟩
      rw [subject, Subject.slot_injective otherPlain itemPlain sameSlot]
    have filled := Subject.slot_ne_empty itemPlain
    -- Neither the restored entry nor, once it is durable, the ring loses a record.
    have keeps : ∀ other ∈ wal, Kept system.published index [] other ∨ other ∈ logged :: rest →
        Kept system.published (index.restore item.subject.slot item.record item.accepted
          item.record.claimHash).2 [] other ∨ other ∈ rest := by
      rintro other among (kept | kept)
      · exact .inl (kept.update ok (origin other among).2 spares_restore fun _ => lookup_restore filled)
      · rcases mem_cons.mp kept with rfl | later
        · refine .inl (.inl ?_)
          rw [subject]
          exact lookup_restore filled
        · exact .inr later
    split at restored
    · split at restored
      · rename_i known
        have known' : ∀ other : Subject, other.Plain → other.slot = item.subject.slot →
            system.published other = true := fun other otherPlain sameSlot => by
          rwa [Subject.slot_injective otherPlain itemPlain sameSlot]
        obtain ⟨okLast, liveLast, kept⟩ := ih behind (okNext.forgetCommitted known') live restored
        refine ⟨okLast, liveLast, fun other among held => kept other among ?_⟩
        exact (keeps other among held).imp_left fun held =>
          held.update okNext (origin other among).2 spares_forgetCommitted lookup_forgetCommitted
      · refine (ih behind okNext (fun other among => ?_) restored).imp_right fun both =>
          ⟨both.1, fun other among held => both.2 other among (keeps other among held)⟩
        rcases mem_append.mp among with old | new
        · exact live other old
        · rw [mem_singleton.mp new]
          exact ⟨logged, member, subject, same⟩
    · cases restored

theorem Consistent.restart (consistent : Consistent run e exact system) (reads : run.payloads.RoundTrips)
    (signs : exact → e.serverSigner.Deterministic) {keys survives skipped draw next}
    (restarted : system.restart run e keys survives skipped draw = some next) :
    Consistent run e exact next := by
  have store := consistent.store
  have within : (system.wal ++ if survives then system.torn.toList else []).Sublist
      (system.wal ++ system.torn.toList) := by
    refine Sublist.append_left ?_ _
    cases survives
    · exact nil_sublist _
    · exact Sublist.refl _
  have grows : ∀ logged ∈ system.wal, logged ∈ system.wal ++ if survives then system.torn.toList else [] :=
    fun _ => mem_append_left _
  simp only [System.restart] at restarted
  generalize (system.wal ++ if survives then system.torn.toList else []) = wal at within grows restarted
  split at restarted
  · rename_i skippedKnown
    obtain ⟨⟨index, items⟩, restored, same⟩ := bind_eq_some_iff.mp restarted
    cases same
    have origin : ∀ logged ∈ wal, Origin run e logged ∧ logged.2.subject.Plain := fun logged member =>
      store.origin logged (within.subset member)
    have empty : IndexOk exact system.published wal (.newIndex system.index.durableSlots.length) := by
      intro subject entry _ found
      cases found
    obtain ⟨ok, live, read⟩ := restoreAll_keeps reads signs origin (fun _ => mem_of_mem_drop) empty (by simp)
      restored
    refine ⟨⟨?_, ?_, fun torn => absurd rfl torn, live, ?_⟩, ok, by simp, ?_, ?_⟩
    · simpa using origin
    · simpa using store.unique.sublist within
    · intro identity decision stored
      exact (store.decisions identity decision stored).imp_right (·.mono grows)
    · intro logged member
      refine read logged member ?_
      rw [← take_append_drop skipped wal] at member
      refine (mem_append.mp member).imp_left fun below => ?_
      exact .inr (.inl (all_eq_true.mp skippedKnown logged below))
    · intro i j first second one
      simp at one
  · cases restarted

theorem Consistent.start (capacity : Nat) : Consistent run e exact (.start capacity) := by
  refine ⟨⟨?_, ?_, ?_, ?_, ?_⟩, ?_, ?_, ?_, ?_⟩
  case refine_5 =>
    intro identity decision stored
    cases stored
  case refine_6 =>
    intro subject entry _ found
    cases found
  case refine_9 =>
    intro i j first second one
    simp [System.start] at one
  all_goals simp [System.start]

theorem inPhase_eq_some {α : Type} {id : Nat} {select : Phase → Option α} {picked : Call × α} :
    system.inPhase id select = some picked ↔
      system.calls[id]? = some picked.1 ∧ select picked.1.phase = some picked.2 := by
  obtain ⟨call, value⟩ := picked
  simp only [System.inPhase, Option.bind_eq_bind, Option.bind_eq_some_iff, Option.pure_def, Option.some.injEq,
    Prod.mk.injEq]
  constructor
  · rintro ⟨_, found, _, selected, rfl, rfl⟩
    exact ⟨found, selected⟩
  · rintro ⟨found, selected⟩
    exact ⟨call, found, value, selected, rfl, rfl⟩

theorem Consistent.step (consistent : Consistent run e exact system) (reads : run.payloads.RoundTrips)
    (signs : exact → e.serverSigner.Deterministic) (intl : exact → e.cryptoProvider = .intlV1Provider) {op : Op}
    (plain : op.Plain) {next : System} (stepped : system.step run e op = some next) :
    Consistent run e exact next := by
  cases op with
  | submit keys signed now =>
    cases stepped
    exact consistent.submit plain
  | acquire id =>
    obtain ⟨⟨call, _⟩, picked, stepped⟩ := bind_eq_some_iff.mp stepped
    obtain ⟨found, phase⟩ := inPhase_eq_some.mp picked
    exact consistent.acquire found (by cases held : call.phase <;> simp_all) stepped
  | lookup id =>
    obtain ⟨⟨call, _⟩, picked, stepped⟩ := bind_eq_some_iff.mp stepped
    obtain ⟨found, phase⟩ := inPhase_eq_some.mp picked
    cases stepped
    exact consistent.lookup found (by cases held : call.phase <;> simp_all)
  | read id fault =>
    obtain ⟨⟨call, _⟩, picked, stepped⟩ := bind_eq_some_iff.mp stepped
    obtain ⟨found, phase⟩ := inPhase_eq_some.mp picked
    cases stepped
    exact consistent.read intl found (by cases held : call.phase <;> simp_all) fault
  | append id draw position prevHash recordHash fate =>
    obtain ⟨⟨call, _⟩, picked, stepped⟩ := bind_eq_some_iff.mp stepped
    obtain ⟨found, phase⟩ := inPhase_eq_some.mp picked
    exact consistent.append found (by cases held : call.phase <;> simp_all) stepped
  | put id =>
    obtain ⟨⟨call, item⟩, picked, stepped⟩ := bind_eq_some_iff.mp stepped
    obtain ⟨found, phase⟩ := inPhase_eq_some.mp picked
    cases stepped
    exact consistent.put found (by cases held : call.phase <;> simp_all)
  | commit place batchID =>
    obtain ⟨item, found, stepped⟩ := bind_eq_some_iff.mp stepped
    exact consistent.commit (mem_of_getElem? found) stepped
  | mark place =>
    obtain ⟨item, found, stepped⟩ := bind_eq_some_iff.mp stepped
    exact consistent.mark (mem_of_getElem? found) stepped
  | restart keys survives skipped draw => exact consistent.restart reads signs stepped

theorem Consistent.of_run (reads : run.payloads.RoundTrips) (signs : exact → e.serverSigner.Deterministic)
    (intl : exact → e.cryptoProvider = .intlV1Provider) {capacity ops} (plain : ∀ op ∈ ops, op.Plain)
    (ran : Machine.run (System.step run e) (.start capacity) ops = some system) :
    Consistent run e exact system :=
  Machine.run_keeps_allowed (fun _ _ _ allowed consistent stepped => consistent.step reads signs intl allowed stepped)
    ran plain (.start capacity)

def Op.Quiet : Op → Prop
  | .acquire _ => True
  | .lookup _ => True
  | .read _ none => True
  | .put _ => True
  | _ => False

theorem Op.Quiet.plain {op : Op} (quiet : op.Quiet) : op.Plain := by
  cases op with
  | submit keys signed now => cases quiet
  | _ => trivial

def Finishes (run : Runtime) (e : LocalEngine) (system : System) (id : Nat) (call : Call)
    (answer : Answer → Prop) : Prop :=
  ∃ more next given seen, (∀ op ∈ more, op.Quiet) ∧ Machine.run (System.step run e) system more = some next ∧
    answer given ∧ next.wal = system.wal ∧ next.calls = system.calls.set id { call with phase := .done given, seen }

variable {id : Nat} {call : Call} {identity : IdempotencyIdentity} {logged : Logged}

theorem Finishes.cons {op : Op} {between : System} {moved : Call} {answer : Answer → Prop} (quiet : op.Quiet)
    (stepped : system.step run e op = some between) (wal : between.wal = system.wal)
    (calls : between.calls = system.calls.set id moved)
    (same : { moved with phase := call.phase, seen := call.seen } = call)
    (rest : Finishes run e between id moved answer) : Finishes run e system id call answer := by
  obtain ⟨more, next, given, seen, allQuiet, ran, answered, nextWal, nextCalls⟩ := rest
  refine ⟨op :: more, next, given, seen, ?_, Machine.run_cons_eq_some.mpr ⟨between, stepped, ran⟩, answered,
    nextWal.trans wal, ?_⟩
  · intro other member
    rcases mem_cons.mp member with rfl | later
    · exact quiet
    · exact allQuiet other later
  · rw [nextCalls, calls, set_set]
    congr 1
    rw [← same]

theorem Finishes.one {op next given} {answer : Answer → Prop} (quiet : op.Quiet)
    (stepped : system.step run e op = some next) (wal : next.wal = system.wal)
    (calls : next.calls = system.calls.set id { call with phase := .done given }) (answered : answer given) :
    Finishes run e system id call answer :=
  ⟨[op], next, given, call.seen, by simpa using quiet, Machine.run_cons_eq_some.mpr ⟨next, stepped, rfl⟩, answered,
    wal, calls⟩

section

variable (found : system.calls[id]? = some call)
include found

theorem step_acquire (waiting : call.phase = .waiting) (free : system.free call.slot = true) :
    system.step run e (.acquire id) = some (system.setPhase id { call with seen := system.wal.length } .locked) :=
  bind_eq_some_iff.mpr ⟨(call, ()), inPhase_eq_some.mpr ⟨found, by rw [waiting]⟩, if_pos free⟩

theorem step_lookup (locked : call.phase = .locked) :
    system.step run e (.lookup id) = some (system.lookup id call) :=
  bind_eq_some_iff.mpr ⟨(call, ()), inPhase_eq_some.mpr ⟨found, by rw [locked]⟩, rfl⟩

theorem step_read (missed : call.phase = .missed) (fault : Option Err) :
    system.step run e (.read id fault) = some (system.read id call fault) :=
  bind_eq_some_iff.mpr ⟨(call, ()), inPhase_eq_some.mpr ⟨found, by rw [missed]⟩, rfl⟩

theorem step_put {item} (appended : call.phase = .appended item) :
    system.step run e (.put id) = some (system.put id call item) :=
  bind_eq_some_iff.mpr ⟨(call, item), inPhase_eq_some.mpr ⟨found, by rw [appended]⟩, rfl⟩

end

section

variable (consistent : Consistent run e True system)

include consistent

section

variable (intl : e.cryptoProvider = .intlV1Provider) (found : system.calls[id]? = some call)
include intl found

theorem Consistent.finishMissed (missed : call.phase = .missed) (subject : call.subject = .keyed identity)
    (inLog : logged ∈ system.wal) (same : logged.2.subject = call.subject) :
    Finishes run e system id call fun answer => answer = call.settled logged.2 := by
  have known : system.published call.subject = true := by
    by_contra absent
    exact consistent.fresh found missed (by simpa using absent) logged inLog same
  have stored? : (system.decisions.lookup identity).isSome = true := by simpa [System.published, subject] using known
  obtain ⟨decision, stored⟩ := isSome_iff_exists.mp stored?
  obtain ⟨valid, responds⟩ := consistent.store.decisions identity decision stored
  rw [← subject] at responds
  have passes : validateDecision identity decision = .ok () := by
    rw [intl] at valid
    exact valid
  let entry : IdempotencyEntry := {
    record := decision.record
    accepted := decision.accepted
    claimHash := decision.claimHash
    durable := false
    durableEpoch := 0 }
  have stepped : system.step run e (.read id none) = some ({ system with
      index := system.index.putDurableLocked call.slot entry }.setPhase id call
        (.done (call.answer (entry.reply call.validated.claimHash)))) := by
    rw [step_read found missed]
    simp only [System.read, subject, stored, IdempotencyIndex.recallDecision, passes]
    rfl
  exact .one (show Op.Quiet (.read id none) from trivial) stepped rfl rfl
    (@StoreOk.settles _ _ _ _ _ _ _ _ consistent.store call entry _ trivial responds inLog same)

theorem Consistent.finishLocked (locked : call.phase = .locked) (subject : call.subject = .keyed identity)
    (inLog : logged ∈ system.wal) (same : logged.2.subject = call.subject) :
    Finishes run e system id call fun answer => answer = call.settled logged.2 := by
  have ok := consistent.calls call (mem_of_getElem? found)
  have stepped : system.step run e (.lookup id) = some (system.lookup id call) := step_lookup found locked
  have kept := consistent.lookup found locked
  cases stored : system.index.lookup call.slot with
  | some entry =>
    have responds := (consistent.index call.subject entry ok.plain stored).response identity subject
    simp only [System.lookup, stored] at stepped
    exact .one (show Op.Quiet (.lookup id) from trivial) stepped rfl rfl
      (consistent.store.settles trivial responds inLog same)
  | none =>
    simp only [System.lookup, stored] at stepped kept
    refine .cons (show Op.Quiet (.lookup id) from trivial) stepped rfl rfl rfl ?_
    exact kept.finishMissed intl (List.getElem?_set_self (List.getElem?_eq_some_iff.mp found).1) rfl subject
      inLog same

theorem Consistent.finishHolder (holds : call.phase.holds = true) (subject : call.subject = .keyed identity)
    (inLog : logged ∈ system.wal) (same : logged.2.subject = call.subject) :
    Finishes run e system id call fun _ => True := by
  have weaken : (Finishes run e system id call fun answer => answer = call.settled logged.2) →
      Finishes run e system id call fun _ => True := by
    rintro ⟨more, next, given, seen, quiet, ran, _, rest⟩
    exact ⟨more, next, given, seen, quiet, ran, trivial, rest⟩
  cases phase : call.phase with
  | locked => exact weaken (consistent.finishLocked intl found phase subject inLog same)
  | missed => exact weaken (consistent.finishMissed intl found phase subject inLog same)
  | building =>
    exact absurd same ((consistent.calls call (mem_of_getElem? found)).building phase logged inLog)
  | appended item =>
    exact .one (show Op.Quiet (.put id) from trivial) (step_put found phase) rfl rfl trivial
  | waiting => simp [phase, Phase.holds] at holds
  | done answer => simp [phase, Phase.holds] at holds

theorem Consistent.finishWaiting (reads : run.payloads.RoundTrips) (signs : e.serverSigner.Deterministic)
    (waiting : call.phase = .waiting) (free : system.free call.slot = true) (subject : call.subject = .keyed identity)
    (inLog : logged ∈ system.wal) (same : logged.2.subject = call.subject) :
    Finishes run e system id call fun answer => answer = call.settled logged.2 := by
  have stepped := @step_acquire run e system id call found waiting free
  have locked := consistent.step reads (fun _ => signs) (fun _ => intl) (show (Op.acquire id).Plain from trivial)
    stepped
  refine .cons (show Op.Quiet (.acquire id) from trivial) stepped rfl rfl rfl ?_
  exact locked.finishLocked intl (getElem?_set_self (List.getElem?_eq_some_iff.mp found).1) rfl subject inLog same

end

/-- A call that is done has left its slot to the others. -/
theorem Consistent.free_of_done {middle : System} {given seen} (found : system.calls[id]? = some call)
    (holds : call.phase.holds = true)
    (calls : middle.calls = system.calls.set id { call with phase := .done given, seen }) :
    middle.free call.slot = true := by
  have idle : ∀ other ∈ (system.setPhase id { call with seen } (.done given)).calls,
      other.slot = call.slot → other.phase.holds = false := consistent.idle found rfl holds
  refine all_eq_true.mpr fun other member => ?_
  rw [calls] at member
  by_cases same : other.slot = call.slot
  · simp [idle other member same]
  · simp [same]

theorem Consistent.finish (reads : run.payloads.RoundTrips) (signs : e.serverSigner.Deterministic)
    (intl : e.cryptoProvider = .intlV1Provider) (found : system.calls[id]? = some call)
    (unfinished : ∀ answer, call.phase ≠ .done answer) (subject : call.subject = .keyed identity) {position}
    (before : call.phase = .waiting ∨ position < call.seen) (atPosition : system.wal[position]? = some logged)
    (same : logged.2.subject = call.subject) :
    ∃ more next seen, (∀ op ∈ more, op.Quiet) ∧ Machine.run (System.step run e) system more = some next ∧
      next.calls[id]? = some { call with phase := .done (call.settled logged.2), seen } := by
  have inLog := List.mem_of_getElem? atPosition
  have bound := (List.getElem?_eq_some_iff.mp found).1
  have ok := consistent.calls call (List.mem_of_getElem? found)
  have conclude : (Finishes run e system id call fun answer => answer = call.settled logged.2) →
      ∃ more next seen, (∀ op ∈ more, op.Quiet) ∧ Machine.run (System.step run e) system more = some next ∧
        next.calls[id]? = some { call with phase := .done (call.settled logged.2), seen } := by
    rintro ⟨more, next, _, seen, quiet, ran, rfl, _, calls⟩
    exact ⟨more, next, seen, quiet, ran, by rw [calls, getElem?_set_self bound]⟩
  cases phase : call.phase with
  | locked => exact conclude (consistent.finishLocked intl found phase subject inLog same)
  | missed => exact conclude (consistent.finishMissed intl found phase subject inLog same)
  | building => exact absurd same (ok.building phase logged inLog)
  | appended item =>
    -- Its own record would be a second one with the subject.
    obtain ⟨_, itemSubject, place, own, later, atPlace, rfl⟩ := ok.appended item phase
    have before := before.resolve_left (by simp [phase])
    have equal := consistent.store.walPosition_unique atPosition atPlace (same.trans itemSubject.symm)
    omega
  | done answer => exact absurd phase (unfinished answer)
  | waiting =>
    cases free : system.free call.slot with
    | true => exact conclude (consistent.finishWaiting intl found reads signs phase free subject inLog same)
    | false =>
      obtain ⟨holder, among, blocks⟩ := all_eq_false.mp free
      have blocked : holder.phase.holds = true ∧ holder.slot = call.slot := by simpa using blocks
      obtain ⟨holds, slot⟩ := blocked
      obtain ⟨place, holderFound⟩ := mem_iff_getElem?.mp among
      have holderSubject : holder.subject = call.subject :=
        Subject.slot_injective (consistent.calls holder among).plain ok.plain slot
      obtain ⟨more, middle, given, seen, quiet, ran, _, wal, calls⟩ := consistent.finishHolder intl holderFound holds
        (holderSubject.trans subject) inLog (same.trans holderSubject.symm)
      have apart : place ≠ id := by
        rintro rfl
        cases found.symm.trans holderFound
        simp [phase, Phase.holds] at holds
      have kept : Consistent run e True middle :=
        Machine.run_keeps_allowed (fun _ _ _ allowed held stepped =>
          held.step reads (fun _ => signs) (fun _ => intl) allowed stepped) ran
          (fun op member => (quiet op member).plain) consistent
      have middleFound : middle.calls[id]? = some call := by rw [calls, getElem?_set_ne apart, found]
      have unlocked : middle.free call.slot = true := slot ▸ consistent.free_of_done holderFound holds calls
      obtain ⟨further, next, answer, seen, quietly, ranOn, rfl, _, nextCalls⟩ :=
        kept.finishWaiting intl middleFound reads signs phase unlocked subject (wal ▸ inLog) same
      refine ⟨more ++ further, next, seen, ?_, Machine.run_append_eq_some.mpr ⟨middle, ran, ranOn⟩, ?_⟩
      · intro op member
        rcases mem_append.mp member with first | second
        · exact quiet op first
        · exact quietly op second
      · rw [nextCalls, List.getElem?_set_self (List.getElem?_eq_some_iff.mp middleFound).1]

end

theorem Consistent.settled_retry (consistent : Consistent run e exact system) (found : call ∈ system.calls)
    (inLog : logged ∈ system.wal) (retry : logged.2.signed = call.signed) :
    call.settled logged.2 = .ok (logged.2.record, logged.2.accepted, true) := by
  obtain ⟨keys, valid⟩ := (consistent.calls call found).valid
  obtain ⟨validated, _, derives, _, record, _⟩ :=
    (consistent.store.origin logged (mem_append_left _ inLog)).1.parts
  have again := (LocalEngine.validateSigned_derives valid).withKeys
  rw [← retry] at again
  have hash : logged.2.record.claimHash = call.validated.claimHash := by
    rw [record, derives.unique again]
    rfl
  rw [Call.settled, if_pos hash]

end

/-- Under claims whose slots are their own, a key leads to one append at most, under both suites. A call
that took its lock before that append has made it, or failed before. Under the international suite, every
call that takes its lock after the append, whenever it began, is answered by it: an exact retry with the
response of the append, another claim with a conflict. Only a failing store keeps a call from this
answer, and every unfinished one can be brought to it. -/
theorem submit_idempotent {run : Runtime} {e : LocalEngine} {capacity : Nat} {ops : List Op} {system : System}
    (reads : run.payloads.RoundTrips) (plain : ∀ op ∈ ops, op.Plain)
    (ran : Machine.run (System.step run e) (.start capacity) ops = some system) :
    (∀ (identity : IdempotencyIdentity) (i j : Nat) (first second : Logged),
      (system.wal ++ system.torn.toList)[i]? = some first → (system.wal ++ system.torn.toList)[j]? = some second →
        first.2.subject = .keyed identity → second.2.subject = .keyed identity → i = j) ∧
    (∀ call ∈ system.calls, ∀ record accepted, call.phase = .done (.ok (record, accepted, false)) →
      ∃ logged ∈ system.wal, logged.2.subject = call.subject ∧ logged.2.record = record ∧
        logged.2.accepted = accepted) ∧
    (∀ call ∈ system.calls, ∀ (identity : IdempotencyIdentity) (position : Nat) (logged : Logged),
      call.subject = .keyed identity → system.wal[position]? = some logged → logged.2.subject = .keyed identity →
        call.phase ≠ .waiting → call.seen ≤ position → call.Late logged.2) ∧
    (e.cryptoProvider = .intlV1Provider → e.serverSigner.Deterministic →
      ∀ (id : Nat) (call : Call) (identity : IdempotencyIdentity) (position : Nat) (logged : Logged),
        system.calls[id]? = some call → call.subject = .keyed identity →
        call.phase = .waiting ∨ position < call.seen →
        system.wal[position]? = some logged → logged.2.subject = .keyed identity →
          (∀ answer, call.phase = .done answer →
            (∃ cause, answer = .error (.textOf "app: read durable idempotency decision" cause)) ∨
              answer = call.settled logged.2) ∧
          ((∀ answer, call.phase ≠ .done answer) →
            ∃ more next seen, (∀ op ∈ more, op.Quiet) ∧ Machine.run (System.step run e) system more = some next ∧
              next.calls[id]? = some { call with phase := .done (call.settled logged.2), seen }) ∧
          (logged.2.signed = call.signed →
            call.settled logged.2 = .ok (logged.2.record, logged.2.accepted, true)) ∧
          (logged.2.record.claimHash ≠ call.validated.claimHash →
            call.settled logged.2 = .error (.new .alreadyExists ("idempotency_key " ++
              identity.idempotencyKey.quote ++ " already associated with a different claim")))) := by
  have always : Consistent run e False system := .of_run reads (fun no => no.elim) (fun no => no.elim) plain ran
  refine ⟨?_, ?_, ?_, ?_⟩
  · intro identity i j first second one two firstSubject secondSubject
    exact always.store.position_unique one two (firstSubject.trans secondSubject.symm)
  · intro call member record accepted phase
    obtain ⟨_, logged, _, found, rest⟩ := (always.calls call member).made record accepted phase
    exact ⟨logged, mem_of_getElem? found, rest⟩
  · intro call member identity position logged subject atPosition same started later
    exact (always.calls call member).late started identity subject position logged later atPosition
      (same.trans subject.symm)
  · intro intl signs id call identity position logged found subject before atPosition same
    have exactly : Consistent run e True system := .of_run reads (fun _ => signs) (fun _ => intl) plain ran
    have ok := exactly.calls call (mem_of_getElem? found)
    have sameSubject : logged.2.subject = call.subject := same.trans subject.symm
    refine ⟨?_, ?_, ?_, ?_⟩
    · intro answer phase
      have before := before.resolve_left (by simp [phase])
      exact ok.answers answer phase trivial identity subject position logged before atPosition sameSubject
    · intro unfinished
      exact exactly.finish reads signs intl found unfinished subject before atPosition sameSubject
    · intro retry
      exact exactly.settled_retry (mem_of_getElem? found) (mem_of_getElem? atPosition) retry
    · intro different
      rw [Call.settled, if_neg different, conflictErr, subject]

namespace Sample

def asking (id : Nat) (signed : SignedClaim) : List Op :=
  [.submit none signed 100, .acquire id, .lookup id, .read id none]

def committing (signed : SignedClaim) : List Op :=
  asking 0 signed ++ [.append 0 0 position default default .written, .put 0, .commit 0 "batch",
    .restart none false 1 0]

def runs (provider : Provider) (first second : SignedClaim) (ops : List Op) : Option System :=
  Machine.run (System.step (runtime provider first second) (engine provider)) (.start 4) ops

def failures (system : System) : List (Option Err) :=
  system.calls.map fun call => match call.phase with
    | .done answer => Result.failure? answer
    | _ => none

/-- Two calls for one claim; the first appends, and the second has waited for the lock since before. -/
def waiting : List Op :=
  .submit none (claim .intlV1Provider) 100 :: asking 0 (claim .intlV1Provider) ++
    [.append 0 0 position default default .written, .put 0]

theorem waiting_isSome : (runs .intlV1Provider (claim .intlV1Provider) (claim .intlV1Provider) waiting).isSome := by
  decide +kernel

def afterAppend : System := Option.get _ waiting_isSome

theorem waitingCall_isSome : afterAppend.calls[1]?.isSome := by decide +kernel

theorem original_isSome : afterAppend.wal[0]?.isSome := by decide +kernel

def waits : Phase → Bool
  | .waiting => true
  | _ => false

theorem eq_waiting {phase : Phase} (idle : waits phase = true) : phase = .waiting := by
  cases phase with
  | waiting => rfl
  | _ => cases idle

end Sample

open Sample

/-- Under the SM suite, the retry of a committed claim fails once its entry has left the index: the
stored decision is checked against the international suite. -/
theorem retry_fails_under_sm :
    (Sample.runs .cnSMV1Provider (Sample.claim .cnSMV1Provider) (Sample.claim .cnSMV1Provider)
      (Sample.committing (Sample.claim .cnSMV1Provider) ++ Sample.asking 0 (Sample.claim .cnSMV1Provider))).map
        Sample.failures =
      some [some (.wrap .dataLoss "validate durable idempotency decision"
        (.textOf "idempotency: crypto_suite"
          (.text "mixed cryptographic suites: expected INTL_V1, got CN_SM_V1 at index 0")))] := by
  decide +kernel

theorem submit_idempotent_sample : ∃ more next call logged,
    Machine.run (System.step (Sample.runtime .intlV1Provider (Sample.claim .intlV1Provider)
      (Sample.claim .intlV1Provider)) (Sample.engine .intlV1Provider)) Sample.afterAppend more = some next ∧
    Sample.afterAppend.wal[0]? = some logged ∧ next.calls[1]? = some call ∧
      call.phase = .done (.ok (logged.2.record, logged.2.accepted, true)) := by
  have ran := (Option.some_get Sample.waiting_isSome).symm
  have found := (Option.some_get Sample.waitingCall_isSome).symm
  have stored := (Option.some_get Sample.original_isSome).symm
  have idle := Sample.eq_waiting
    (show Sample.waits (Option.get _ Sample.waitingCall_isSome).phase = true by decide +kernel)
  obtain ⟨_, finishes, retried, _⟩ :=
    (submit_idempotent (Sample.payloads_roundTrips _ _) (by decide +kernel) ran).2.2.2 rfl (fun _ _ _ => rfl) 1 _
      { tenantID := "tenant", clientID := "client", idempotencyKey := "key" } 0 _ found (by decide +kernel) (.inl idle)
      stored (by decide +kernel)
  obtain ⟨more, next, _, _, goesOn, answered⟩ := finishes fun answer same => by
    rw [idle] at same
    cases same
  refine ⟨more, next, _, _, goesOn, stored, answered, ?_⟩
  rw [retried (by decide +kernel)]

end TrustDB.App
