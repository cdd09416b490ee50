import TrustDB.App.Invariant

/-!
Every operation of calls and of the batch service keeps the invariant behind idempotent
submission. One section per kind of change: a call that moves on, an index that changes at one
slot, a log that grows, a store that comes to know more.
-/

namespace TrustDB.App

open CryptoSuite TrustCrypto Model Keystore Idempotency List Option

section

variable {run : Runtime} {e : LocalEngine} {exact : Prop} {wal : List Logged} {torn : Option Logged}
  {stopped : Bool} {live : List ReplayedAccepted}
  {decisions : AList fun _ : IdempotencyIdentity => IdempotencyDecision} {first second : Logged}

section

variable (ok : StoreOk run e exact wal torn stopped live decisions)

include ok

theorem StoreOk.position_unique {i j : Nat} (one : (wal ++ torn.toList)[i]? = some first)
    (two : (wal ++ torn.toList)[j]? = some second) (same : first.2.subject = second.2.subject) : i = j := by
  obtain ⟨iBound, rfl⟩ := List.getElem?_eq_some_iff.mp one
  obtain ⟨jBound, rfl⟩ := List.getElem?_eq_some_iff.mp two
  have apart := List.pairwise_iff_getElem.mp ok.unique
  rcases Nat.lt_trichotomy i j with below | equal | above
  · exact absurd same (apart i j iBound jBound below)
  · exact equal
  · exact absurd same.symm (apart j i jBound iBound above)

theorem StoreOk.walPosition_unique {i j : Nat} (one : wal[i]? = some first) (two : wal[j]? = some second)
    (same : first.2.subject = second.2.subject) : i = j := by
  refine ok.position_unique ?_ ?_ same
  · rw [List.getElem?_append_left (List.getElem?_eq_some_iff.mp one).1]
    exact one
  · rw [List.getElem?_append_left (List.getElem?_eq_some_iff.mp two).1]
    exact two

theorem StoreOk.logged_unique (one : first ∈ wal) (two : second ∈ wal)
    (same : first.2.subject = second.2.subject) : first = second := by
  obtain ⟨i, atI⟩ := mem_iff_getElem?.mp one
  obtain ⟨j, atJ⟩ := mem_iff_getElem?.mp two
  obtain rfl := ok.walPosition_unique atI atJ same
  exact some.inj (atI.symm.trans atJ)

theorem StoreOk.same {subject record accepted claimHash logged}
    (responds : Responds exact wal subject record accepted claimHash) (inLog : logged ∈ wal)
    (same : logged.2.subject = subject) : Same exact record accepted claimHash logged.2 := by
  obtain ⟨other, otherInLog, otherSubject, response⟩ := responds
  obtain rfl : other = logged := ok.logged_unique otherInLog inLog (otherSubject.trans same.symm)
  exact response

omit ok in
theorem Same.reply {call : Call} {entry : IdempotencyEntry} {item}
    (response : Same exact entry.record entry.accepted entry.claimHash item) :
    call.answer (entry.reply call.validated.claimHash) = call.settled { item with accepted := entry.accepted } := by
  rw [IdempotencyEntry.reply, Call.settled, response.claimHash, response.record]
  by_cases equal : item.record.claimHash = call.validated.claimHash
  · simp [equal, Call.answer]
  · simp [equal, Call.answer]

theorem StoreOk.settles {call : Call} {entry : IdempotencyEntry} {logged} (holds : exact)
    (responds : Responds exact wal call.subject entry.record entry.accepted entry.claimHash)
    (inLog : logged ∈ wal) (same : logged.2.subject = call.subject) :
    call.answer (entry.reply call.validated.claimHash) = call.settled logged.2 := by
  have response := ok.same responds inLog same
  rw [response.reply, response.accepted holds]

end

end

section

variable {run : Runtime} {e : LocalEngine} {exact : Prop} {system : System} {id : Nat} {call : Call}
  {phase : Phase} {answer : Answer} {next : System} {item : ReplayedAccepted}

theorem getElem?_setPhase {other place} (found : (system.setPhase id call phase).calls[place]? = some other) :
    (place ≠ id ∧ system.calls[place]? = some other) ∨ (place = id ∧ other = { call with phase }) := by
  change (system.calls.set id { call with phase })[place]? = some other at found
  by_cases same : id = place
  · rw [getElem?_set, if_pos same] at found
    split at found
    · exact .inr ⟨same.symm, (some.inj found).symm⟩
    · cases found
  · rw [getElem?_set_ne same] at found
    exact .inl ⟨Ne.symm same, found⟩

theorem set_phase_cases {other : Call} (member : other ∈ (system.setPhase id call phase).calls) :
    (∃ place, place ≠ id ∧ system.calls[place]? = some other) ∨ other = { call with phase } := by
  obtain ⟨place, found⟩ := mem_iff_getElem?.mp member
  exact (getElem?_setPhase found).imp (⟨place, ·⟩) And.right

theorem mem_setPhase {other place} (apart : place ≠ id) (found : system.calls[place]? = some other) :
    other ∈ (system.setPhase id call phase).calls := by
  apply mem_iff_getElem?.mpr
  refine ⟨place, ?_⟩
  change (system.calls.set id { call with phase })[place]? = some other
  rwa [getElem?_set_ne (Ne.symm apart)]

theorem Kept.setPhase {logged published index old} (kept : Kept published index system.calls logged)
    (found : system.calls[id]? = some old) (elsewhere : old.phase ≠ .appended logged.2) :
    Kept published index (system.setPhase id call phase).calls logged := by
  refine kept.mono (fun _ known => known) fun keeper among keeping => ?_
  obtain ⟨place, keeperFound⟩ := mem_iff_getElem?.mp among
  refine ⟨keeper, mem_setPhase (fun same => elsewhere ?_) keeperFound, keeping⟩
  subst same
  cases found.symm.trans keeperFound
  exact keeping

theorem Exclusive.setPhase {old} (exclusive : Exclusive system.calls) (found : system.calls[id]? = some old)
    (slot : old.slot = call.slot)
    (locks : phase.holds = true → old.phase.holds = true ∨ system.free old.slot = true) :
    Exclusive (system.setPhase id call phase).calls := by
  -- A call elsewhere that holds the slot would have kept this one from taking it.
  have meets : ∀ place other, place ≠ id → system.calls[place]? = some other → other.phase.holds = true →
      phase.holds = true → other.slot ≠ call.slot := by
    intro place other apart other_found holds taken same
    rw [← slot] at same
    rcases locks taken with held | free
    · exact apart (exclusive place id other old other_found found holds held same)
    · have unlocked := List.all_eq_true.mp free other (List.mem_of_getElem? other_found)
      simp [holds, same] at unlocked
  intro i j first second one two firstHolds secondHolds same
  rcases getElem?_setPhase one with ⟨apart, before⟩ | ⟨rfl, rfl⟩
  · rcases getElem?_setPhase two with ⟨_, beside⟩ | ⟨rfl, rfl⟩
    · exact exclusive i j first second before beside firstHolds secondHolds same
    · exact absurd same (meets i first apart before firstHolds secondHolds)
  · rcases getElem?_setPhase two with ⟨apart, before⟩ | ⟨rfl, rfl⟩
    · exact absurd same.symm (meets j second apart before secondHolds firstHolds)
    · rfl

section

variable (consistent : Consistent run e exact system)

include consistent

theorem Consistent.replace {old} (found : system.calls[id]? = some old) (slot : old.slot = call.slot)
    (ok : CallOk run e exact system.wal system.index { call with phase })
    (locks : phase.holds = true → old.phase.holds = true ∨ system.free old.slot = true)
    (notAppended : ∀ item, old.phase ≠ .appended item) :
    Consistent run e exact (system.setPhase id call phase) where
  store := consistent.store
  index := consistent.index
  calls := fun other member => by
    rcases set_phase_cases member with ⟨place, _, old⟩ | rfl
    · exact consistent.calls other (mem_of_getElem? old)
    · exact ok
  kept := fun logged member => (consistent.kept logged member).setPhase found (notAppended _)
  exclusive := consistent.exclusive.setPhase found slot locks

theorem Consistent.idle {old} (found : system.calls[id]? = some old) (slot : old.slot = call.slot)
    (held : old.phase.holds = true) :
    ∀ other ∈ (system.setPhase id call (.done answer)).calls, other.slot = call.slot →
      other.phase.holds = false := by
  intro other member same
  rcases set_phase_cases member with ⟨place, apart, before⟩ | rfl
  · by_contra holds
    exact apart (consistent.exclusive place id other old before found (by simpa using holds) held
      (same.trans slot.symm))
  · rfl

theorem Consistent.reindex {key} {next : IdempotencyIndex} (spares : system.index.Spares key next)
    (ok : IndexOk exact system.published system.wal next)
    (idle : ∀ call ∈ system.calls, call.slot = key → call.phase.holds = false)
    (stays : system.index.lookup key ≠ none → next.lookup key ≠ none) :
    Consistent run e exact { system with index := next } where
  store := consistent.store
  index := ok
  calls := fun call member => (consistent.calls call member).update spares fun same => by
    by_contra missing
    have holds := Phase.holds_of_missing (by simpa using missing)
    simp [idle call member same] at holds
  kept := fun logged member => (consistent.kept logged member).update consistent.index
    (consistent.store.origin logged (mem_append_left _ member)).2 spares stays
  exclusive := consistent.exclusive

theorem Consistent.acquire (found : system.calls[id]? = some call)
    (waiting : call.phase = .waiting) (acquired : system.acquire id call = some next) :
    Consistent run e exact next := by
  unfold System.acquire at acquired
  split at acquired
  · rename_i free
    cases acquired
    have ok := consistent.calls call (mem_of_getElem? found)
    refine consistent.replace found rfl ?_ (fun _ => .inr free) (by simp [waiting])
    refine ⟨ok.plain, ok.valid, le_rfl, by simp [Phase.missing], by simp, by simp, by simp, by simp, by simp, ?_⟩
    intro _ _ _ position logged later found
    exact absurd (List.getElem?_eq_some_iff.mp found).1 (Nat.not_lt.mpr later)
  · cases acquired

end

/-- An answer from a stored response. -/
def Call.Recalls (call : Call) (wal : List Logged) (answer : Answer) : Prop :=
  ∀ record accepted reused, answer = .ok (record, accepted, reused) → reused = true ∧
    ∀ identity, call.subject = .keyed identity → ∃ logged ∈ wal, logged.2.subject = call.subject

theorem Call.recalls_answer {wal} {reply : Reply}
    (known : ∀ identity, call.subject = .keyed identity → ∃ logged ∈ wal, logged.2.subject = call.subject) :
    call.Recalls wal (call.answer reply) := by
  intro record accepted reused same
  refine ⟨?_, known⟩
  cases reply with
  | loaded stored receipt => simp_all [Call.answer]
  | conflict => cases same

theorem CallOk.done {index wal} (ok : CallOk run e exact wal index call)
    (working : call.phase = .locked ∨ call.phase = .missed ∨ call.phase = .building)
    (settles : call.Settles exact wal answer) (recalls : call.Recalls wal answer) :
    CallOk run e exact wal index { call with phase := .done answer } := { ok with
  missing := by simp [Phase.missing]
  building := by simp
  appended := by simp
  answers := fun other phase => by
    obtain rfl := Phase.done.inj phase
    exact settles
  made := fun record accepted phase => absurd (recalls record accepted false (Phase.done.inj phase)).1 (by simp)
  answered := fun record accepted reused phase => (recalls record accepted reused (Phase.done.inj phase)).2
  late := fun _ _ subject _ _ later found same =>
    absurd (ok.early working subject found same) (Nat.not_lt.mpr later) }

section

variable (consistent : Consistent run e exact system)

include consistent

theorem Consistent.lookup (found : system.calls[id]? = some call)
    (locked : call.phase = .locked) : Consistent run e exact (system.lookup id call) := by
  have ok := consistent.calls call (mem_of_getElem? found)
  unfold System.lookup
  split
  · rename_i entry stored
    have responds := (consistent.index call.subject entry ok.plain stored).response
    refine consistent.replace found rfl (ok.done (.inl locked) ?_ (Call.recalls_answer fun identity subject => ?_))
      (by simp [Phase.holds]) (by simp [locked])
    · intro holds identity subject position logged _ atPosition same
      exact .inr (consistent.store.settles holds (responds identity subject) (mem_of_getElem? atPosition) same)
    · obtain ⟨logged, inLog, same, _⟩ := responds identity subject
      exact ⟨logged, inLog, same⟩
  · rename_i absent
    refine consistent.replace found rfl ?_ (fun _ => .inl (by simp [locked, Phase.holds])) (by simp [locked])
    exact ⟨ok.plain, ok.valid, ok.seen, fun _ => absent, by simp, by simp, by simp, by simp, by simp,
      fun _ _ subject _ _ later found same =>
        absurd (ok.early (.inl locked) subject found same) (Nat.not_lt.mpr later)⟩

section

variable (found : system.calls[id]? = some call) (missed : call.phase = .missed)
include found missed

theorem Consistent.fresh (absent : system.published call.subject = false) :
    ∀ logged ∈ system.wal, logged.2.subject ≠ call.subject := by
  intro logged member same
  have ok := consistent.calls call (mem_of_getElem? found)
  rcases consistent.kept logged member with stored | known | ⟨other, among, phase⟩
  · rw [same] at stored
    exact stored (ok.missing (by simp [missed, Phase.missing]))
  · rw [same, absent] at known
    cases known
  · obtain ⟨place, otherFound⟩ := mem_iff_getElem?.mp among
    have subject := ((consistent.calls other among).appended _ phase).2.1
    have place_eq := consistent.exclusive place id other call otherFound found (by simp [phase, Phase.holds])
      (by simp [missed, Phase.holds]) (by rw [Call.slot, Call.slot, ← subject, same])
    subst place_eq
    cases found.symm.trans otherFound
    rw [missed] at phase
    cases phase

theorem Consistent.toBuilding (absent : system.published call.subject = false) :
    Consistent run e exact (system.setPhase id call .building) := by
  have ok := consistent.calls call (mem_of_getElem? found)
  have fresh := consistent.fresh found missed absent
  refine consistent.replace found rfl ?_ (fun _ => .inl (by simp [missed, Phase.holds])) (by simp [missed])
  exact ⟨ok.plain, ok.valid, ok.seen, fun _ => ok.missing (by simp [missed, Phase.missing]),
    fun _ => fresh, by simp, by simp, by simp, by simp,
    fun _ _ _ _ _ _ found same => absurd same (fresh _ (mem_of_getElem? found))⟩

theorem Consistent.recalled {entry} (reply : Reply) (known : system.published call.subject = true)
    (fits : ∀ identity, call.subject = .keyed identity →
      Responds exact system.wal call.subject entry.record entry.accepted entry.claimHash)
    (settles : call.Settles exact system.wal (call.answer reply)) :
    Consistent run e exact ({ system with index := system.index.putDurableLocked call.slot entry }.setPhase id
      call (.done (call.answer reply))) := by
  have ok := consistent.calls call (mem_of_getElem? found)
  have held : call.phase.holds = true := by simp [missed, Phase.holds]
  have recalls : call.Recalls system.wal (call.answer reply) := Call.recalls_answer fun identity subject => by
    obtain ⟨logged, inLog, same, _⟩ := fits identity subject
    exact ⟨logged, inLog, same⟩
  have answered := consistent.replace found rfl (ok.done (.inr (.inl missed)) settles recalls) (by simp [Phase.holds])
    (by simp [missed])
  refine answered.reindex IdempotencyIndex.spares_putDurable ?_ (consistent.idle found rfl held)
    lookup_putDurable_ne_none
  refine consistent.index.putDurable fun subject plain same => ?_
  obtain rfl := Subject.slot_injective plain ok.plain same
  exact ⟨known, fits⟩

end

theorem Consistent.read
    (intl : exact → e.cryptoProvider = .intlV1Provider) (found : system.calls[id]? = some call)
    (missed : call.phase = .missed) (fault : Option Err) : Consistent run e exact (system.read id call fault) := by
  have ok := consistent.calls call (mem_of_getElem? found)
  have finish : ∀ {cause : Err}, (∀ identity, call.subject = .keyed identity → exact →
      ∀ item, Expected call item (.error cause)) →
      Consistent run e exact (system.setPhase id call (.done (.error cause))) := by
    intro cause expected
    refine consistent.replace found rfl (ok.done (.inr (.inl missed)) ?_ (by simp [Call.Recalls]))
      (by simp [Phase.holds]) (by simp [missed])
    intro holds identity subject _ logged _ _ _
    exact expected identity subject holds logged.2
  unfold System.read
  split
  · rename_i identity subject
    split
    · rename_i cause
      exact finish fun _ _ _ _ => .inl ⟨cause, rfl⟩
    · split
      · rename_i decision stored
        obtain ⟨valid, responds⟩ := consistent.store.decisions identity decision stored
        rw [← subject] at responds
        have known : system.published call.subject = true := by simp [System.published, subject, stored]
        simp only [IdempotencyIndex.recallDecision]
        split
        · -- The decision is checked against the international suite only.
          rename_i cause invalid
          refine finish fun _ _ holds _ => ?_
          rw [intl holds] at valid
          rw [show validateDecision identity decision = .ok () from valid] at invalid
          cases invalid
        · refine consistent.recalled found missed _ known (fun _ _ => responds) ?_
          intro holds _ _ position logged _ atPosition same
          exact .inr (consistent.store.settles holds responds (mem_of_getElem? atPosition) same)
      · rename_i absent
        exact consistent.toBuilding found missed (by simp [System.published, subject, absent])
  · rename_i recordID subject
    have notKeyed : ∀ {identity : IdempotencyIdentity}, call.subject ≠ .keyed identity := by simp [subject]
    split
    · exact finish fun _ keyed => absurd keyed notKeyed
    · split
      · rename_i bundle stored
        have known : system.published call.subject = true := by simp [System.published, subject, stored]
        simp only [IdempotencyIndex.recallBundle]
        split
        · exact finish fun _ keyed => absurd keyed notKeyed
        · exact consistent.recalled found missed (.loaded _ _) known (fun _ keyed => absurd keyed notKeyed)
            fun _ _ keyed => absurd keyed notKeyed
      · rename_i absent
        exact consistent.toBuilding found missed (by simp [System.published, subject, absent])

theorem Consistent.failed (found : system.calls[id]? = some call)
    (building : call.phase = .building) (err : Err) :
    Consistent run e exact (system.setPhase id call (.done (.error err))) := by
  have ok := consistent.calls call (mem_of_getElem? found)
  refine consistent.replace found rfl (ok.done (.inr (.inr building)) ?_ (by simp [Call.Recalls]))
    (by simp [Phase.holds]) (by simp [building])
  intro _ _ _ position logged _ atPosition same
  exact absurd same (ok.building building logged (mem_of_getElem? atPosition))

end

theorem Consistent.extend (consistent : Consistent run e exact system) (found : system.calls[id]? = some call)
    (building : call.phase = .building) (running : system.stopped = false) {logged : Logged}
    (origin : Origin run e logged) (subject : logged.2.subject = call.subject) :
    system.torn = none ∧ (∀ other ∈ system.wal ++ [logged], Origin run e other ∧ other.2.subject.Plain) ∧
      (system.wal ++ [logged]).Pairwise fun first second => first.2.subject ≠ second.2.subject := by
  have ok := consistent.calls call (mem_of_getElem? found)
  have whole : system.torn = none := by
    by_contra torn
    simp [consistent.store.stops torn] at running
  refine ⟨whole, ?_, ?_⟩
  · intro other member
    rcases mem_append.mp member with old | new
    · exact consistent.store.origin other (mem_append_left _ old)
    · rw [mem_singleton.mp new]
      exact ⟨origin, subject ▸ ok.plain⟩
  · rw [pairwise_append]
    refine ⟨(pairwise_append.mp consistent.store.unique).1, pairwise_singleton _ _,
      fun other member new isNew => ?_⟩
    rw [mem_singleton.mp isNew, subject]
    exact ok.building building other member

section

variable (consistent : Consistent run e exact system)

include consistent

theorem Consistent.built (member : call ∈ system.calls) {payload record accepted draw position}
    (prevHash recordHash : Digest) (marshalled : run.payloads.marshal call.signed = .ok payload)
    (made : e.buildAccepted run draw call.signed call.validated position call.now = .ok (record, accepted)) :
    Origin run e ({
      cryptoSuite := e.cryptoProvider.suite
      position, unixNano := call.now, payload, prevHash, recordHash },
      { signed := call.signed, record, accepted }) ∧
      record.claimHash = call.validated.claimHash ∧
      (ReplayedAccepted.mk call.signed record accepted).subject = call.subject := by
  obtain ⟨keys, valid⟩ := (consistent.calls call member).valid
  obtain ⟨rfl, _, _⟩ := LocalEngine.buildAccepted_eq_ok.mp made
  refine ⟨⟨keys, draw, ?_⟩, rfl, rfl⟩
  have again : { e with clientKeys := keys }.buildAccepted run draw call.signed call.validated position call.now =
      .ok (e.serverRecord call.signed call.validated position call.now, accepted) := made
  simp [LocalEngine.acceptNew, valid, marshalled, again]

section

variable (found : system.calls[id]? = some call) (building : call.phase = .building)
include found building

theorem Consistent.written (running : system.stopped = false) {logged} (origin : Origin run e logged)
    (hash : logged.2.record.claimHash = call.validated.claimHash) (subject : logged.2.subject = call.subject) :
    Consistent run e exact ({ system with wal := system.wal ++ [logged] }.setPhase id call (.appended logged.2)) := by
  have ok := consistent.calls call (mem_of_getElem? found)
  have held : call.phase.holds = true := by simp [building, Phase.holds]
  obtain ⟨whole, origins, unique⟩ := consistent.extend found building running origin subject
  have grows : ∀ other ∈ system.wal, other ∈ system.wal ++ [logged] := fun _ => mem_append_left _
  constructor
  · refine ⟨by simpa [System.setPhase, whole] using origins, by simpa [System.setPhase, whole] using unique,
      consistent.store.stops, ?_, ?_⟩
    · intro item member
      exact (consistent.store.live item member).mono grows
    · intro identity decision stored
      exact (consistent.store.decisions identity decision stored).imp_right (·.mono grows)
  · intro other entry plain stored
    exact (consistent.index other entry plain stored).mono grows fun _ known => known
  · intro other member
    rcases set_phase_cases member with ⟨place, apart, old⟩ | rfl
    · refine (consistent.calls other (mem_of_getElem? old)).grow (fun holds same => ?_) fun before inLog => ?_
      · refine apart (consistent.exclusive place id other call old found holds held ?_)
        rw [Call.slot, Call.slot, ← same, subject]
      · rw [subject]
        exact ok.building building before inLog
    · refine ⟨ok.plain, ok.valid, ok.seen.trans (by simp [System.setPhase]),
        fun _ => ok.missing (by simp [building, Phase.missing]), by simp, fun item phase => by
          obtain rfl := Phase.appended.inj phase
          exact ⟨hash, subject, system.wal.length, logged, ok.seen, by simp [System.setPhase], rfl⟩, by simp,
        by simp, by simp, fun _ _ _ position other _ atPosition same => ?_⟩
      rcases mem_append.mp (mem_of_getElem? atPosition) with before | new
      · exact absurd same (ok.building building other before)
      · rw [mem_singleton.mp new]
        exact .inl rfl
  · intro other member
    rcases mem_append.mp member with old | new
    · exact (consistent.kept other old).setPhase found (by simp [building])
    · rw [mem_singleton.mp new]
      refine .inr (.inr ⟨{ call with phase := .appended logged.2 }, ?_, rfl⟩)
      exact List.mem_of_getElem? (List.getElem?_set_self (List.getElem?_eq_some_iff.mp found).1)
  · exact consistent.exclusive.setPhase found rfl fun _ => .inl held

theorem Consistent.broken (running : system.stopped = false) {logged} (origin : Origin run e logged)
    (subject : logged.2.subject = call.subject) (err : Err) (landed : Bool) :
    Consistent run e exact ({ system with
      torn := if landed then some logged else none
      stopped := true }.setPhase id call (.done (.error err))) := by
  obtain ⟨_, origins, unique⟩ := consistent.extend found building running origin subject
  have failed := consistent.failed found building err
  have store := consistent.store
  refine ⟨⟨?_, ?_, fun _ => rfl, store.live, store.decisions⟩, failed.index, failed.calls, failed.kept,
    failed.exclusive⟩ <;> cases landed
  · intro other member
    exact origins other (mem_append_left _ (by simpa [System.setPhase] using member))
  · exact origins
  · simpa [System.setPhase] using (pairwise_append.mp unique).1
  · exact unique

theorem Consistent.append {draw position prevHash recordHash fate}
    (appended : system.append run e id call draw position prevHash recordHash fate = some next) :
    Consistent run e exact next := by
  have member := mem_of_getElem? found
  simp only [System.append] at appended
  split at appended
  · cases appended
    exact consistent.failed found building _
  · rename_i logged made
    simp only [Result.bind_eq_ok, Prod.exists, Result.return_eq_ok] at made
    obtain ⟨payload, marshalled, record, accepted, response, rfl⟩ := made
    obtain ⟨origin, hash, subject⟩ := consistent.built member prevHash recordHash marshalled response
    split at appended
    · cases appended
      exact consistent.failed found building _
    · split at appended
      · cases appended
      · rename_i running
        cases appended
        exact consistent.written found building (by simpa using running) origin hash subject
    · split at appended
      · cases appended
      · rename_i running
        cases appended
        exact consistent.broken found building (by simpa using running) origin subject _ _

end

theorem Consistent.put (found : system.calls[id]? = some call) (phase : call.phase = .appended item) :
    Consistent run e exact (system.put id call item) := by
  have ok := consistent.calls call (mem_of_getElem? found)
  have held : call.phase.holds = true := by simp [phase, Phase.holds]
  obtain ⟨hash, subject, place, logged, later, atPlace, rfl⟩ := ok.appended item phase
  have inLog := mem_of_getElem? atPlace
  have store := consistent.store
  have fits : ∀ other : Subject, other.Plain → other.slot = call.slot → other = call.subject :=
    fun other plain same => Subject.slot_injective plain ok.plain same
  constructor
  · refine { store with live := fun other member => ?_ }
    rcases mem_append.mp member with old | new
    · exact store.live other old
    · rw [mem_singleton.mp new]
      exact ⟨logged, inLog, rfl, .refl exact logged.2⟩
  · refine consistent.index.put fun other plain same identity keyed => ⟨logged, inLog, ?_, ?_⟩
    · rw [subject, fits other plain same]
    · exact ⟨rfl, hash.symm, fun _ => rfl⟩
  · intro other member
    rcases set_phase_cases member with ⟨position, apart, old⟩ | rfl
    · refine (consistent.calls other (mem_of_getElem? old)).update IdempotencyIndex.spares_put fun same => ?_
      by_contra missing
      exact apart (consistent.exclusive position id other call old found
        (Phase.holds_of_missing (by simpa using missing)) held same)
    · refine ⟨ok.plain, ok.valid, ok.seen, by simp [Phase.missing], by simp, by simp, ?_, ?_,
        fun _ _ _ _ _ _ => ⟨logged, inLog, subject⟩, ?_⟩
      · -- The record is the call's own, so none of those before it has the subject.
        intro _ _ _ _ _ position other before atPosition same
        have equal := store.walPosition_unique atPosition atPlace (same.trans subject.symm)
        change position < call.seen at before
        omega
      · intro record accepted phase
        obtain ⟨rfl, rfl, _⟩ : logged.2.record = record ∧ logged.2.accepted = accepted ∧ false = false := by
          simpa using phase
        exact ⟨place, logged, later, atPlace, subject, rfl, rfl⟩
      · intro _ _ _ position other _ atPosition same
        obtain rfl := store.logged_unique (mem_of_getElem? atPosition) inLog (same.trans subject.symm)
        exact .inr (.inl rfl)
  · intro other member
    by_cases same : other.2.subject.slot = call.slot
    · refine .inl ?_
      change (system.index.put call.slot _).lookup other.2.subject.slot ≠ none
      rw [same, IdempotencyIndex.lookup_put]
      exact some_ne_none _
    · have plain := (store.origin other (mem_append_left _ member)).2
      refine Kept.setPhase ((consistent.kept other member).update consistent.index plain IdempotencyIndex.spares_put
        fun _ => ?_) found fun keeping => same ?_
      · change (system.index.put call.slot _).lookup call.slot ≠ none
        rw [IdempotencyIndex.lookup_put]
        exact some_ne_none _
      · rw [Call.slot, ← (ok.appended _ keeping).2.1]
  · exact consistent.exclusive.setPhase found rfl (by simp [Phase.holds])

theorem Consistent.publish {decisions bundles}
    (store : StoreOk run e exact system.wal system.torn system.stopped system.live decisions)
    (spread : ∀ subject, system.published subject = true →
      { system with decisions, bundles }.published subject = true) :
    Consistent run e exact { system with decisions, bundles } where
  store := store
  index := fun subject entry plain found =>
    (consistent.index subject entry plain found).mono (fun _ member => member) spread
  calls := consistent.calls
  kept := fun logged member => (consistent.kept logged member).mono spread
    fun call among phase => ⟨call, among, phase⟩
  exclusive := consistent.exclusive

end

theorem isSome_lookup_insert {α : Type} [DecidableEq α] {β : Type} {entries : AList fun _ : α => β} {key other : α}
    {value : β} (known : (entries.lookup other).isSome = true) :
    ((entries.insert key value).lookup other).isSome = true := by
  by_cases same : other = key
  · subst same
    simp
  · rwa [AList.lookup_insert_ne same]

theorem Consistent.commit (consistent : Consistent run e exact system)
    (member : item ∈ system.live) {batchID : String}
    (committed : system.commit run e item batchID = some next) : Consistent run e exact next := by
  have store := consistent.store
  have bundled : Consistent run e exact
      { system with bundles := system.bundles.insert item.record.recordID (System.bundleOf item) } := by
    refine consistent.publish store fun subject known => ?_
    cases subject with
    | keyed identity => exact known
    | unkeyed recordID => exact isSome_lookup_insert known
  unfold System.commit at committed
  split at committed
  · cases committed
    exact bundled
  · rename_i identity subject
    obtain ⟨decision, built, committed⟩ := bind_eq_some_iff.mp committed
    obtain ⟨sameRecord, sameAccepted, sameHash, _, valid⟩ := buildDecision_eq_ok (Result.toOption_eq_some.mp built)
    split at committed
    · split at committed
      · cases committed
        exact bundled
      · cases committed
    · rename_i absent
      cases committed
      refine bundled.publish { store with decisions := fun other found stored => ?_ } ?_
      · by_cases same : other = identity
        · subst same
          rw [AList.lookup_insert] at stored
          cases stored
          have named : identityOf item.signed.claim = other := by
            rw [ReplayedAccepted.subject, subjectOf] at subject
            split at subject
            · cases subject
            · exact Subject.keyed.inj subject
          refine ⟨named ▸ valid, ?_⟩
          rw [sameRecord, sameAccepted, sameHash, ← subject]
          exact store.live item member
        · rw [AList.lookup_insert_ne same] at stored
          exact store.decisions other found stored
      · intro other known
        cases other with
        | keyed other => exact isSome_lookup_insert known
        | unkeyed recordID => exact known

theorem Consistent.mark (consistent : Consistent run e exact system)
    (member : item ∈ system.live) (marked : system.mark item = some next) :
    Consistent run e exact next := by
  unfold System.mark at marked
  split at marked
  · rename_i due
    obtain ⟨known, free⟩ := Bool.and_eq_true_iff.mp due
    cases marked
    obtain ⟨logged, inLog, subject, _⟩ := consistent.store.live item member
    have plain : item.subject.Plain := subject ▸ (consistent.store.origin logged (mem_append_left _ inLog)).2
    refine consistent.reindex spares_forgetCommitted ?_ ?_ lookup_forgetCommitted
    · refine consistent.index.forgetCommitted fun other otherPlain same => ?_
      rwa [Subject.slot_injective otherPlain plain same]
    · intro call among same
      have unlocked := all_eq_true.mp free call among
      simpa [same] using unlocked
  · cases marked

def Op.Plain : Op → Prop
  | .submit _ signed _ =>
    signed.claim.idempotencyKey ≠ "" → NulFree signed.claim.tenantID ∧ NulFree signed.claim.clientID
  | _ => True

instance (op : Op) : Decidable op.Plain := by
  cases op <;> unfold Op.Plain <;> infer_instance

theorem Consistent.submit (consistent : Consistent run e exact system) {keys signed now}
    (plain : (Op.submit keys signed now).Plain) :
    Consistent run e exact (system.submit run e keys signed now) := by
  unfold System.submit
  split
  · exact consistent
  · rename_i validated valid
    have derives := LocalEngine.validateSigned_derives valid
    have fresh : CallOk run e exact system.wal system.index
        { signed, now, validated, phase := .waiting, seen := system.wal.length } := by
      refine ⟨?_, ⟨keys, valid⟩, le_rfl, by simp [Phase.missing], by simp, by simp, by simp, by simp, by simp,
        fun started => absurd rfl started⟩
      change (subjectOf signed.claim validated.verified.recordID).Plain
      unfold subjectOf
      split
      · exact recordID_plain derives.recordID
      · rename_i filled
        exact ⟨filled, plain filled⟩
    refine ⟨consistent.store, consistent.index, ?_, ?_, ?_⟩
    · intro call member
      rcases mem_append.mp member with old | new
      · exact consistent.calls call old
      · rw [mem_singleton.mp new]
        exact fresh
    · intro logged member
      exact (consistent.kept logged member).mono (fun _ known => known)
        fun call among phase => ⟨call, mem_append_left _ among, phase⟩
    · -- The new call is behind all others and holds nothing.
      have older : ∀ (place : Nat) (call : Call), call.phase.holds = true →
          (system.calls ++ [{ signed, now, validated, phase := .waiting, seen := system.wal.length }])[place]? =
            some call → system.calls[place]? = some call := by
        intro place call holds found
        rcases Nat.lt_or_ge place system.calls.length with below | beyond
        · rwa [getElem?_append_left below] at found
        · rw [getElem?_append_right beyond] at found
          obtain rfl := mem_singleton.mp (mem_of_getElem? found)
          cases holds
      intro i j first second one two firstHolds secondHolds same
      exact consistent.exclusive i j first second (older i first firstHolds one) (older j second secondHolds two)
        firstHolds secondHolds same

end

end TrustDB.App
