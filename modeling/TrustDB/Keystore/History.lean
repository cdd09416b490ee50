import TrustDB.Codec.Joined
import TrustDB.Keystore.Registry

/-!
What later events do to the keys of a registry. An event never touches who a key belongs to or
what it is; it can only retire it, from the time it names.
-/

namespace TrustDB.Keystore

open Result Model KeyDescriptor

def KeyTimeline.RetiredAt (timeline : KeyTimeline) (time : Int) : Prop :=
  (∃ event ∈ timeline.rotated, event.rotatedAtUnixN ≤ time) ∨
    (∃ event ∈ timeline.revoked, event.revokedAtUnixN ≤ time) ∨
    ∃ event ∈ timeline.compromised, event.compromisedAtUnixN ≤ time

def Retires (event : KeyEvent) (id : String) (time : Int) : Prop :=
  match event.type with
  | .register => False
  | .rotate => KeyEvent.previousID event = id ∧ event.rotatedAtUnixN ≤ time
  | .revoke => KeyEvent.id event = id ∧ event.revokedAtUnixN ≤ time
  | .compromise => KeyEvent.id event = id ∧ event.compromisedAtUnixN ≤ time

instance (event : KeyEvent) (id : String) (time : Int) : Decidable (Retires event id time) := by
  unfold Retires
  cases event.type <;> infer_instance

section

variable {change : Option KeyEvent} {effective : KeyEvent → Int} {mark : ClientKey → Int → ClientKey}
  {time : Int} {key : ClientKey}

theorem markedAt_of_not_due (notDue : ¬∃ event ∈ change, effective event ≤ time) :
    markedAt change effective mark time key = key := by
  cases change with
  | none => rfl
  | some event => exact if_neg fun due => notDue ⟨event, rfl, due⟩

theorem markedAt_status (marks : ∀ key time, (mark key time).status ≠ keyStatusValid)
    (retired : (∃ event ∈ change, effective event ≤ time) ∨ key.status ≠ keyStatusValid) :
    (markedAt change effective mark time key).status ≠ keyStatusValid := by
  cases change with
  | none => simpa [markedAt] using retired
  | some event =>
    simp only [markedAt]
    split
    · exact marks _ _
    · simp_all

theorem markRevoked_status (key : ClientKey) (time : Int) : (markRevoked key time).status ≠ keyStatusValid :=
  show keyStatusRevoked ≠ keyStatusValid by decide

theorem markCompromised_status (key : ClientKey) (time : Int) :
    (markCompromised key time).status ≠ keyStatusValid :=
  show keyStatusCompromised ≠ keyStatusValid by decide

theorem KeyTimeline.statusAt_of_not_retired {timeline : KeyTimeline} (key : ClientKey)
    (active : ¬timeline.RetiredAt time) : timeline.statusAt time key = key := by
  simp only [RetiredAt, not_or] at active
  obtain ⟨notRotated, notRevoked, notCompromised⟩ := active
  unfold statusAt
  rw [markedAt_of_not_due notRotated, markedAt_of_not_due notRevoked, markedAt_of_not_due notCompromised]

theorem KeyTimeline.statusAt_of_retired {timeline : KeyTimeline} (key : ClientKey)
    (retired : timeline.RetiredAt time) : (timeline.statusAt time key).status ≠ keyStatusValid := by
  apply markedAt_status markCompromised_status
  obtain rotated | revoked | compromised := retired
  · exact .inr (markedAt_status markRevoked_status (.inr (markedAt_status markRevoked_status (.inl rotated))))
  · exact .inr (markedAt_status markRevoked_status (.inl revoked))
  · exact .inl compromised

end

section

variable {env : Env} {registry next : Registry} {event : KeyEvent}

theorem Registry.lookupClientKeyAt_eq_ok {tenantID clientID keyID : String} {time : Int} {key : ClientKey} :
    registry.lookupClientKeyAt env tenantID clientID keyID time = .ok key ↔
      ∃ timeline, registry.byKey.lookup (identity tenantID clientID keyID) = some timeline ∧
        requireDescribed env registry.suite "client key" timeline.descriptor.cryptoSuite
          timeline.registered.keyDescriptor = .ok () ∧
        timeline.registered.validFromUnixN ≤ time ∧
        (timeline.registered.validUntilUnixN ≠ 0 → time < timeline.registered.validUntilUnixN) ∧
        ¬timeline.RetiredAt time ∧ key = clientKeyFromTimeline tenantID clientID timeline := by
  unfold lookupClientKeyAt
  cases found : registry.byKey.lookup (identity tenantID clientID keyID) with
  | none => simp
  | some timeline =>
    simp only [bind_eq_ok, mapError_eq_ok, reject_eq_ok, return_eq_ok, Option.some.injEq, exists_eq_left', Int.not_lt,
      not_and, Int.not_le]
    constructor
    · rintro ⟨_, bound, _, started, _, unexpired, _, status, same⟩
      have active : ¬timeline.RetiredAt time := fun retired =>
        status (timeline.statusAt_of_retired (clientKeyFromTimeline tenantID clientID timeline) retired)
      rw [timeline.statusAt_of_not_retired _ active] at same
      exact ⟨bound, started, unexpired, active, same.symm⟩
    · rintro ⟨bound, started, unexpired, active, same⟩
      rw [timeline.statusAt_of_not_retired _ active]
      exact ⟨(), bound, (), started, (), unexpired, (), not_not.mpr rfl, same.symm⟩

structure Registry.Takes (env : Env) (registry : Registry) (event : KeyEvent) (next : Registry) : Prop where
  valid : registry.validateNextLocked env event = .ok ()
  applied : registry.applyLocked env event = .ok next

theorem Registry.appendEvent_cases {stored result}
    (appended : registry.appendEvent env stored event = .ok result) :
    result.2 = registry ∨ registry.Takes env result.1 result.2 := by
  unfold appendEvent at appended
  split at appended
  · exact .inl (by rw [← Except.ok.inj appended])
  · simp only [bind_eq_ok, return_eq_ok] at appended
    obtain ⟨_, valid, ⟨signature, hash⟩, _, after, applied, rfl⟩ := appended
    exact .inr ⟨valid, applied⟩

theorem Registry.execute_cases {stored command result}
    (executed : registry.execute env stored command = .ok result) :
    result.2 = registry ∨ registry.Takes env result.1 result.2 := by
  cases command with
  | registerClientKey tenantID clientID descriptor validFrom validUntil =>
    simp only [execute, registerClientKey, bind_eq_ok] at executed
    obtain ⟨_, _, _, _, _, _, appended⟩ := executed
    exact appendEvent_cases appended
  | rotateClientKey tenantID clientID previousKeyID descriptor rotatedAt validUntil reason =>
    simp only [execute, rotateClientKey, bind_eq_ok] at executed
    obtain ⟨_, _, _, _, _, _, appended⟩ := executed
    exact appendEvent_cases appended
  | revokeClientKey tenantID clientID keyID revokedAt reason =>
    simp only [execute, appendStatusEvent, bind_eq_ok] at executed
    obtain ⟨_, _, appended⟩ := executed
    exact appendEvent_cases appended
  | markClientKeyCompromised tenantID clientID keyID compromisedAt reason =>
    simp only [execute, appendStatusEvent, bind_eq_ok] at executed
    obtain ⟨_, _, appended⟩ := executed
    exact appendEvent_cases appended

theorem Registry.step_cases {call} (stepped : registry.step env call = some next) :
    next = registry ∨ ∃ event, registry.Takes env event next := by
  obtain ⟨result, executed, rfl⟩ := toOption_map_eq_some.mp stepped
  exact (execute_cases executed).imp id fun takes => ⟨_, takes⟩

theorem Registry.Takes.next_eq (takes : registry.Takes env event next) :
    ∃ descriptor, validateEventShape env registry.suite event = .ok descriptor ∧
      next = { registry with
        events := registry.events ++ [event]
        byKey := registry.applyByKey event descriptor
        lastHash := event.eventHash } := by
  have applied := takes.applied
  simp only [applyLocked, bind_eq_ok, return_eq_ok] at applied
  obtain ⟨descriptor, shaped, rfl⟩ := applied
  exact ⟨descriptor, shaped, rfl⟩

theorem Registry.Takes.admits (takes : registry.Takes env event next) :
    match event.type with
    | .register => registry.byKey.lookup (KeyEvent.id event) = none
    | .rotate => registry.byKey.lookup (KeyEvent.id event) = none ∧
        ∃ previous, registry.byKey.lookup (KeyEvent.previousID event) = some previous ∧
          previous.rotated = none ∧ previous.revoked = none
    | .revoke => ∃ timeline, registry.byKey.lookup (KeyEvent.id event) = some timeline ∧
        timeline.revoked = none ∧ timeline.rotated = none
    | .compromise => ∃ timeline, registry.byKey.lookup (KeyEvent.id event) = some timeline ∧
        timeline.compromised = none := by
  have valid := takes.valid
  unfold validateNextLocked at valid
  cases type : event.type with
  | register =>
    simp only [type, bind_eq_ok, reject_eq_ok] at valid
    obtain ⟨_, _, fresh⟩ := valid
    simpa using fresh
  | rotate =>
    simp only [type, bind_eq_ok, reject_eq_ok] at valid
    obtain ⟨_, _, _, fresh, rest⟩ := valid
    refine ⟨by simpa using fresh, ?_⟩
    cases found : registry.byKey.lookup (KeyEvent.previousID event) with
    | none => simp [found] at rest
    | some previous =>
      simp only [found, bind_eq_ok, reject_eq_ok] at rest
      obtain ⟨_, active, _⟩ := rest
      exact ⟨previous, rfl, by simpa using active⟩
  | revoke =>
    cases found : registry.byKey.lookup (KeyEvent.id event) with
    | none => simp [type, found] at valid
    | some timeline =>
      simp only [type, found, bind_eq_ok, reject_eq_ok] at valid
      obtain ⟨_, _, _, active, _⟩ := valid
      exact ⟨timeline, rfl, by simpa using active⟩
  | compromise =>
    cases found : registry.byKey.lookup (KeyEvent.id event) with
    | none => simp [type, found] at valid
    | some timeline =>
      simp only [type, found, bind_eq_ok, reject_eq_ok] at valid
      obtain ⟨_, _, active⟩ := valid
      exact ⟨timeline, rfl, by simpa using active⟩

theorem Registry.timelineAt_of_lookup {id timeline} (found : registry.byKey.lookup id = some timeline) :
    registry.timelineAt id = timeline := by
  simp [timelineAt, found]

/-- One timeline before and after some events: the key is the same, and it is retired by the
status changes that it had and by those among the events. -/
structure Continues (events : List KeyEvent) (id : String) (before after : KeyTimeline) : Prop where
  registered : after.registered = before.registered
  descriptor : after.descriptor = before.descriptor
  retired : ∀ time, after.RetiredAt time ↔ before.RetiredAt time ∨ ∃ event ∈ events, Retires event id time

theorem Continues.refl (id : String) (timeline : KeyTimeline) : Continues [] id timeline timeline :=
  ⟨rfl, rfl, by simp⟩

theorem Continues.trans {first second id before between after} (one : Continues first id before between)
    (two : Continues second id between after) : Continues (first ++ second) id before after where
  registered := two.registered.trans one.registered
  descriptor := two.descriptor.trans one.descriptor
  retired := fun time => by
    rw [two.retired, one.retired, or_assoc]
    simp only [List.mem_append, or_and_right, exists_or]

theorem Continues.unrelated {id} (timeline : KeyTimeline) (apart : ∀ time, ¬Retires event id time) :
    Continues [event] id timeline timeline :=
  ⟨rfl, rfl, by simp [apart]⟩

theorem Registry.Takes.timeline (takes : registry.Takes env event next) {id before}
    (found : registry.byKey.lookup id = some before) :
    ∃ after, next.byKey.lookup id = some after ∧ Continues [event] id before after := by
  obtain ⟨descriptor, _, rfl⟩ := takes.next_eq
  have admits := takes.admits
  -- `id` is there already, so it is not the identity that a registration or rotation adds.
  cases type : event.type with
  | register =>
    simp only [type] at admits
    have apart : id ≠ KeyEvent.id event := by
      rintro rfl
      simp [found] at admits
    refine ⟨before, ?_, .unrelated before (by simp [Retires, type])⟩
    simpa [applyByKey, type, AList.lookup_insert_ne apart] using found
  | rotate =>
    simp only [type] at admits
    obtain ⟨fresh, previous, foundPrevious, notRotated, _⟩ := admits
    have apart : id ≠ KeyEvent.id event := by
      rintro rfl
      simp [found] at fresh
    by_cases same : id = KeyEvent.previousID event
    · subst same
      obtain rfl : before = previous := by simpa [found] using foundPrevious
      refine ⟨{ before with rotated := some event }, ?_, rfl, rfl, fun time => ?_⟩
      · simp [applyByKey, type, AList.lookup_insert_ne apart, timelineAt_of_lookup found]
      · simpa [KeyTimeline.RetiredAt, Retires, type, notRotated] using or_comm
    · refine ⟨before, ?_, .unrelated before (by simp [Retires, type, Ne.symm same])⟩
      simpa [applyByKey, type, AList.lookup_insert_ne apart, AList.lookup_insert_ne same] using found
  | revoke =>
    simp only [type] at admits
    obtain ⟨timeline, foundTimeline, notRevoked, _⟩ := admits
    by_cases same : id = KeyEvent.id event
    · subst same
      obtain rfl : before = timeline := by simpa [found] using foundTimeline
      refine ⟨{ before with revoked := some event }, ?_, rfl, rfl, fun time => ?_⟩
      · simp [applyByKey, type, timelineAt_of_lookup found]
      · simpa [KeyTimeline.RetiredAt, Retires, type, notRevoked, or_assoc] using or_congr_right or_comm
    · refine ⟨before, ?_, .unrelated before (by simp [Retires, type, Ne.symm same])⟩
      simpa [applyByKey, type, AList.lookup_insert_ne same] using found
  | compromise =>
    simp only [type] at admits
    obtain ⟨timeline, foundTimeline, notCompromised⟩ := admits
    by_cases same : id = KeyEvent.id event
    · subst same
      obtain rfl : before = timeline := by simpa [found] using foundTimeline
      refine ⟨{ before with compromised := some event }, ?_, rfl, rfl, fun time => ?_⟩
      · simp [applyByKey, type, timelineAt_of_lookup found]
      · simp [KeyTimeline.RetiredAt, Retires, type, notCompromised, or_assoc]
    · refine ⟨before, ?_, .unrelated before (by simp [Retires, type, Ne.symm same])⟩
      simpa [applyByKey, type, AList.lookup_insert_ne same] using found

structure Registry.Grown (registry : Registry) (later : List KeyEvent) (next : Registry) : Prop where
  suite : next.suite = registry.suite
  events : next.events = registry.events ++ later
  timelines : ∀ id before, registry.byKey.lookup id = some before →
    ∃ after, next.byKey.lookup id = some after ∧ Continues later id before after

theorem Registry.Takes.grown (takes : registry.Takes env event next) : registry.Grown [event] next where
  suite := by
    obtain ⟨_, _, rfl⟩ := takes.next_eq
    rfl
  events := by
    obtain ⟨_, _, rfl⟩ := takes.next_eq
    rfl
  timelines := fun _ _ found => takes.timeline found

theorem Registry.Grown.refl (registry : Registry) : registry.Grown [] registry :=
  ⟨rfl, (List.append_nil _).symm, fun id before found => ⟨before, found, .refl id before⟩⟩

theorem Registry.Grown.trans {first second last} (one : registry.Grown first next)
    (two : next.Grown second last) : registry.Grown (first ++ second) last where
  suite := two.suite.trans one.suite
  events := by rw [two.events, one.events, List.append_assoc]
  timelines := fun id before found => by
    obtain ⟨between, foundBetween, continued⟩ := one.timelines id before found
    obtain ⟨after, foundAfter, further⟩ := two.timelines id between foundBetween
    exact ⟨after, foundAfter, continued.trans further⟩

theorem Registry.grown_of_run {calls} (ran : Machine.run (Registry.step env) registry calls = some next) :
    ∃ later, registry.Grown later next := by
  induction calls generalizing registry with
  | nil =>
    cases ran
    exact ⟨[], .refl _⟩
  | cons call rest ih =>
    obtain ⟨between, stepped, ran⟩ := Machine.run_cons_eq_some.mp ran
    obtain ⟨later, grown⟩ := ih ran
    obtain rfl | ⟨event, takes⟩ := step_cases stepped
    · exact ⟨later, grown⟩
    · exact ⟨event :: later, takes.grown.trans grown⟩

theorem Registry.Grown.lookup {later tenantID clientID keyID time key} (grown : registry.Grown later next)
    (found : registry.lookupClientKeyAt env tenantID clientID keyID time = .ok key) (other : ClientKey) :
    next.lookupClientKeyAt env tenantID clientID keyID time = .ok other ↔
      other = key ∧ ∀ event ∈ later, ¬Retires event (identity tenantID clientID keyID) time := by
  obtain ⟨before, inBefore, bound, started, unexpired, active, rfl⟩ :=
    Registry.lookupClientKeyAt_eq_ok.mp found
  obtain ⟨after, inAfter, continued⟩ := grown.timelines _ _ inBefore
  have sameKey : clientKeyFromTimeline tenantID clientID after = clientKeyFromTimeline tenantID clientID before := by
    simp only [clientKeyFromTimeline, continued.registered, continued.descriptor]
  rw [Registry.lookupClientKeyAt_eq_ok]
  constructor
  · rintro ⟨timeline, inTimeline, _, _, _, stillActive, rfl⟩
    obtain rfl : after = timeline := by simpa [inAfter] using inTimeline
    refine ⟨sameKey, fun event member retires => stillActive ?_⟩
    exact (continued.retired time).mpr (.inr ⟨event, member, retires⟩)
  · rintro ⟨rfl, spared⟩
    refine ⟨after, inAfter, ?_, ?_, ?_, ?_, sameKey.symm⟩
    · rwa [grown.suite, continued.registered, continued.descriptor]
    · rwa [continued.registered]
    · rwa [continued.registered]
    · rw [continued.retired]
      rintro (retired | ⟨event, member, retires⟩)
      · exact active retired
      · exact spared event member retires

/-- Every timeline goes back to an event that registered the key under this very identity. -/
structure Registry.Rooted (registry : Registry) : Prop where
  member : ∀ id timeline, registry.byKey.lookup id = some timeline → timeline.registered ∈ registry.events
  kind : ∀ id timeline, registry.byKey.lookup id = some timeline →
    timeline.registered.type = .register ∨ timeline.registered.type = .rotate
  id : ∀ id timeline, registry.byKey.lookup id = some timeline → KeyEvent.id timeline.registered = id
  nulFree : ∀ id timeline, registry.byKey.lookup id = some timeline →
    '\x00' ∉ timeline.registered.keyID.toList

theorem Registry.Rooted.empty (suite : CryptoSuite.ID) : (Registry.empty suite).Rooted := by
  constructor <;> intro id timeline found <;> cases found

theorem Registry.Takes.origin (takes : registry.Takes env event next) {id after}
    (found : next.byKey.lookup id = some after) :
    (∃ before, registry.byKey.lookup id = some before ∧ Continues [event] id before after) ∨
      registry.byKey.lookup id = none ∧ KeyEvent.id event = id ∧
        (event.type = .register ∨ event.type = .rotate) ∧
        ∃ descriptor, validateEventShape env registry.suite event = .ok descriptor ∧
          after = { registered := event, descriptor, revoked := none, compromised := none, rotated := none } := by
  by_cases known : ∃ before, registry.byKey.lookup id = some before
  · obtain ⟨before, foundBefore⟩ := known
    obtain ⟨other, foundOther, continued⟩ := takes.timeline foundBefore
    obtain rfl : after = other := by simpa [found] using foundOther
    exact .inl ⟨before, foundBefore, continued⟩
  · have missing : registry.byKey.lookup id = none := by
      simpa [Option.eq_none_iff_forall_ne_some] using known
    obtain ⟨descriptor, shaped, rfl⟩ := takes.next_eq
    have admits := takes.admits
    refine .inr ⟨missing, ?_⟩
    cases type : event.type with
    | register =>
      by_cases same : id = KeyEvent.id event
      · subst same
        simp only [applyByKey, type, AList.lookup_insert, Option.some.injEq] at found
        exact ⟨rfl, .inl rfl, descriptor, shaped, found.symm⟩
      · simp [applyByKey, type, AList.lookup_insert_ne same, missing] at found
    | rotate =>
      simp only [type] at admits
      obtain ⟨_, previous, foundPrevious, _⟩ := admits
      have apart : id ≠ KeyEvent.previousID event := by
        rintro rfl
        simp [missing] at foundPrevious
      by_cases same : id = KeyEvent.id event
      · subst same
        simp only [applyByKey, type, AList.lookup_insert, Option.some.injEq] at found
        exact ⟨rfl, .inr rfl, descriptor, shaped, found.symm⟩
      · simp [applyByKey, type, AList.lookup_insert_ne same, AList.lookup_insert_ne apart, missing] at found
    | revoke =>
      simp only [type] at admits
      obtain ⟨timeline, foundTimeline, _⟩ := admits
      have apart : id ≠ KeyEvent.id event := by
        rintro rfl
        simp [missing] at foundTimeline
      simp [applyByKey, type, AList.lookup_insert_ne apart, missing] at found
    | compromise =>
      simp only [type] at admits
      obtain ⟨timeline, foundTimeline, _⟩ := admits
      have apart : id ≠ KeyEvent.id event := by
        rintro rfl
        simp [missing] at foundTimeline
      simp [applyByKey, type, AList.lookup_insert_ne apart, missing] at found

theorem validateEventShape_nulFree {suiteID descriptor} (kind : event.type = .register ∨ event.type = .rotate)
    (shaped : validateEventShape env suiteID event = .ok descriptor) : '\x00' ∉ event.keyID.toList := by
  have read : ∃ descriptor, unmarshal env.library event.keyDescriptor = .ok descriptor ∧
      descriptor.keyID = event.keyID := by
    rcases kind with type | type <;>
    · simp only [validateEventShape, type, bind_eq_ok, mapError_eq_ok, reject_eq_ok, not_or, not_not] at shaped
      obtain ⟨_, _, _, _, _, _, _, _, _, _, descriptor, read, _, same, _⟩ := shaped
      exact ⟨descriptor, read, same.1⟩
  obtain ⟨descriptor, read, same⟩ := read
  rw [← same]
  exact nul_not_mem_keyID (unmarshal_validate read)

theorem Registry.Takes.rooted (takes : registry.Takes env event next) (rooted : registry.Rooted) :
    next.Rooted := by
  have events := takes.grown.events
  constructor <;> intro id timeline found <;>
    obtain ⟨before, foundBefore, continued⟩ | ⟨_, same, kind, descriptor, shaped, rfl⟩ := takes.origin found
  · rw [events, continued.registered]
    exact List.mem_append_left _ (rooted.member id before foundBefore)
  · rw [events]
    exact List.mem_append_right _ (List.mem_singleton_self _)
  · rw [continued.registered]
    exact rooted.kind id before foundBefore
  · exact kind
  · rw [continued.registered]
    exact rooted.id id before foundBefore
  · exact same
  · rw [continued.registered]
    exact rooted.nulFree id before foundBefore
  · exact validateEventShape_nulFree kind shaped

theorem Registry.Rooted.run {calls : List (Command × Outcome (Signature × Bytes))} (rooted : registry.Rooted)
    (ran : Machine.run (Registry.step env) registry calls = some next) : next.Rooted := by
  refine Machine.run_keeps (fun state input after held stepped => ?_) ran rooted
  obtain rfl | ⟨event, takes⟩ := step_cases stepped
  · exact held
  · exact takes.rooted held

end

end TrustDB.Keystore
