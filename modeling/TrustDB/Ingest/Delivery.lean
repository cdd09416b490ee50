import TrustDB.Ingest.Service

/-!
What becomes of a record that the processor newly accepted. Its result is with the worker, in the
result channel, or with the call on its way to the batch service, unless the call has left through
the end of its context: then nobody will enqueue the record.
-/

namespace TrustDB.Ingest

open Model Batch List

def Call.Waits (history : List Step) (index : Nat) (call : Call) : Prop :=
  call.phase = .waiting ∨ Step.abandon index ∈ history ∧ call.phase.Returned

def newResult (accepted : Accepted) : JobResult where
  record := accepted.record
  accepted := accepted.accepted
  idempotent := false
  err := none

def System.holders (system : System) : List Nat := system.queue ++ system.busy.map Prod.fst

def System.HasReturned (system : System) (index : Nat) : Prop :=
  ∃ call, system.calls[index]? = some call ∧ call.phase.Returned

/-- Where a record that was newly accepted for a call is now. -/
inductive Tracked (history : List Step) (system : System) (index : Nat) (call : Call) (accepted : Accepted) : Prop
  | delivering (same : call.signed = accepted.signed) (waits : call.Waits history index)
      (held : (index, some (newResult accepted)) ∈ system.busy)
  | delivered (same : call.signed = accepted.signed) (waits : call.Waits history index)
      (held : call.result = some (newResult accepted))
  | enqueueing (same : call.signed = accepted.signed)
      (phase : call.phase = .enqueueing accepted.record accepted.accepted)
  | enqueued (member : (index, accepted) ∈ system.enqueued)

structure Stands (history : List Step) (system : System) (index : Nat) (call : Call) : Prop where
  pending : index ∈ system.holders → call.result = none ∧ call.Waits history index
  buffered : call.result ≠ none → call.Waits history index
  tracked : ∀ accepted, (index, accepted) ∈ system.accepted → Tracked history system index call accepted
  done : ∀ accepted, (index, accepted) ∈ system.enqueued → call.phase.Returned
  left : Step.abandon index ∈ history → call.phase.Returned ∧ ∀ accepted, (index, accepted) ∉ system.enqueued

structure Untouched (history : List Step) (system : System) (index : Nat) : Prop where
  unaccepted : ∀ accepted, (index, accepted) ∉ system.accepted
  unsent : ∀ accepted, (index, accepted) ∉ system.enqueued
  stays : Step.abandon index ∉ history

structure Consistent (history : List Step) (system : System) : Prop where
  nodup : system.holders.Nodup
  unknown : ∀ index, system.calls[index]? = none → index ∉ system.holders ∧ Untouched history system index
  calls : ∀ (index : Nat) (call : Call), system.calls[index]? = some call → Stands history system index call

/-- A step that concerns another call leaves what is known of this one. -/
structure Frame (history longer : List Step) (system next : System) (index : Nat) : Prop where
  holders : index ∈ next.holders → index ∈ system.holders
  busy : ∀ result, (index, some result) ∈ system.busy → (index, some result) ∈ next.busy
  accepted : ∀ accepted, (index, accepted) ∈ next.accepted → (index, accepted) ∈ system.accepted
  enqueued : ∀ accepted, (index, accepted) ∈ next.enqueued ↔ (index, accepted) ∈ system.enqueued
  left : Step.abandon index ∈ longer ↔ Step.abandon index ∈ history

variable {history longer : List Step} {system next : System} {index : Nat} {call after : Call}
  {accepted : Accepted} {phase : Phase}

theorem System.atPhase_eq_some : system.atPhase index phase = some call ↔
    system.calls[index]? = some call ∧ call.phase = phase := by
  simp only [System.atPhase, Option.bind_eq_bind, Option.bind_eq_some_iff]
  constructor
  · rintro ⟨found, present, _, guarded, returned⟩
    obtain rfl : found = call := Option.some.inj returned
    exact ⟨present, by simpa [guard] using guarded⟩
  · rintro ⟨present, reached⟩
    exact ⟨call, present, (), by simp [reached], rfl⟩

theorem System.setCall_self (found : system.calls[index]? = some call) (after : Call) :
    (system.setCall index after).calls[index]? = some after := by
  have bound := (List.getElem?_eq_some_iff.mp found).1
  simp [System.setCall, bound]

theorem Call.Waits.not_enqueueing {record receipt} (waits : call.Waits history index) :
    call.phase ≠ .enqueueing record receipt := by
  intro enqueueing
  rcases waits with waiting | ⟨-, returned⟩
  · rw [enqueueing] at waiting
    cases waiting
  · rw [enqueueing] at returned
    cases returned

theorem Stands.carry (stands : Stands history system index call) (frame : Frame history longer system next index)
    (signed : after.signed = call.signed) (result : after.result = call.result)
    (phase : after.phase = call.phase) : Stands longer next index after := by
  have waits : after.Waits longer index ↔ call.Waits history index := by
    rw [Call.Waits, Call.Waits, phase, frame.left]
  constructor
  · rw [waits, result]
    exact fun held => stands.pending (frame.holders held)
  · rw [waits, result]
    exact stands.buffered
  · intro accepted member
    cases stands.tracked accepted (frame.accepted _ member) with
    | delivering same waiting held =>
      exact .delivering (signed.trans same) (waits.mpr waiting) (frame.busy _ held)
    | delivered same waiting held => exact .delivered (signed.trans same) (waits.mpr waiting) (result.trans held)
    | enqueueing same reached => exact .enqueueing (signed.trans same) (phase.trans reached)
    | enqueued member => exact .enqueued ((frame.enqueued _).mpr member)
  · intro accepted member
    rw [phase]
    exact stands.done accepted ((frame.enqueued _).mp member)
  · rw [phase, frame.left]
    intro abandoned
    obtain ⟨returned, missing⟩ := stands.left abandoned
    exact ⟨returned, fun accepted member => missing accepted ((frame.enqueued _).mp member)⟩

theorem Stands.untouched (stands : Stands history system index call)
    (early : call.phase = .checking ∨ call.phase = .offering) :
    call.result = none ∧ index ∉ system.holders ∧ Untouched history system index := by
  have running : ¬call.phase.Returned := by
    rcases early with same | same <;> simp [same, Phase.Returned]
  have idle : ¬call.Waits history index := by
    rintro (waiting | ⟨-, returned⟩)
    · rcases early with same | same <;> simp [same] at waiting
    · exact running returned
  have unsent : ∀ accepted, (index, accepted) ∉ system.enqueued :=
    fun accepted member => running (stands.done accepted member)
  refine ⟨by_contra fun full => idle (stands.buffered full), fun held => idle (stands.pending held).2, ?_, unsent,
    fun abandoned => running (stands.left abandoned).1⟩
  intro accepted member
  cases stands.tracked accepted member with
  | delivering same waits held => exact idle waits
  | delivered same waits held => exact idle waits
  | enqueueing same phase => rcases early with same | same <;> simp [same] at phase
  | enqueued member => exact unsent accepted member

theorem Untouched.stands (untouched : Untouched history system index) (empty : call.result = none)
    (pending : index ∈ system.holders → call.Waits history index) : Stands history system index call where
  pending held := ⟨empty, pending held⟩
  buffered full := absurd empty full
  tracked accepted member := absurd member (untouched.unaccepted accepted)
  done accepted member := absurd member (untouched.unsent accepted)
  left abandoned := absurd abandoned untouched.stays

section Steps

variable (consistent : Consistent history system)

include consistent

theorem Consistent.move (nodup : next.holders.Nodup)
    (each : ∀ other, next.calls[other]? = system.calls[other]? ∧ Frame history longer system next other ∨
      ∃ after, next.calls[other]? = some after ∧ Stands longer next other after) : Consistent longer next := by
  refine ⟨nodup, fun other missing => ?_, fun other after found => ?_⟩
  · rcases each other with ⟨same, frame⟩ | ⟨after, placed, -⟩
    · obtain ⟨free, untouched⟩ := consistent.unknown other (same.symm.trans missing)
      exact ⟨fun held => free (frame.holders held), fun _ member => untouched.unaccepted _ (frame.accepted _ member),
        fun _ member => untouched.unsent _ ((frame.enqueued _).mp member),
        fun abandoned => untouched.stays (frame.left.mp abandoned)⟩
    · rw [missing] at placed
      cases placed
  · rcases each other with ⟨same, frame⟩ | ⟨own, placed, stands⟩
    · exact (consistent.calls other after (same.symm.trans found)).carry frame rfl rfl rfl
    · cases placed.symm.trans found
      exact stands

theorem Consistent.mono (left : ∀ other, Step.abandon other ∈ longer ↔ Step.abandon other ∈ history) :
    Consistent longer system :=
  consistent.move consistent.nodup fun other =>
    .inl ⟨rfl, id, fun _ => id, fun _ => id, fun _ => Iff.rfl, left other⟩

section

variable (found : system.calls[index]? = some call)
include found

theorem Consistent.replace (calls : next.calls = (system.setCall index after).calls)
    (nodup : next.holders.Nodup) (frames : ∀ other, other ≠ index → Frame history longer system next other)
    (stands : Stands longer next index after) : Consistent longer next := by
  refine consistent.move nodup fun other => ?_
  by_cases same : other = index
  · rw [same, calls]
    exact .inr ⟨after, System.setCall_self found after, stands⟩
  · refine .inl ⟨?_, frames other same⟩
    rw [calls, System.setCall, getElem?_set_ne (Ne.symm same)]

theorem Consistent.setCall (stands : Stands history (system.setCall index after) index after) :
    Consistent history (system.setCall index after) :=
  consistent.replace found rfl consistent.nodup
    (fun _ _ => ⟨id, fun _ => id, fun _ => id, fun _ => Iff.rfl, Iff.rfl⟩) stands

theorem Consistent.early (early : call.phase = .checking ∨ call.phase = .offering) (phase : Phase) :
    Consistent history (system.setCall index { call with phase }) := by
  obtain ⟨empty, free, untouched⟩ := (consistent.calls index call found).untouched early
  exact consistent.setCall found
    (Untouched.stands ⟨untouched.unaccepted, untouched.unsent, untouched.stays⟩ empty fun held => absurd held free)

theorem Consistent.offer (offering : call.phase = .offering) :
    Consistent history (system.offer index call) := by
  obtain ⟨empty, free, untouched⟩ := (consistent.calls index call found).untouched (.inr offering)
  unfold System.offer
  split
  · exact consistent.early found (.inr offering) _
  · split
    · have holders : System.holders { system with queue := system.queue ++ [index] } =
          system.queue ++ index :: system.busy.map Prod.fst := by
        simp [System.holders]
      refine consistent.replace found rfl ?_ (fun other different => ?_)
        (Untouched.stands ⟨untouched.unaccepted, untouched.unsent, untouched.stays⟩ empty fun _ => .inl rfl)
      · exact holders ▸ nodup_middle.mpr (nodup_cons.mpr ⟨free, consistent.nodup⟩)
      · refine ⟨fun held => ?_, fun _ => id, fun _ => id, fun _ => Iff.rfl, Iff.rfl⟩
        have member : other ∈ system.queue ++ index :: system.busy.map Prod.fst := holders ▸ held
        simpa [System.holders, different] using member
    · exact consistent.early found (.inr offering) _

end

theorem Consistent.take {rest} (queued : system.queue = index :: rest) :
    Consistent history { system with queue := rest, busy := system.busy ++ [(index, none)] } := by
  have moved : (System.holders { system with
      queue := rest, busy := system.busy ++ [(index, none)] }).Perm system.holders := by
    simp only [System.holders, queued, map_append, map_cons, map_nil]
    rw [← append_assoc]
    exact perm_append_singleton index (rest ++ system.busy.map Prod.fst)
  exact consistent.move (moved.nodup_iff.mpr consistent.nodup) fun other => .inl ⟨rfl, moved.mem_iff.mp,
    fun _ held => mem_append_left _ held, fun _ => id, fun _ => Iff.rfl, Iff.rfl⟩

theorem Consistent.held_unique {first second} (one : (index, first) ∈ system.busy)
    (two : (index, second) ∈ system.busy) : first = second := by
  have distinct : (system.busy.map Prod.fst).Nodup := (nodup_append.mp consistent.nodup).2.1
  exact congrArg Prod.snd (inj_on_of_nodup_map distinct one two rfl)

omit consistent in
theorem System.holder_of_busy {result} (held : (index, result) ∈ system.busy) : index ∈ system.holders :=
  mem_append_right _ (mem_map.mpr ⟨_, held, rfl⟩)

section

variable (found : system.calls[index]? = some call)
include found

theorem Consistent.process {result} (held : (index, none) ∈ system.busy) :
    Consistent history (system.process index call.signed result) := by
  have holders : (system.process index call.signed result).holders = system.holders := by
    simp only [System.holders, System.process, map_map]
    congr 1
    apply map_congr_left
    intro entry _
    simp only [Function.comp_apply]
    split
    · rename_i same
      exact same.symm
    · rfl
  have stands := consistent.calls index call found
  obtain ⟨empty, waits⟩ := stands.pending (System.holder_of_busy held)
  refine consistent.move (holders ▸ consistent.nodup) fun other => ?_
  by_cases same : other = index
  · subst same
    refine .inr ⟨call, found, fun _ => ⟨empty, waits⟩, fun _ => waits, fun accepted member => ?_, stands.done,
      stands.left⟩
    have fresh : (other, accepted) ∈ system.accepted ∨ result = newResult accepted ∧ call.signed = accepted.signed := by
      simp only [System.process] at member
      split at member
      · rename_i clean
        rcases mem_append.mp member with earlier | latest
        · exact .inl earlier
        · obtain rfl := (Prod.mk.inj (mem_singleton.mp latest)).2
          cases result
          exact .inr ⟨by simp_all [newResult], rfl⟩
      · exact .inl member
    rcases fresh with earlier | ⟨rfl, same⟩
    · cases stands.tracked accepted earlier with
      | delivering _ _ holding => cases consistent.held_unique held holding
      | delivered same waits full => exact .delivered same waits full
      | enqueueing same phase => exact .enqueueing same phase
      | enqueued member => exact .enqueued member
    · exact .delivering same waits (mem_map.mpr ⟨_, held, by simp⟩)
  · refine .inl ⟨rfl, fun holder => holders ▸ holder, fun answer holding => ?_, fun accepted member => ?_,
      fun _ => Iff.rfl, Iff.rfl⟩
    · exact mem_map.mpr ⟨(other, some answer), holding, by simp [same]⟩
    · simp only [System.process] at member
      split at member
      · simpa [same] using member
      · exact member

theorem Consistent.deliver {result} (held : (index, some result) ∈ system.busy) :
    Consistent history { system.setCall index { call with result := some result } with
      busy := system.busy.filter fun entry => entry.1 ≠ index } := by
  have stands := consistent.calls index call found
  obtain ⟨empty, waits⟩ := stands.pending (System.holder_of_busy held)
  have smaller : (system.queue ++ (system.busy.filter fun entry => entry.1 ≠ index).map Prod.fst).Sublist
      system.holders :=
    (filter_sublist.map Prod.fst).append_left system.queue
  have unqueued : index ∉ system.queue := fun queued =>
    (nodup_append.mp consistent.nodup).2.2 index queued index (mem_map.mpr ⟨_, held, rfl⟩) rfl
  refine consistent.replace found rfl (consistent.nodup.sublist smaller) (fun other different => ?_)
    ⟨fun holder => ?_, fun _ => waits, fun accepted member => ?_, stands.done, stands.left⟩
  · exact ⟨fun holder => smaller.subset holder,
      fun answer holding => mem_filter.mpr ⟨holding, by simpa using different⟩,
      fun _ => id, fun _ => Iff.rfl, Iff.rfl⟩
  · simp [System.holders, System.setCall, unqueued] at holder
  · cases stands.tracked accepted member with
    | delivering same _ holding => exact .delivered same waits (consistent.held_unique held holding)
    | delivered same _ full =>
      rw [empty] at full
      cases full
    | enqueueing same phase => exact .enqueueing same phase
    | enqueued member => exact .enqueued member

theorem Consistent.receive {result} (waiting : call.phase = .waiting) (full : call.result = some result) :
    Consistent history (system.setCall index { call with result := none, phase := afterIngest result }) := by
  have stands := consistent.calls index call found
  have running : ¬call.phase.Returned := by
    rw [waiting]
    exact id
  have free : index ∉ system.holders := by
    intro held
    have empty := (stands.pending held).1
    rw [full] at empty
    cases empty
  refine consistent.setCall found ⟨fun held => absurd held free, fun nonempty => absurd rfl nonempty, ?_,
    fun accepted member => absurd (stands.done accepted member) running,
    fun abandoned => absurd (stands.left abandoned).1 running⟩
  intro accepted member
  cases stands.tracked accepted member with
  | delivering _ _ held => exact absurd (System.holder_of_busy held) free
  | delivered same _ held =>
    cases full.symm.trans held
    exact .enqueueing same rfl
  | enqueueing same phase =>
    rw [waiting] at phase
    cases phase
  | enqueued member => exact .enqueued member

theorem Consistent.enqueue {record receipt failure} (phase : call.phase = .enqueueing record receipt) :
    Consistent history { system.setCall index { call with phase := afterEnqueue record receipt failure } with
      enqueued := system.enqueued ++ [(index, { signed := call.signed, record, accepted := receipt })] } := by
  have stands := consistent.calls index call found
  have returned : (afterEnqueue record receipt failure).Returned := by
    cases failure <;> trivial
  have running : ¬call.phase.Returned := by
    rw [phase]
    exact id
  have idle : ¬call.Waits history index := fun waits => waits.not_enqueueing phase
  refine consistent.replace found rfl consistent.nodup (fun other different => ?_)
    ⟨fun held => absurd (stands.pending held).2 idle, fun full => absurd (stands.buffered full) idle, ?_,
      fun _ _ => returned, fun abandoned => absurd (stands.left abandoned).1 running⟩
  · exact ⟨id, fun _ => id, fun _ => id, fun accepted => by simp [different], Iff.rfl⟩
  · intro accepted member
    cases stands.tracked accepted member with
    | delivering _ waits held => exact absurd waits idle
    | delivered _ waits held => exact absurd waits idle
    | enqueueing same reached =>
      obtain ⟨rfl, rfl⟩ := Phase.enqueueing.inj (phase.symm.trans reached)
      refine .enqueued (mem_append_right _ (mem_singleton.mpr ?_))
      rw [same]
    | enqueued member => exact .enqueued (mem_append_left _ member)

theorem Consistent.abandon (waiting : call.phase = .waiting) (failure : Err) :
    Consistent (history ++ [.abandon index]) (system.setCall index { call with phase := .failed failure }) := by
  have stands := consistent.calls index call found
  have gone : Call.Waits (history ++ [.abandon index]) index { call with phase := .failed failure } :=
    .inr ⟨mem_append_right _ (mem_singleton.mpr rfl), trivial⟩
  refine consistent.replace found rfl consistent.nodup (fun other different => ?_)
    ⟨fun held => ⟨(stands.pending held).1, gone⟩, fun _ => gone, fun accepted member => ?_, fun _ _ => trivial,
      fun _ => ⟨trivial, fun accepted member => ?_⟩⟩
  · exact ⟨id, fun _ => id, fun _ => id, fun _ => Iff.rfl, by simp [different]⟩
  · cases stands.tracked accepted member with
    | delivering same _ held => exact .delivering same gone held
    | delivered same _ held => exact .delivered same gone held
    | enqueueing same phase =>
      rw [waiting] at phase
      cases phase
    | enqueued member => exact .enqueued member
  · have returned := stands.done accepted member
    rw [waiting] at returned
    exact returned

end

theorem Consistent.submit (signed : SignedClaim) :
    Consistent history { system with
      calls := system.calls ++ [{ signed, canceled := none, result := none, phase := .checking }] } := by
  refine consistent.move consistent.nodup fun other => ?_
  rcases Nat.lt_trichotomy other system.calls.length with old | rfl | beyond
  · exact .inl ⟨getElem?_append_left old, id, fun _ => id, fun _ => id, fun _ => Iff.rfl, Iff.rfl⟩
  · obtain ⟨free, untouched⟩ := consistent.unknown _ (getElem?_eq_none (le_rfl))
    exact .inr ⟨_, getElem?_concat_length, Untouched.stands
      ⟨untouched.unaccepted, untouched.unsent, untouched.stays⟩ rfl fun held => absurd held free⟩
  · refine .inl ⟨?_, id, fun _ => id, fun _ => id, fun _ => Iff.rfl, Iff.rfl⟩
    rw [getElem?_eq_none (Nat.le_of_lt beyond), getElem?_eq_none]
    simpa using Nat.succ_le_of_lt beyond

theorem Consistent.step {step : Step} (stepped : system.step step = some next) :
    Consistent (history ++ [step]) next := by
  cases step
  all_goals
    simp only [System.step, Option.bind_eq_bind, Option.bind_eq_some_iff, System.atPhase_eq_some, Option.pure_def,
      Option.some.injEq] at stepped
  case submit signed =>
    cases stepped
    exact (consistent.submit signed).mono (by simp)
  case cancel index cause =>
    obtain ⟨call, found, _, _, rfl⟩ := stepped
    refine (consistent.setCall found ?_).mono (by simp)
    exact (consistent.calls index call found).carry
      ⟨id, fun _ => id, fun _ => id, fun _ => Iff.rfl, Iff.rfl⟩ rfl rfl rfl
  case check index =>
    obtain ⟨call, ⟨found, checking⟩, rfl⟩ := stepped
    exact (consistent.early found (.inl checking) _).mono (by simp)
  case offer index =>
    obtain ⟨call, ⟨found, offering⟩, rfl⟩ := stepped
    exact (consistent.offer found offering).mono (by simp)
  case take =>
    split at stepped
    · cases stepped
    · rename_i index rest queued
      split at stepped
      · cases stepped
        exact (consistent.take queued).mono (by simp)
      · cases stepped
  case process index result =>
    obtain ⟨call, found, _, held, rfl⟩ := stepped
    exact (consistent.process found (by simpa [guard] using held)).mono (by simp)
  case deliver index =>
    obtain ⟨call, found, ⟨holder, answer⟩, held, result, rfl, rfl⟩ := stepped
    obtain rfl : holder = index := by simpa using find?_some held
    exact (consistent.deliver found (mem_of_find?_eq_some held)).mono (by simp)
  case receive index =>
    obtain ⟨call, ⟨found, waiting⟩, result, full, rfl⟩ := stepped
    exact (consistent.receive found waiting full).mono (by simp)
  case abandon index =>
    obtain ⟨call, ⟨found, waiting⟩, cause, _, rfl⟩ := stepped
    exact consistent.abandon found waiting _
  case enqueue index failure =>
    obtain ⟨call, found, stepped⟩ := stepped
    split at stepped
    · rename_i record receipt phase
      cases stepped
      exact (consistent.enqueue found phase).mono (by simp)
    all_goals cases stepped
  case shutdown =>
    cases stepped
    exact consistent.move consistent.nodup fun other =>
      .inl ⟨rfl, id, fun _ => id, fun _ => id, fun _ => Iff.rfl, by simp⟩

end Steps

theorem Consistent.new (options : Options) : Consistent [] (System.new options) where
  nodup := nodup_nil
  unknown index _ := ⟨by simp [System.new, System.holders], by simp [System.new], by simp [System.new], by simp⟩
  calls := by simp [System.new]

theorem run_consistent {options steps} (ran : Machine.run System.step (System.new options) steps = some system) :
    Consistent steps system := by
  refine Machine.run_keeps_history ?_ ran (Consistent.new options)
  exact fun _ _ _ _ consistent stepped => consistent.step stepped

section Progress

section

variable (found : system.calls[index]? = some call) (same : call.signed = accepted.signed)
include found same

theorem enqueue_finishes (phase : call.phase = .enqueueing accepted.record accepted.accepted) :
    ∃ last, Machine.run System.step system [.enqueue index none] = some last ∧
      (index, accepted) ∈ last.enqueued := by
  have stepped : system.step (.enqueue index none) = some { system.setCall index { call with
      phase := afterEnqueue accepted.record accepted.accepted none } with
      enqueued := system.enqueued ++ [(index, accepted)] } := by
    simp only [System.step, found, Option.bind_eq_bind, Option.bind_some, phase, same]
  exact ⟨_, Machine.run_cons_eq_some.mpr ⟨_, stepped, rfl⟩, mem_append_right _ (mem_singleton.mpr rfl)⟩

theorem receive_finishes (waiting : call.phase = .waiting) (full : call.result = some (newResult accepted)) :
    ∃ last, Machine.run System.step system [.receive index, .enqueue index none] = some last ∧
      (index, accepted) ∈ last.enqueued := by
  let after : Call := { call with result := none, phase := afterIngest (newResult accepted) }
  have stepped : system.step (.receive index) = some (system.setCall index after) := by
    simp only [System.step, System.atPhase_eq_some.mpr ⟨found, waiting⟩, full, Option.bind_eq_bind,
      Option.bind_some, Option.pure_def, after]
  obtain ⟨last, ran, member⟩ := enqueue_finishes (System.setCall_self found after) same rfl
  exact ⟨last, Machine.run_cons_eq_some.mpr ⟨_, stepped, ran⟩, member⟩

end

theorem deliver_finishes (consistent : Consistent history system)
    (found : system.calls[index]? = some call) (same : call.signed = accepted.signed)
    (waiting : call.phase = .waiting) (held : (index, some (newResult accepted)) ∈ system.busy) :
    ∃ last, Machine.run System.step system [.deliver index, .receive index, .enqueue index none] = some last ∧
      (index, accepted) ∈ last.enqueued := by
  have holder : system.busy.find? (fun entry => entry.1 = index) = some (index, some (newResult accepted)) := by
    have present : (system.busy.find? fun entry => entry.1 = index).isSome :=
      find?_isSome.mpr ⟨_, held, decide_eq_true rfl⟩
    obtain ⟨⟨other, answer⟩, first⟩ := Option.isSome_iff_exists.mp present
    obtain rfl : other = index := by simpa using find?_some first
    rw [first, consistent.held_unique (mem_of_find?_eq_some first) held]
  let after : Call := { call with result := some (newResult accepted) }
  have stepped : system.step (.deliver index) = some { system.setCall index after with
      busy := system.busy.filter fun entry => entry.1 ≠ index } := by
    simp only [System.step, found, holder, Option.bind_eq_bind, Option.bind_some, Option.pure_def, after]
  have placed : (System.calls { system.setCall index after with
      busy := system.busy.filter fun entry => entry.1 ≠ index })[index]? = some after :=
    System.setCall_self found after
  obtain ⟨last, ran, member⟩ := receive_finishes placed same waiting rfl
  exact ⟨last, Machine.run_cons_eq_some.mpr ⟨_, stepped, ran⟩, member⟩

end Progress

def handover (index : Nat) : List Step := [.deliver index, .receive index, .enqueue index none]

/-- A record that the processor newly accepted was enqueued by its call when the call returned,
exactly if the call did not leave through the end of its context. Before the call has returned,
its own steps lead to the batch service, whether or not its context has ended. -/
theorem accepted_is_enqueued_unless_abandoned {options : Options} {steps : List Step} {system : System}
    (ran : Machine.run System.step (System.new options) steps = some system)
    {index : Nat} {accepted : Accepted} (durable : (index, accepted) ∈ system.accepted) :
    (system.HasReturned index →
      ((index, accepted) ∈ system.enqueued ↔ Step.abandon index ∉ steps)) ∧
    (¬system.HasReturned index → ∃ later last, later.Sublist (handover index) ∧
      Machine.run System.step system later = some last ∧ (index, accepted) ∈ last.enqueued) := by
  have consistent := run_consistent ran
  obtain ⟨call, found⟩ : ∃ call, system.calls[index]? = some call := by
    by_contra missing
    have unknown := Option.eq_none_iff_forall_ne_some.mpr (not_exists.mp missing)
    exact (consistent.unknown index unknown).2.unaccepted accepted durable
  have stands := consistent.calls index call found
  have returned_iff : system.HasReturned index ↔ call.phase.Returned := by
    simp [System.HasReturned, found]
  rw [returned_iff]
  constructor
  · intro returned
    constructor
    · intro member abandoned
      exact (stands.left abandoned).2 accepted member
    · intro stayed
      have settled : ¬call.Waits steps index := by
        rintro (waiting | ⟨abandoned, -⟩)
        · rw [waiting] at returned
          exact returned
        · exact stayed abandoned
      cases stands.tracked accepted durable with
      | delivering same waits held => exact absurd waits settled
      | delivered same waits held => exact absurd waits settled
      | enqueueing same phase =>
        rw [phase] at returned
        exact absurd returned id
      | enqueued member => exact member
  · intro running
    have waiting : call.Waits steps index → call.phase = .waiting := by
      rintro (waiting | ⟨-, returned⟩)
      · exact waiting
      · exact absurd returned running
    cases stands.tracked accepted durable with
    | delivering same waits held =>
      obtain ⟨last, ran, member⟩ := deliver_finishes consistent found same (waiting waits) held
      exact ⟨_, last, List.Sublist.refl _, ran, member⟩
    | delivered same waits held =>
      obtain ⟨last, ran, member⟩ := receive_finishes found same (waiting waits) held
      exact ⟨_, last, List.sublist_cons_self _ _, ran, member⟩
    | enqueueing same phase =>
      obtain ⟨last, ran, member⟩ := enqueue_finishes found same phase
      exact ⟨_, last, by simp [handover], ran, member⟩
    | enqueued member => exact absurd (stands.done accepted member) running

namespace Sample

def settings : Options := { queueSize := 2, workers := 1 }

def claim : SignedClaim :=
  { (default : SignedClaim) with claim := { (default : ClientClaim) with idempotencyKey := "order-1" } }

def record : Accepted :=
  { (default : Accepted) with signed := claim, record := { (default : ServerRecord) with recordID := "r" } }

def canceled : List Step := [
  .submit claim, .check 0, .offer 0, .take,
  .cancel 0 (.text "context canceled"),
  .process 0 (newResult record), .abandon 0, .deliver 0,
  .submit claim, .check 1, .offer 1, .take,
  .process 1 { newResult record with idempotent := true }, .deliver 1, .receive 1]

def patient : List Step := [
  .submit claim, .check 0, .offer 0, .take,
  .cancel 0 (.text "context canceled"),
  .process 0 (newResult record), .deliver 0, .receive 0, .enqueue 0 none]

end Sample

open Sample

/-- Both calls are over, no job is left, and the record has never reached the batch service. -/
theorem canceled_call_strands_record : ∃ system,
    Machine.run System.step (System.new Sample.settings) Sample.canceled = some system ∧
      (0, Sample.record) ∈ system.accepted ∧ system.HasReturned 0 ∧ system.HasReturned 1 ∧
      system.holders = [] ∧ system.enqueued = [] :=
  ⟨_, rfl, by decide, ⟨_, rfl, trivial⟩, ⟨_, rfl, trivial⟩, rfl, rfl⟩

theorem accepted_is_enqueued_patient : ∃ system,
    Machine.run System.step (System.new Sample.settings) Sample.patient = some system ∧
      (0, Sample.record) ∈ system.enqueued := by
  have ran : ∃ system, Machine.run System.step (System.new Sample.settings) Sample.patient = some system ∧
      (0, Sample.record) ∈ system.accepted ∧ system.HasReturned 0 :=
    ⟨_, rfl, by decide, ⟨_, rfl, trivial⟩⟩
  obtain ⟨system, ran, durable, returned⟩ := ran
  refine ⟨system, ran, ?_⟩
  exact ((accepted_is_enqueued_unless_abandoned ran durable).1 returned).mpr (by decide)

end TrustDB.Ingest
