import TrustDB.Machine
import TrustDB.Parties
import TrustDB.Trusterr

/-!
Package `batch`, the queue of the service: calls of `enqueue` with their contexts, the worker that
collects batches, and `Shutdown`. Each input is one operation of one of them on the channels, the
lock or the flags; an operation that has to wait cannot be taken. An item is named by the call that
brings it. The projection of record statuses is left out.
-/

namespace TrustDB.Batch.Queue

open List Parties

def shuttingDown : Err := .new .failedPrecondition "batch service is shutting down"

def canceled (cause : Err) : Err := .wrap .deadlineExceeded "batch enqueue canceled" cause

/-- Where a call of `enqueue` is, named by the operation that comes next. -/
inductive Phase
  | selecting
  | recheck
  | rlock
  | examine
  | send
  | runlock
  | refuse
  | release (err : Err)
  | returned (err : Option Err)
  deriving DecidableEq, Repr

/-- The slots that a call holds for itself. -/
def Phase.holds : Phase → Nat
  | .recheck | .rlock | .examine | .send | .refuse | .release _ => 1
  | .selecting | .runlock | .returned _ => 0

/-- Whether the call is inside the read lock. -/
def Phase.reading : Phase → Bool
  | .examine | .send | .runlock | .refuse => true
  | _ => false

/-- How often the call has sent its item. -/
def Phase.sent : Phase → Nat
  | .runlock | .returned none => 1
  | _ => 0

/-- Where a call of `Shutdown` is that holds the write lock. -/
inductive Stage
  | examine
  | announce
  | closeQueue
  | unlock
  deriving DecidableEq, Repr

inductive Worker (Call : Type)
  | receiving
  | freeing (item : Call)
  | returning
  | done
  deriving DecidableEq, Repr

structure State (Call : Type) where
  phase : Call → Phase
  ctxErr : Call → Option Err
  queueSlots : Nat
  queue : List Call
  queueClosed : Bool
  closed : Bool
  shutdownStarted : Bool
  writer : Option Stage
  worker : Worker Call
  batch : List Call
  timer : Bool
  /-- The arguments of the calls of `commit`, oldest first. -/
  commits : List (List Call)
  finishing : Bool
  shutdownDone : Bool
  /-- A send on a closed channel, or a second close. -/
  panicked : Bool

inductive Action (Call : Type)
  | cancel (call : Call) (cause : Err)
  | abandon (call : Call)
  | turnAway (call : Call)
  | advance (call : Call)
  | work
  | fire
  | lock
  | shutdown
  | finishShutdown
  deriving DecidableEq, Repr

variable {Call : Type} [Fintype Call] [DecidableEq Call] {queueSize maxRecords : Nat} {s next : State Call}

def start : State Call where
  phase _ := .selecting
  ctxErr _ := none
  queueSlots := 0
  queue := []
  queueClosed := false
  closed := false
  shutdownStarted := false
  writer := none
  worker := .receiving
  batch := []
  timer := false
  commits := []
  finishing := false
  shutdownDone := false
  panicked := false

namespace State

def move (s : State Call) (call : Call) (phase : Phase) : State Call :=
  { s with phase := Function.update s.phase call phase }

/-- The next operation of `enqueue`. -/
def enqueue (queueSize : Nat) (s : State Call) (call : Call) : Option (State Call) :=
  match s.phase call with
  | .selecting =>
    if s.queueSlots < queueSize then some { s.move call .recheck with queueSlots := s.queueSlots + 1 } else none
  | .recheck =>
    match s.ctxErr call with
    | some cause => some (s.move call (.release (canceled cause)))
    | none => some (s.move call .rlock)
  | .rlock => if s.writer = none then some (s.move call .examine) else none
  | .examine => some (s.move call (if s.closed then .refuse else .send))
  | .send =>
    if s.queueClosed then some { s with panicked := true }
    else if s.queue.length < queueSize then some { s.move call .runlock with queue := s.queue ++ [call] }
    else none
  | .runlock => some (s.move call (.returned none))
  | .refuse => some (s.move call (.release shuttingDown))
  | .release err =>
    if s.queueSlots = 0 then none
    else some { s.move call (.returned (some err)) with queueSlots := s.queueSlots - 1 }
  | .returned _ => none

def commit (s : State Call) (items : List Call) : State Call :=
  { s with commits := s.commits ++ [items], batch := [], timer := false }

/-- The next operation of `worker`, other than the timer's. -/
def work (maxRecords : Nat) (s : State Call) : Option (State Call) :=
  match s.worker with
  | .receiving =>
    match s.queue with
    | item :: rest => some { s with worker := .freeing item, queue := rest }
    | [] => if s.queueClosed then some { s.commit s.batch with worker := .returning } else none
  | .freeing item =>
    if s.queueSlots = 0 then none
    else
      let batch := s.batch ++ [item]
      let freed := { s with worker := .receiving, queueSlots := s.queueSlots - 1 }
      if maxRecords ≤ batch.length then some (freed.commit batch)
      else some { freed with batch, timer := s.timer || batch.length = 1 }
  | .returning => some { s with worker := .done }
  | .done => none

/-- The next operation of `Shutdown` inside the write lock. -/
def shutdown (s : State Call) : Option (State Call) :=
  match s.writer with
  | none => none
  | some .examine =>
    if s.closed then some { s with writer := none } else some { s with closed := true, writer := some .announce }
  | some .announce =>
    if s.shutdownStarted then some { s with panicked := true }
    else some { s with shutdownStarted := true, writer := some .closeQueue }
  | some .closeQueue =>
    if s.queueClosed then some { s with panicked := true }
    else some { s with queueClosed := true, writer := some .unlock }
  | some .unlock => some { s with writer := none, finishing := true }

end State

def step (queueSize maxRecords : Nat) (s : State Call) : Action Call → Option (State Call)
  | .cancel call cause => some { s with ctxErr := Function.update s.ctxErr call ((s.ctxErr call).or (some cause)) }
  | .abandon call =>
    match s.phase call, s.ctxErr call with
    | .selecting, some cause => some (s.move call (.returned (some (canceled cause))))
    | _, _ => none
  | .turnAway call =>
    if s.phase call = .selecting ∧ s.shutdownStarted then some (s.move call (.returned (some shuttingDown))) else none
  | .advance call => s.enqueue queueSize call
  | .work => s.work maxRecords
  | .fire => if s.worker = .receiving ∧ s.timer then some (s.commit s.batch) else none
  | .lock =>
    if s.writer = none ∧ ∀ call, (s.phase call).reading = false then some { s with writer := some .examine } else none
  | .shutdown => s.shutdown
  | .finishShutdown =>
    if s.finishing ∧ s.worker = .done then some { s with finishing := false, shutdownDone := true } else none

section Invariant

def Worker.held : Worker Call → List Call
  | .freeing item => [item]
  | _ => []

def Worker.stopped : Worker Call → Bool
  | .returning | .done => true
  | _ => false

/-- The items that were sent, wherever they are. -/
def State.items (s : State Call) : List Call := s.queue ++ s.worker.held ++ s.batch ++ s.commits.flatten

/-- How far the one closing call of `Shutdown` is. -/
def State.Staged (s : State Call) : Prop :=
  match s.writer with
  | some .announce => s.closed = true ∧ s.shutdownStarted = false ∧ s.queueClosed = false
  | some .closeQueue => s.closed = true ∧ s.shutdownStarted = true ∧ s.queueClosed = false
  | _ => s.shutdownStarted = s.closed ∧ s.queueClosed = s.closed

structure Ok (queueSize : Nat) (s : State Call) : Prop where
  slots : s.queueSlots = s.queue.length + s.worker.held.length + total Phase.holds s.phase
  room : s.queueSlots ≤ queueSize
  locked : s.writer ≠ none → ∀ call, (s.phase call).reading = false
  staged : s.Staged
  sending : ∀ call, s.phase call = .send → s.closed = false
  items : ∀ call, s.items.count call = (s.phase call).sent
  stopped : s.worker.stopped = true → s.queueClosed = true ∧ s.queue = [] ∧ s.batch = []
  finished : s.shutdownDone = true → s.worker = .done
  calm : s.panicked = false

theorem ok_start : Ok queueSize (start : State Call) where
  slots := by simp [start, total, Worker.held, Phase.holds]
  room := Nat.zero_le _
  locked := nofun
  staged := ⟨rfl, rfl⟩
  sending := nofun
  items _ := rfl
  stopped := nofun
  finished := nofun
  calm := rfl

section

variable (ok : Ok queueSize s)
include ok

theorem Ok.move {call : Call} {source target : Phase} {queueSlots : Nat} {queue : List Call}
    (phase : s.phase call = source) (room : queueSlots ≤ queueSize)
    (balance : queueSlots + s.queue.length + source.holds = s.queueSlots + queue.length + target.holds)
    (reads : target.reading = true → s.writer = none ∨ source.reading = true)
    (sends : target = .send → s.closed = false)
    (sent : ∀ other, queue.count other + (if other = call then source.sent else 0) =
      s.queue.count other + if other = call then target.sent else 0)
    (drained : s.worker.stopped = true → queue = []) :
    Ok queueSize { s.move call target with queueSlots, queue } := by
  subst phase
  refine { ok with
    slots := ?_, room, locked := fun held other => ?_, sending := fun other phase => ?_, items := fun other => ?_
    stopped := fun stopped => ⟨(ok.stopped stopped).1, drained stopped, (ok.stopped stopped).2.2⟩ }
  · have moved := total_update Phase.holds s.phase call target
    have before := ok.slots
    change queueSlots = queue.length + s.worker.held.length + total Phase.holds (Function.update s.phase call target)
    omega
  all_goals by_cases same : other = call
  · subst same
    have free := mt reads
    simp only [State.move, Function.update_self]
    simp only [ok.locked held other, Bool.false_eq_true, or_false, Bool.not_eq_true] at free
    exact free held
  · simpa [State.move, same] using ok.locked held other
  · subst same
    exact sends (by simpa [State.move] using phase)
  · exact ok.sending other (by simpa [State.move, same] using phase)
  all_goals
    have before := ok.items other
    have change := sent other
    simp only [State.items, State.move, count_append] at before ⊢
    simp only [same, if_true, if_false] at change
  · subst same
    rw [Function.update_self]
    omega
  · rw [Function.update_of_ne same]
    omega

theorem Ok.pass {call : Call} {source target : Phase} (phase : s.phase call = source)
    (holds : source.holds = target.holds) (sent : source.sent = target.sent)
    (reads : target.reading = true → s.writer = none ∨ source.reading = true)
    (sends : target = .send → s.closed = false) : Ok queueSize (s.move call target) :=
  ok.move phase ok.room (by rw [holds]) reads sends (fun _ => by rw [sent]) fun stopped => (ok.stopped stopped).2.1

theorem Ok.queueOpen {call : Call} (sending : s.phase call = .send) : s.queueClosed = false := by
  have unclosed := ok.sending call sending
  have free : s.writer = none := by
    by_contra held
    have outside := ok.locked held call
    rw [sending] at outside
    cases outside
  have staged := ok.staged
  rw [State.Staged, free] at staged
  exact staged.2.trans unclosed

theorem Ok.queueRoom {call : Call} (holds : (s.phase call).holds = 1) :
    s.queue.length < s.queueSlots := by
  have counted := le_total Phase.holds s.phase call
  have slots := ok.slots
  omega

theorem Ok.enqueue {call : Call} (moved : s.enqueue queueSize call = some next) :
    Ok queueSize next := by
  have drained : s.worker.stopped = true → s.queue = [] := fun stopped => (ok.stopped stopped).2.1
  have room := ok.room
  unfold State.enqueue at moved
  split at moved <;> rename_i phase
  · split at moved <;> cases moved
    rename_i free
    exact ok.move phase free (by simp [Phase.holds, State.move]; omega) nofun nofun (fun _ => rfl) drained
  · split at moved <;> cases moved <;> exact ok.pass phase rfl rfl nofun nofun
  · split at moved <;> cases moved
    rename_i free
    exact ok.pass phase rfl rfl (fun _ => .inl free) nofun
  · cases moved
    split
    · exact ok.pass phase rfl rfl (fun _ => .inr rfl) nofun
    · rename_i unclosed
      exact ok.pass phase rfl rfl (fun _ => .inr rfl) fun _ => Bool.not_eq_true _ ▸ unclosed
  · rw [ok.queueOpen phase, if_neg nofun] at moved
    split at moved <;> cases moved
    refine ok.move phase room (by simp [Phase.holds, State.move]; omega) (fun _ => .inr rfl) nofun (fun other => ?_)
      fun stopped => ?_
    · by_cases same : other = call <;> simp [same, Phase.sent, Ne.symm]
    · cases (ok.queueOpen phase).symm.trans (ok.stopped stopped).1
  · cases moved
    exact ok.pass phase rfl rfl nofun nofun
  · cases moved
    exact ok.pass phase rfl rfl nofun nofun
  · split at moved <;> cases moved
    exact ok.move phase (by omega) (by simp [Phase.holds, State.move]; omega) nofun nofun (fun _ => rfl) drained
  · cases moved

theorem Ok.commit : Ok queueSize (s.commit s.batch) :=
  { ok with
    items := by
      intro call
      refine Eq.trans ?_ (ok.items call)
      simp only [State.items, State.commit, flatten_append, flatten_singleton, count_append,
        count_nil]
      omega
    stopped := fun stopped => ⟨(ok.stopped stopped).1, (ok.stopped stopped).2.1, rfl⟩ }

theorem Ok.work (moved : s.work maxRecords = some next) : Ok queueSize next := by
  have room := ok.room
  have slots := ok.slots
  have unfinished : s.worker ≠ .done → s.shutdownDone = true → False :=
    fun other finished => other (ok.finished finished)
  unfold State.work at moved
  split at moved <;> rename_i worker
  · rw [worker] at slots unfinished
    split at moved
    · rename_i item rest queue
      cases moved
      rw [queue] at slots
      refine { ok with slots := ?_, items := fun call => ?_, stopped := nofun, finished := fun finished => ?_ }
      · simpa [Worker.held] using slots
      · rw [← ok.items call]
        simp only [State.items, Worker.held, worker, queue, count_append, count_cons, count_nil]
        omega
      · exact (unfinished nofun finished).elim
    · rename_i queue
      split at moved <;> cases moved
      rename_i closed
      exact { ok.commit with
        slots := by simpa [State.commit, Worker.held] using slots
        items := fun call => by
          rw [← ok.commit.items call]
          simp [State.items, State.commit, Worker.held, worker]
        stopped := fun _ => ⟨closed, queue, rfl⟩
        finished := fun finished => (unfinished nofun finished).elim }
  · rename_i item
    rw [worker] at slots unfinished
    split at moved
    · cases moved
    -- the item joins the batch, and then the batch may be handed over
    · have joined : Ok queueSize { s with
          worker := .receiving, queueSlots := s.queueSlots - 1, batch := s.batch ++ [item] } :=
        { ok with
          slots := by
            simp only [Worker.held, length_nil, length_singleton] at slots ⊢
            omega
          room := Nat.le_trans (Nat.sub_le _ _) room
          items := fun call => by
            rw [← ok.items call]
            simp only [State.items, Worker.held, worker, count_append, count_nil]
            omega
          stopped := nofun
          finished := fun finished => (unfinished nofun finished).elim }
      simp only at moved
      split at moved <;> cases moved
      · exact joined.commit
      · exact { joined with }
  · cases moved
    rw [worker] at slots
    have stopped := ok.stopped (by rw [worker]; rfl)
    exact { ok with
      slots := slots
      items := fun call => by
        rw [← ok.items call]
        simp [State.items, Worker.held, worker]
      stopped := fun _ => stopped
      finished := fun _ => rfl }
  · cases moved

theorem Ok.shutdown (moved : s.shutdown = some next) : Ok queueSize next := by
  have staged := ok.staged
  unfold State.shutdown at moved
  unfold State.Staged at staged
  split at moved <;> rename_i writer
  · cases moved
  all_goals
    rw [writer] at staged
    have outside := ok.locked (by rw [writer]; nofun)
  · split at moved <;> cases moved
    · exact { ok with locked := nofun, staged := staged }
    · rename_i unclosed
      refine { ok with locked := fun _ => outside, staged := ?_, sending := fun call phase => ?_ }
      · exact ⟨rfl, staged.1.trans (Bool.not_eq_true _ ▸ unclosed), staged.2.trans (Bool.not_eq_true _ ▸ unclosed)⟩
      -- a call about to send is inside the read lock
      · have reading := outside call
        rw [show s.phase call = .send from phase] at reading
        cases reading
  · rw [if_neg (by rw [staged.2.1]; nofun)] at moved
    cases moved
    exact { ok with locked := fun _ => outside, staged := ⟨staged.1, rfl, staged.2.2⟩ }
  · rw [if_neg (by rw [staged.2.2]; nofun)] at moved
    cases moved
    exact { ok with
      locked := fun _ => outside
      staged := ⟨staged.2.1.trans staged.1.symm, staged.1.symm⟩
      stopped := fun stopped => ⟨rfl, (ok.stopped stopped).2⟩ }
  · cases moved
    exact { ok with locked := nofun, staged := staged }

theorem Ok.step {action : Action Call} (moved : step queueSize maxRecords s action = some next) :
    Ok queueSize next := by
  cases action with
  | cancel call cause =>
    cases moved
    exact { ok with }
  | abandon call =>
    simp only [Queue.step] at moved
    split at moved <;> cases moved
    rename_i phase _
    exact ok.pass phase rfl rfl nofun nofun
  | turnAway call =>
    simp only [Queue.step] at moved
    split at moved <;> cases moved
    rename_i waiting
    exact ok.pass waiting.1 rfl rfl nofun nofun
  | advance call => exact ok.enqueue moved
  | work => exact ok.work moved
  | fire =>
    simp only [Queue.step] at moved
    split at moved <;> cases moved
    exact ok.commit
  | lock =>
    simp only [Queue.step] at moved
    split at moved <;> cases moved
    rename_i free
    have staged := ok.staged
    rw [State.Staged, free.1] at staged
    exact { ok with locked := fun _ => free.2, staged := staged }
  | shutdown => exact ok.shutdown moved
  | finishShutdown =>
    simp only [Queue.step] at moved
    split at moved <;> cases moved
    rename_i ready
    exact { ok with finished := fun _ => ready.2 }

end

end Invariant

/-- In every run, slots cover the queue and the calls that hold one; a call inside the read lock can
always go on, nothing panics, a call that failed holds no slot, and once the shutdown is done the
item of every call that succeeded was handed to `commit` once. -/
theorem enqueue_run_safe {inputs : List (Action Call)}
    (ran : Machine.run (step queueSize maxRecords) start inputs = some s) :
    s.queueSlots = s.queue.length + s.worker.held.length + total Phase.holds s.phase ∧ s.queueSlots ≤ queueSize ∧
    (∀ call, s.phase call = .send → s.queueClosed = false ∧ s.queue.length < queueSize) ∧
    (∀ call, (s.phase call).reading = true → (step queueSize maxRecords s (.advance call)).isSome) ∧
    (∀ call err, s.phase call = .release err → 0 < s.queueSlots) ∧
    (∀ item, s.worker = .freeing item → 0 < s.queueSlots) ∧ s.panicked = false ∧
    (∀ call err, s.phase call = .returned (some err) → (s.phase call).holds = 0 ∧ call ∉ s.items) ∧
    (s.shutdownDone = true → ∀ call, s.phase call = .returned none → s.commits.flatten.count call = 1) := by
  have ok : Ok queueSize s := Machine.run_keeps (fun _ _ _ ok moved => ok.step moved) ran ok_start
  have room : ∀ call, s.phase call = .send → s.queueClosed = false ∧ s.queue.length < queueSize :=
    fun call phase => ⟨ok.queueOpen phase, Nat.lt_of_lt_of_le (ok.queueRoom (by rw [phase]; rfl)) ok.room⟩
  refine ⟨ok.slots, ok.room, room, fun call reading => ?_, fun call err phase => ?_, fun item worker => ?_, ok.calm,
    fun call err phase => ?_, fun finished call phase => ?_⟩
  · by_cases sending : s.phase call = .send
    · simp [Queue.step, State.enqueue, sending, room call sending]
    · cases phase : s.phase call <;> simp_all [Queue.step, State.enqueue, Phase.reading]
  · exact Nat.zero_lt_of_lt (ok.queueRoom (by rw [phase]; rfl))
  · have slots := ok.slots
    rw [worker] at slots
    simp only [Worker.held, length_singleton] at slots
    omega
  · have counted := ok.items call
    rw [phase] at counted ⊢
    exact ⟨rfl, count_eq_zero.mp counted⟩
  · have worker := ok.finished finished
    have counted := ok.items call
    obtain ⟨_, queue, batch⟩ := ok.stopped (by rw [worker]; rfl)
    rw [State.items, queue, batch, worker, phase] at counted
    simpa [Worker.held, Phase.sent] using counted

def twoCalls : List (Action Bool) :=
  [.advance true, .advance true, .advance true, .advance true, .advance true, .advance true, .work, .work,
    .advance false, .advance false, .lock, .shutdown, .shutdown, .shutdown, .shutdown, .advance false, .advance false,
    .advance false, .advance false, .work, .work, .finishShutdown]

theorem enqueue_run_safe_two : ∃ s : State Bool, Machine.run (step 1 4) start twoCalls = some s ∧
    s.shutdownDone = true ∧ s.phase false = .returned (some shuttingDown) ∧ s.commits.flatten.count true = 1 := by
  refine ⟨_, rfl, rfl, rfl, ?_⟩
  have ran : Machine.run (step 1 4) start twoCalls = some _ := rfl
  exact (enqueue_run_safe ran).2.2.2.2.2.2.2.2 rfl true rfl

end TrustDB.Batch.Queue
