import Mathlib

/-!
Inversion of computations in `Except`: what a successful run says about its parts. For
computations that also leave a state behind, rules that carry a postcondition through a
chain of steps, one for success and one for failure.
-/

namespace Result

open List

variable {ε α β : Type}

@[simp] theorem bind_eq_ok {first : Except ε α} {next : α → Except ε β} {result : β} :
    (first >>= next) = .ok result ↔ ∃ value, first = .ok value ∧ next value = .ok result := by
  cases first <;> simp [bind, Except.bind]

theorem bind_eq_error {first : Except ε α} {next : α → Except ε β} {failure : ε} :
    (first >>= next) = .error failure ↔
      first = .error failure ∨ ∃ value, first = .ok value ∧ next value = .error failure := by
  cases first <;> simp [bind, Except.bind]

@[simp] theorem ok_bind (value : α) (next : α → Except ε β) :
    ((Except.ok value : Except ε α) >>= next) = next value := rfl

@[simp] theorem error_bind (failure : ε) (next : α → Except ε β) :
    ((Except.error failure : Except ε α) >>= next) = .error failure := rfl

@[simp] theorem pure_eq_ok (value : α) : (pure value : Except ε α) = .ok value := rfl

theorem return_eq_ok {value result : α} : (pure value : Except ε α) = .ok result ↔ value = result := by simp

@[simp] theorem throw_eq_error (failure : ε) : (throw failure : Except ε α) = .error failure := rfl

/-- Stops with `failure` when the condition holds. -/
def reject (condition : Prop) [Decidable condition] (failure : ε) : Except ε Unit :=
  if condition then .error failure else .ok ()

@[simp] theorem reject_eq_ok {condition : Prop} [Decidable condition] {failure : ε} {result : Unit} :
    reject condition failure = .ok result ↔ ¬condition := by
  unfold reject
  split <;> simp_all

theorem reject_eq_error {condition : Prop} [Decidable condition] {failure other : ε} :
    reject condition failure = .error other ↔ condition ∧ failure = other := by
  unfold reject
  split <;> simp_all

theorem reject_of_not {condition : Prop} [Decidable condition] {failure : ε} (passes : ¬condition) :
    reject condition failure = .ok () := by
  rw [reject, if_neg passes]

def failure? : Except ε α → Option ε
  | .error failure => some failure
  | .ok _ => none

def raise : Option ε → Except ε Unit
  | some failure => .error failure
  | none => .ok ()

@[simp] theorem raise_eq_ok {failure : Option ε} {result : Unit} :
    raise failure = .ok result ↔ failure = none := by
  cases failure <;> simp [raise]

theorem raise_eq_error {failure : Option ε} {other : ε} :
    raise failure = .error other ↔ failure = some other := by
  cases failure <;> simp [raise]

@[simp] theorem mapError_eq_ok {first : Except ε α} {relabel : ε → β} {result : α} :
    first.mapError relabel = .ok result ↔ first = .ok result := by
  cases first <;> simp [Except.mapError]

theorem mapM_eq_ok {items : List α} {step : α → Except ε β} {answer : α → β}
    (each : ∀ item ∈ items, step item = .ok (answer item)) :
    items.mapM step = .ok (items.map answer) := by
  induction items with
  | nil => rfl
  | cons item rest ih =>
    rw [mapM_cons, each item mem_cons_self, ok_bind,
      ih fun other member => each other (mem_cons_of_mem item member)]
    rfl

theorem forM_eq_ok {items : List α} {step : α → Except ε Unit} {done : Unit} :
    items.forM step = .ok done ↔ ∀ item ∈ items, step item = .ok () := by
  induction items with
  | nil =>
    change Except.ok () = Except.ok done ↔ _
    simp
  | cons item rest ih =>
    change (step item >>= fun _ => rest.forM step) = _ ↔ _
    rw [bind_eq_ok, forall_mem_cons]
    simp only [ih]
    exact ⟨fun ⟨_, first, later⟩ => ⟨first, later⟩, fun ⟨first, later⟩ => ⟨(), first, later⟩⟩

theorem toOption_eq_some {outcome : Except ε α} {value : α} :
    outcome.toOption = some value ↔ outcome = .ok value := by
  cases outcome <;> simp [Except.toOption]

theorem toOption_map_eq_some {outcome : Except ε α} {view : α → β} {seen : β} :
    outcome.toOption.map view = some seen ↔ ∃ value, outcome = .ok value ∧ view value = seen := by
  cases outcome <;> simp [Except.toOption]

inductive Similar (related : α → β → Prop) : Except ε α → Except ε β → Prop
  | ok {value : α} {image : β} : related value image → Similar related (.ok value) (.ok image)
  | error (failure : ε) : Similar related (.error failure) (.error failure)

theorem Similar.bind {γ δ : Type} {related : α → β → Prop} {then_ : γ → δ → Prop} {first : Except ε α}
    {second : Except ε β} {next : α → Except ε γ} {other : β → Except ε δ} (similar : Similar related first second)
    (continued : ∀ value image, related value image → Similar then_ (next value) (other image)) :
    Similar then_ (first >>= next) (second >>= other) := by
  cases similar with
  | ok reached => exact continued _ _ reached
  | error failure => exact .error failure

theorem Similar.after {γ δ : Type} {then_ : γ → δ → Prop} {first : Except ε α} {next : α → Except ε γ}
    {other : α → Except ε δ} (continued : ∀ value, Similar then_ (next value) (other value)) :
    Similar then_ (first >>= next) (first >>= other) := by
  cases first with
  | ok value => exact continued value
  | error failure => exact .error failure

theorem Similar.mapError {δ : Type} {related : α → β → Prop} {first : Except ε α} {second : Except ε β}
    {relabel : ε → δ} (similar : Similar related first second) :
    Similar related (first.mapError relabel) (second.mapError relabel) := by
  cases similar with
  | ok reached => exact .ok reached
  | error failure => exact .error (relabel failure)

theorem Similar.forward {related : α → β → Prop} {first : Except ε α} {second : Except ε β} {value : α}
    (similar : Similar related first second) (reached : first = .ok value) :
    ∃ image, second = .ok image ∧ related value image := by
  subst reached
  cases similar with
  | ok holds => exact ⟨_, rfl, holds⟩

theorem Similar.backward {related : α → β → Prop} {first : Except ε α} {second : Except ε β} {image : β}
    (similar : Similar related first second) (reached : second = .ok image) :
    ∃ value, first = .ok value ∧ related value image := by
  subst reached
  cases similar with
  | ok holds => exact ⟨_, rfl, holds⟩

section

def Finishes (run : ExceptT ε Option α) (value : α) : Prop := run.run = some (.ok value)

instance [DecidableEq α] (run : ExceptT ε Option α) (value : α) : Decidable (Finishes run value) :=
  match outcome : run.run with
  | some (.ok other) =>
    decidable_of_iff (other = value) (by simp [Finishes, outcome])
  | some (.error _) => isFalse (by simp [Finishes, outcome])
  | none => isFalse (by simp [Finishes, outcome])

@[simp] theorem finishes_bind {first : ExceptT ε Option α} {next : α → ExceptT ε Option β}
    {result : β} :
    Finishes (first >>= next) result ↔
      ∃ value, Finishes first value ∧ Finishes (next value) result := by
  unfold Finishes
  rw [ExceptT.run_bind]
  rcases first.run with _ | failure | value
  · simp
  · simp
  · simp

@[simp] theorem finishes_mk {outcome : Except ε α} {value : α} :
    Finishes (ExceptT.mk (some outcome)) value ↔ outcome = .ok value := by
  simp [Finishes]

@[simp] theorem finishes_pure {given value : α} :
    Finishes (pure given : ExceptT ε Option α) value ↔ given = value := by
  change (some (Except.ok given) = some (Except.ok value)) ↔ _
  simp

@[simp] theorem finishes_adapt {δ : Type} {run : ExceptT ε Option α} {relabel : ε → δ} {value : α} :
    Finishes (run.adapt relabel) value ↔ Finishes run value := by
  change (run.run.map (Except.mapError relabel) = some (.ok value)) ↔ run.run = some (.ok value)
  rcases run.run with _ | failure | other <;> simp [Except.mapError]

@[simp] theorem finishes_lift {answer value} :
    Finishes (ExceptT.lift answer : ExceptT ε Option α) value ↔ answer = some value := by
  change (answer.map Except.ok = some (Except.ok value)) ↔ _
  cases answer <;> simp

end

section

variable {σ : Type}

def chain : Except ε α × σ → (α → σ → Except ε β × σ) → Except ε β × σ
  | (.ok value, state), next => next value state
  | (.error failure, state), _ => (.error failure, state)

@[simp] theorem chain_ok (value : α) (state : σ) (next : α → σ → Except ε β × σ) :
    chain (.ok value, state) next = next value state := rfl

@[simp] theorem chain_error (failure : ε) (state : σ) (next : α → σ → Except ε β × σ) :
    chain (.error failure, state) next = (.error failure, state) := rfl

theorem chain_eq_ok {run : Except ε α × σ} {next : α → σ → Except ε β × σ} {result : β} {last : σ} :
    chain run next = (.ok result, last) ↔
      ∃ value state, run = (.ok value, state) ∧ next value state = (.ok result, last) := by
  obtain ⟨outcome, state⟩ := run
  cases outcome <;> simp [chain]

theorem check_eq_ok {checks : Except ε α} {state last : σ} {next : α → σ → Except ε β × σ} {result : β} :
    chain (checks, state) next = (.ok result, last) ↔
      ∃ value, checks = .ok value ∧ next value state = (.ok result, last) := by
  cases checks <;> simp

theorem chain_chain {γ : Type} (run : Except ε α × σ) (second : α → σ → Except ε β × σ)
    (third : β → σ → Except ε γ × σ) :
    chain (chain run second) third = chain run fun value state => chain (second value state) third := by
  obtain ⟨outcome, state⟩ := run
  cases outcome <;> rfl

/-- A run ends well with `good`, or fails with `bad`. -/
def Ensures (run : Except ε α × σ) (good : α → σ → Prop) (bad : ε → σ → Prop) : Prop :=
  match run with
  | (.ok value, state) => good value state
  | (.error failure, state) => bad failure state

theorem Ensures.chain {run next} {middle : α → σ → Prop} {good : β → σ → Prop} {bad : ε → σ → Prop}
    (first : Ensures run middle bad)
    (second : ∀ value state, middle value state → Ensures (next value state) good bad) :
    Ensures (chain run next) good bad := by
  match run, first with
  | (.ok value, state), reached => exact second value state reached
  | (.error failure, state), failed => exact failed

theorem Ensures.mono {run} {good weaker : α → σ → Prop} {bad worse : ε → σ → Prop}
    (ensured : Ensures run good bad) (better : ∀ value state, good value state → weaker value state)
    (still : ∀ failure state, bad failure state → worse failure state) : Ensures run weaker worse := by
  match run, ensured with
  | (.ok value, state), reached => exact better value state reached
  | (.error failure, state), failed => exact still failure state failed

theorem Ensures.state {run : Except ε α × σ} {kept : σ → Prop}
    (ensured : Ensures run (fun _ => kept) (fun _ => kept)) : kept run.2 := by
  match run, ensured with
  | (.ok value, state), reached => exact reached
  | (.error failure, state), failed => exact failed

theorem Ensures.of_ok {run} {good : α → σ → Prop} {bad : ε → σ → Prop} {value} (ensured : Ensures run good bad)
    (succeeded : run.1 = .ok value) : good value run.2 := by
  obtain ⟨outcome, state⟩ := run
  subst succeeded
  exact ensured

theorem Ensures.of_error {run} {good : α → σ → Prop} {bad : ε → σ → Prop} {failure} (ensured : Ensures run good bad)
    (failed : run.1 = .error failure) : bad failure run.2 := by
  obtain ⟨outcome, state⟩ := run
  subst failed
  exact ensured

theorem Ensures.check {checks : Except ε α} {state : σ} {next : α → σ → Except ε β × σ} {good : β → σ → Prop}
    {bad : ε → σ → Prop} (failing : ∀ failure, checks = .error failure → bad failure state)
    (passing : ∀ value, checks = .ok value → Ensures (next value state) good bad) :
    Ensures (Result.chain (checks, state) next) good bad := by
  cases outcome : checks with
  | ok value => exact passing value outcome
  | error failure => exact failing failure outcome

theorem Ensures.relabel {δ : Type} {run : Except ε α × σ} {label : ε → δ} {good : α → σ → Prop} {bad : σ → Prop}
    (ensured : Ensures run good fun _ => bad) : Ensures (run.1.mapError label, run.2) good fun _ => bad := by
  match run, ensured with
  | (.ok value, state), reached => exact reached
  | (.error failure, state), failed => exact failed

theorem Ensures.last {checks state} {good : α → σ → Prop} {bad : ε → σ → Prop}
    (failing : ∀ failure, checks = .error failure → bad failure state)
    (passing : ∀ value, checks = .ok value → good value state) : Ensures (checks, state) good bad := by
  cases outcome : checks with
  | ok value => exact passing value outcome
  | error failure => exact failing failure outcome

end

end Result
