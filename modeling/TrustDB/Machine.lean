import Mathlib

/-!
Machines that take inputs one at a time, move on, and emit an output for each. The state after
a list of inputs is a left fold. A machine that cannot take every input in every state has runs
instead: the inputs that it could take one after the other.
-/

namespace Machine

variable {σ ι ο : Type} (next : σ → ι → σ) (output : σ → ι → ο)

def outputs : σ → List ι → List ο
  | _, [] => []
  | state, input :: rest => output state input :: outputs (next state input) rest

@[simp] theorem outputs_nil (state : σ) : outputs next output state [] = [] := rfl

@[simp] theorem outputs_cons (state : σ) (input : ι) (rest : List ι) :
    outputs next output state (input :: rest) =
      output state input :: outputs next output (next state input) rest := rfl

@[simp] theorem outputs_append (state : σ) (first second : List ι) :
    outputs next output state (first ++ second) =
      outputs next output state first ++ outputs next output (first.foldl next state) second := by
  induction first generalizing state with
  | nil => rfl
  | cons input rest ih => simp [ih]

@[simp] theorem outputs_length (state : σ) (inputs : List ι) :
    (outputs next output state inputs).length = inputs.length := by
  induction inputs generalizing state with
  | nil => rfl
  | cons input rest ih => simp [ih]

section

variable {step : σ → ι → Option σ} {state next : σ} {input : ι} {inputs : List ι}

def run (step : σ → ι → Option σ) : σ → List ι → Option σ
  | state, [] => some state
  | state, input :: rest => (step state input).bind fun next => run step next rest

@[simp] theorem run_nil : run step state [] = some state := rfl

theorem run_cons_eq_some : run step state (input :: inputs) = some next ↔
    ∃ between, step state input = some between ∧ run step between inputs = some next :=
  Option.bind_eq_some_iff

theorem run_append_eq_some {more} : run step state (inputs ++ more) = some next ↔
    ∃ between, run step state inputs = some between ∧ run step between more = some next := by
  induction inputs generalizing state with
  | nil => simp
  | cons input rest ih =>
    simp only [List.cons_append, run_cons_eq_some, ih]
    constructor
    · rintro ⟨first, stepped, between, ran, rest⟩
      exact ⟨between, ⟨first, stepped, ran⟩, rest⟩
    · rintro ⟨between, ⟨first, stepped, ran⟩, rest⟩
      exact ⟨first, stepped, between, ran, rest⟩

theorem run_keeps {holds : σ → Prop}
    (keeps : ∀ state input next, holds state → step state input = some next → holds next)
    (ran : run step state inputs = some next) (atStart : holds state) : holds next := by
  induction inputs generalizing state with
  | nil =>
    cases ran
    exact atStart
  | cons input rest ih =>
    obtain ⟨between, stepped, ran⟩ := run_cons_eq_some.mp ran
    exact ih ran (keeps _ _ _ atStart stepped)

theorem run_keeps_allowed {holds : σ → Prop} {allowed : ι → Prop}
    (keeps : ∀ state input next, allowed input → holds state → step state input = some next → holds next)
    (ran : run step state inputs = some next) (permitted : ∀ input ∈ inputs, allowed input)
    (atStart : holds state) : holds next := by
  induction inputs generalizing state with
  | nil =>
    cases ran
    exact atStart
  | cons input rest ih =>
    obtain ⟨between, stepped, ran⟩ := run_cons_eq_some.mp ran
    exact ih ran (fun other member => permitted other (List.mem_cons_of_mem _ member))
      (keeps _ _ _ (permitted input List.mem_cons_self) atStart stepped)

theorem run_keeps_history {holds : List ι → σ → Prop} {history}
    (keeps : ∀ history state input next, holds history state → step state input = some next →
      holds (history ++ [input]) next) (ran : run step state inputs = some next) (atStart : holds history state) :
    holds (history ++ inputs) next := by
  induction inputs generalizing state history with
  | nil =>
    cases ran
    rwa [List.append_nil]
  | cons input rest ih =>
    obtain ⟨between, stepped, ran⟩ := run_cons_eq_some.mp ran
    rw [List.append_cons]
    exact ih ran (keeps _ _ _ _ atStart stepped)

end

end Machine
