import Mathlib.Logic.Relation

/-! Runs of a machine whose steps take an input.

`allowed` says which inputs may come in a state, so that a run is one of the
machine in an environment. Concrete runs are found by executing their inputs.
-/

set_option autoImplicit false

namespace Machine
variable {σ ι : Type} (step : σ → ι → Option σ) (allowed : σ → ι → Prop)

def Takes (state next : σ) : Prop := ∃ input, allowed state input ∧ step state input = some next

abbrev Run : σ → σ → Prop := Relation.ReflTransGen (Takes step allowed)

/-- The state after some inputs, if each of them is allowed and enabled. -/
def execute [∀ state input, Decidable (allowed state input)] : List ι → σ → Option σ
  | [], state => some state
  | input :: inputs, state =>
    if allowed state input then (step state input).bind (execute inputs) else none

variable {step allowed} {start state : σ}

theorem execute_cons [∀ state input, Decidable (allowed state input)] {input : ι} {inputs : List ι} :
    execute step allowed (input :: inputs) start = some state ↔
      allowed start input ∧ ∃ next, step start input = some next ∧ execute step allowed inputs next = some state := by
  rw [execute]
  by_cases may : allowed start input
  · rw [if_pos may, Option.bind_eq_some_iff]
    exact (and_iff_right may).symm
  · rw [if_neg may]
    exact iff_of_false (fun none => by cases none) fun both => may both.1

theorem execute_append [∀ state input, Decidable (allowed state input)] (inputs more : List ι) :
    execute step allowed (inputs ++ more) start =
      (execute step allowed inputs start).bind (execute step allowed more) := by
  induction inputs generalizing start with
  | nil => rfl
  | cons input inputs ih =>
    rw [List.cons_append, execute, execute]
    split
    · rw [Option.bind_assoc]
      exact congrArg _ (funext fun _ => ih)
    · rfl

theorem run_of_execute [∀ state input, Decidable (allowed state input)] {inputs : List ι}
    (ran : execute step allowed inputs start = some state) : Run step allowed start state := by
  induction inputs generalizing start with
  | nil =>
    cases ran
    exact .refl
  | cons input inputs ih =>
    obtain ⟨may, middle, stepped, rest⟩ := execute_cons.mp ran
    exact .head ⟨input, may, stepped⟩ (ih rest)

-- The hypothesis is a closed computation on the inputs, for `decide` to evaluate.
theorem exists_run [∀ state input, Decidable (allowed state input)] (inputs : List ι) {holds : σ → Prop}
    [DecidablePred holds] (ran : (execute step allowed inputs start).any fun state => decide (holds state)) :
    ∃ state, Run step allowed start state ∧ holds state := by
  obtain ⟨state, reached, holds⟩ := (Option.any_eq_true _ _).mp ran
  exact ⟨state, run_of_execute reached, of_decide_eq_true holds⟩

/-- What holds at the start and is kept by every step holds in every state of a run. -/
theorem Run.invariant (holds : σ → Prop) (run : Run step allowed start state) (first : holds start)
    (kept : ∀ {state next : σ} {input : ι}, Run step allowed start state → holds state → allowed state input →
      step state input = some next → holds next) : holds state := by
  induction run with
  | refl => exact first
  | tail before taken ih =>
    obtain ⟨input, may, stepped⟩ := taken
    exact kept before ih may stepped

section Along
variable (step)

/-- What holds in every state that the inputs lead through, the first and the last one too. -/
def Always (holds : σ → Prop) : σ → List ι → Prop
  | state, [] => holds state
  | state, input :: inputs => holds state ∧
    match step state input with
    | some next => Always holds next inputs
    | none => True

instance decidableAlways (holds : σ → Prop) [DecidablePred holds] :
    (state : σ) → (inputs : List ι) → Decidable (Always step holds state inputs)
  | state, [] => inferInstanceAs (Decidable (holds state))
  | state, input :: inputs =>
    match stepped : step state input with
    | some next =>
      have := decidableAlways holds next inputs
      decidable_of_iff (holds state ∧ Always step holds next inputs) (by rw [Always, stepped])
    | none => decidable_of_iff (holds state) (by rw [Always, stepped, and_true])

theorem Always.first {step : σ → ι → Option σ} {holds : σ → Prop} {state : σ} {inputs : List ι}
    (always : Always step holds state inputs) : holds state := by
  cases inputs with
  | nil => exact always
  | cons _ _ => exact always.1

theorem Always.next {step : σ → ι → Option σ} {holds : σ → Prop} {state after : σ} {input : ι} {inputs : List ι}
    (always : Always step holds state (input :: inputs)) (stepped : step state input = some after) :
    Always step holds after inputs := by
  have rest := always.2
  rwa [stepped] at rest

theorem Always.last {step : σ → ι → Option σ} {allowed : σ → ι → Prop} [∀ state input, Decidable (allowed state input)]
    {holds : σ → Prop} {start state : σ} {inputs : List ι} (always : Always step holds start inputs)
    (ran : execute step allowed inputs start = some state) : holds state := by
  induction inputs generalizing start with
  | nil =>
    cases ran
    exact always
  | cons input inputs ih =>
    obtain ⟨-, next, stepped, rest⟩ := execute_cons.mp ran
    exact ih (always.next stepped) rest

def Meets (condition : σ → ι → Prop) : σ → List ι → Prop
  | _, [] => True
  | state, input :: inputs =>
    match step state input with
    | some next => condition state input ∧ Meets condition next inputs
    | none => True

instance decidableMeets (condition : σ → ι → Prop) [∀ state input, Decidable (condition state input)] :
    (state : σ) → (inputs : List ι) → Decidable (Meets step condition state inputs)
  | _, [] => isTrue trivial
  | state, input :: inputs =>
    match stepped : step state input with
    | some next =>
      have := decidableMeets condition next inputs
      decidable_of_iff (condition state input ∧ Meets step condition next inputs) (by rw [Meets, stepped])
    | none => isTrue (by rw [Meets, stepped]; trivial)

variable {step}

theorem Meets.and {one other : σ → ι → Prop} {inputs : List ι} (first : Meets step one start inputs)
    (second : Meets step other start inputs) :
    Meets step (fun state input => one state input ∧ other state input) start inputs := by
  induction inputs generalizing start with
  | nil => trivial
  | cons input inputs ih =>
    unfold Meets at first second ⊢
    cases stepped : step start input with
    | none => trivial
    | some next =>
      rw [stepped] at first second
      exact ⟨⟨first.1, second.1⟩, ih first.2 second.2⟩

/-- A run whose steps all meet a condition keeps what such steps keep, and what follows from it. -/
theorem always_of_meets {kept holds : σ → Prop} {condition : σ → ι → Prop} {inputs : List ι}
    (step_keeps : ∀ {state next : σ} {input : ι}, kept state → step state input = some next → condition state input →
      kept next) (follows : ∀ {state : σ}, kept state → holds state) (first : kept start)
    (meets : Meets step condition start inputs) : Always step holds start inputs := by
  induction inputs generalizing start with
  | nil => exact follows first
  | cons input inputs ih =>
    unfold Meets at meets
    refine ⟨follows first, ?_⟩
    cases stepped : step start input with
    | none => trivial
    | some next =>
      rw [stepped] at meets
      exact ih (step_keeps first stepped meets.1) meets.2

/-- If a step keeps a property just when it meets a condition, a run keeps it just when all its steps do. -/
theorem always_iff_meets (sound : σ → Prop) {holds : σ → Prop} {condition : σ → ι → Prop} {inputs : List ι}
    (stays : ∀ {state next : σ} {input : ι}, sound state → step state input = some next → sound next)
    (kept : ∀ {state next : σ} {input : ι}, sound state → holds state → step state input = some next →
      (holds next ↔ condition state input))
    (healthy : sound start) (first : holds start) :
    Always step holds start inputs ↔ Meets step condition start inputs := by
  induction inputs generalizing start with
  | nil => exact iff_of_true first trivial
  | cons input inputs ih =>
    unfold Always Meets
    rw [and_iff_right first]
    cases stepped : step start input with
    | none => exact Iff.rfl
    | some next =>
      simp only
      have once := kept healthy first stepped
      constructor
      · intro always
        exact ⟨once.mp always.first, (ih (stays healthy stepped) always.first).mp always⟩
      · rintro ⟨met, rest⟩
        exact (ih (stays healthy stepped) (once.mpr met)).mpr rest

end Along
end Machine
