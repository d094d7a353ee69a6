import ZenohRos2.Rust.Outcome

/-! Calls on a mutable state: what a call did before it failed stays done. -/

set_option autoImplicit false

namespace Rust

def Action (σ ε α : Type) : Type := σ → Outcome ε α × σ

namespace Action
variable {σ ε α β γ : Type}

def bind (first : Action σ ε α) (next : α → Action σ ε β) : Action σ ε β := fun state =>
  match first state with
  | (.ok value, state) => next value state
  | (.err error, state) => (.err error, state)
  | (.panic fault, state) => (.panic fault, state)

instance : Monad (Action σ ε) where
  pure value := fun state => (.ok value, state)
  bind := Action.bind

def lift (result : Outcome ε α) : Action σ ε α := fun state => (result, state)

def get : Action σ ε σ := fun state => (.ok state, state)

def modify (change : σ → σ) : Action σ ε Unit := fun state => (.ok (), change state)

/-- `if let Err(error) = action { handler }` -/
def onError (action : Action σ ε α) (handler : ε → Action σ ε α) : Action σ ε α := fun state =>
  match action state with
  | (.err error, state) => handler error state
  | (result, state) => (result, state)

-- A body is run one call at a time: each of these takes the first call off its front.
theorem bind_of_ok {first : Action σ ε α} {next : α → Action σ ε β} {state between : σ} {value : α}
    (ran : first state = (.ok value, between)) : (first >>= next) state = next value between := by
  change Action.bind first next state = _
  rw [Action.bind, ran]

theorem bind_of_err {first : Action σ ε α} {next : α → Action σ ε β} {state after : σ} {error : ε}
    (ran : first state = (.err error, after)) : (first >>= next) state = (.err error, after) := by
  change Action.bind first next state = _
  rw [Action.bind, ran]

theorem bind_of_panic {first : Action σ ε α} {next : α → Action σ ε β} {state after : σ} {fault : Fault}
    (ran : first state = (.panic fault, after)) : (first >>= next) state = (.panic fault, after) := by
  change Action.bind first next state = _
  rw [Action.bind, ran]

@[simp] theorem pure_run (value : α) (state : σ) : (pure value : Action σ ε α) state = (.ok value, state) := rfl

@[simp] theorem lift_run (result : Outcome ε α) (state : σ) : (lift result : Action σ ε α) state = (result, state) :=
  rfl

@[simp] theorem get_run (state : σ) : (get : Action σ ε σ) state = (.ok state, state) := rfl

@[simp] theorem modify_run (change : σ → σ) (state : σ) :
    (modify change : Action σ ε Unit) state = (.ok (), change state) := rfl

-- The other way round: what a body that succeeded has gone through.
theorem bind_eq_ok {first : Action σ ε α} {next : α → Action σ ε β} {state after : σ} {value : β} :
    (first >>= next) state = (.ok value, after) ↔
      ∃ middle between, first state = (.ok middle, between) ∧ next middle between = (.ok value, after) := by
  rcases ran : first state with ⟨result, between⟩
  cases result with
  | ok middle =>
    rw [bind_of_ok ran]
    refine ⟨fun rest => ⟨middle, between, rfl, rest⟩, ?_⟩
    rintro ⟨_, _, same, rest⟩
    cases same
    exact rest
  | err error =>
    rw [bind_of_err ran]
    simp
  | panic fault =>
    rw [bind_of_panic ran]
    simp

/-- The call leaves a part of the state as it is, whether it succeeds or not. -/
def Keeps (part : σ → γ) (action : Action σ ε α) : Prop :=
  ∀ state, part (action state).2 = part state

variable {part : σ → γ}

theorem Keeps.eq {action : Action σ ε α} (kept : action.Keeps part) {state after : σ}
    {result : Outcome ε α} (ran : action state = (result, after)) : part after = part state := by
  rw [← kept state, ran]

theorem Keeps.bind {first : Action σ ε α} {next : α → Action σ ε β} (one : first.Keeps part)
    (two : ∀ value, (next value).Keeps part) : (first >>= next).Keeps part := by
  intro state
  have kept := one state
  rcases ran : first state with ⟨result, between⟩
  rw [ran] at kept
  cases result with
  | ok value =>
    rw [bind_of_ok ran]
    exact (two value between).trans kept
  | err error =>
    rw [bind_of_err ran]
    exact kept
  | panic fault =>
    rw [bind_of_panic ran]
    exact kept

theorem keeps_lift (result : Outcome ε α) : (lift result : Action σ ε α).Keeps part := fun _ => rfl

/-- What holds before the call holds after it, whether it succeeds or not. -/
def Preserves (holds : σ → Prop) (action : Action σ ε α) : Prop := ∀ state, holds state → holds (action state).2

variable {holds : σ → Prop}

theorem Preserves.bind {first : Action σ ε α} {next : α → Action σ ε β} (one : first.Preserves holds)
    (two : ∀ value, (next value).Preserves holds) : (first >>= next).Preserves holds := by
  intro state before
  have between := one state before
  rcases ran : first state with ⟨result, middle⟩
  rw [ran] at between
  cases result with
  | ok value =>
    rw [bind_of_ok ran]
    exact two value middle between
  | err error =>
    rw [bind_of_err ran]
    exact between
  | panic fault =>
    rw [bind_of_panic ran]
    exact between

theorem preserves_pure (value : α) : (pure value : Action σ ε α).Preserves holds := fun _ => id

theorem preserves_lift (result : Outcome ε α) : (lift result : Action σ ε α).Preserves holds := fun _ => id

end Action
end Rust
