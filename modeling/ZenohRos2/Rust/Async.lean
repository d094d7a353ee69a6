import ZenohRos2.Lib.Tasks
import ZenohRos2.Rust.Outcome

/-! Async calls: programs that may fail, and that hold guards. -/

set_option autoImplicit false

namespace Rust
open Tasks

/-- A body whose awaits are requests. -/
def Async {κ : Type} (Reply : κ → Type) (ε α : Type) : Type := Program Reply (Outcome ε α)

namespace Async
variable {κ σ ε α β : Type} {Reply : κ → Type}

def bind (first : Async Reply ε α) (next : α → Async Reply ε β) : Async Reply ε β :=
  Program.bind first fun
    | .ok value => next value
    | .err error => .done (.err error)
    | .panic fault => .done (.panic fault)

instance : Monad (Async Reply ε) where
  pure value := .done (.ok value)
  bind := bind

def lift (result : Outcome ε α) : Async Reply ε α := .done result

def request (request : κ) : Async Reply ε (Reply request) := .call request fun reply => .done (.ok reply)

/-- A guard that is dropped at the end of its scope, however the body is left. -/
def guarded (lock unlock : κ) (body : Async Reply ε α) : Async Reply ε α :=
  .call lock fun _ => Program.bind body fun result => .call unlock fun _ => .done result

section Run
variable (perform : (request : κ) → σ → Option (Reply request × σ))

/-- What the call does that has the state to itself, unless it waits for ever. -/
def run (call : Async Reply ε α) (state : σ) : Option (Outcome ε α × σ) := Program.run perform call state

variable {perform} {first : Async Reply ε α} {next : α → Async Reply ε β} {state between : σ}

def resume (perform : (request : κ) → σ → Option (Reply request × σ)) (next : α → Async Reply ε β) :
    Outcome ε α × σ → Option (Outcome ε β × σ)
  | (.ok value, state) => run perform (next value) state
  | (.err error, state) => some (.err error, state)
  | (.panic fault, state) => some (.panic fault, state)

variable (perform) in
theorem run_bind (first : Async Reply ε α) (next : α → Async Reply ε β) (state : σ) :
    run perform (first >>= next) state = (run perform first state).bind (resume perform next) := by
  apply (Program.run_bind perform first _ state).trans
  congr 1
  funext ⟨result, after⟩
  cases result <;> rfl

theorem run_bind_eq_ok {value : β} {after : σ} :
    run perform (first >>= next) state = some (.ok value, after) ↔
      ∃ middle between, run perform first state = some (.ok middle, between) ∧
        run perform (next middle) between = some (.ok value, after) := by
  rw [run_bind, Option.bind_eq_some_iff]
  constructor
  · rintro ⟨⟨result, between⟩, ran, rest⟩
    cases result with
    | ok middle => exact ⟨middle, between, ran, rest⟩
    | err error => cases rest
    | panic fault => cases rest
  · rintro ⟨middle, between, ran, rest⟩
    exact ⟨_, ran, rest⟩

theorem run_lift (result : Outcome ε α) (state : σ) :
    run perform (Async.lift result : Async Reply ε α) state = some (result, state) := rfl

theorem run_guarded (lock unlock : κ) (body : Async Reply ε α) (state : σ) :
    run perform (guarded lock unlock body) state =
      (perform lock state).bind fun entered => (run perform body entered.2).bind fun left =>
        (perform unlock left.2).map fun dropped => (left.1, dropped.2) := by
  change ((perform lock state).bind fun entered => Program.run perform (Program.bind body _) entered.2) = _
  congr 1
  funext entered
  apply (Program.run_bind perform body _ entered.2).trans
  congr 1
  funext left
  cases left_ : perform unlock left.2 with
  | none => simp only [Program.run, left_, Option.bind_none, Option.map_none]
  | some dropped => simp only [Program.run, left_, Option.bind_some, Option.map_some]

end Run
end Async
end Rust
