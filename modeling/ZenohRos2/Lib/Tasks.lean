import ZenohRos2.Lib.Machine

/-! Programs that make calls on a shared state, and tasks that run them side by side.

A call may have to wait, as one for a lock does. A task is what is left of its
program, and each step of a run is one call of one task.
-/

set_option autoImplicit false

namespace Tasks

inductive Program {κ : Type} (Reply : κ → Type) (α : Type) where
  | done (result : α)
  | call (request : κ) (rest : Reply request → Program Reply α)

variable {κ σ α β ω : Type} {Reply : κ → Type}

def Program.bind (program : Program Reply α) (next : α → Program Reply β) : Program Reply β :=
  match program with
  | .done result => next result
  | .call request rest => .call request fun reply => (rest reply).bind next

structure Pool (Reply : κ → Type) (σ α : Type) where
  state : σ
  tasks : List (Program Reply α)

inductive Move (ω : Type) where
  /-- Another task comes, with this to do. -/
  | spawn (operation : ω)
  | run (task : Nat)
  deriving DecidableEq

section Steps
variable (perform : (request : κ) → σ → Option (Reply request × σ)) (program : ω → Program Reply α)

/-- What a program does that has the state to itself, unless it waits for ever. -/
def Program.run : Program Reply α → σ → Option (α × σ)
  | .done result, state => some (result, state)
  | .call request rest, state => (perform request state).bind fun answer => (rest answer.1).run answer.2

def Pool.step (pool : Pool Reply σ α) : Move ω → Option (Pool Reply σ α)
  | .spawn operation => some { pool with tasks := pool.tasks ++ [program operation] }
  | .run task =>
    match pool.tasks[task]? with
    | some (.call request rest) =>
      (perform request pool.state).map fun answer => ⟨answer.2, pool.tasks.set task (rest answer.1)⟩
    | _ => none

theorem Program.run_bind (first : Program Reply α) (next : α → Program Reply β) (state : σ) :
    (first.bind next).run perform state =
      (first.run perform state).bind fun answer => (next answer.1).run perform answer.2 := by
  induction first generalizing state with
  | done result => rfl
  | call request rest ih =>
    simp only [bind, run, Option.bind_assoc]
    cases perform request state with
    | none => rfl
    | some answer => exact ih answer.1 answer.2

variable {perform} {program}

theorem Pool.step_run {pool next : Pool Reply σ α} {task : Nat}
    (stepped : pool.step perform program (.run task) = some next) :
    ∃ request rest reply state, pool.tasks[task]? = some (.call request rest) ∧
      perform request pool.state = some (reply, state) ∧ next = ⟨state, pool.tasks.set task (rest reply)⟩ := by
  simp only [Pool.step] at stepped
  split at stepped
  · rename_i request rest found
    obtain ⟨⟨reply, state⟩, answered, same⟩ := Option.map_eq_some_iff.mp stepped
    exact ⟨request, rest, reply, state, found, answered, same.symm⟩
  · cases stepped

theorem Program.run_alone {first : Program Reply α} {state after : σ} {result : α} {tasks : List (Program Reply α)}
    (task : Nat) (ran : first.run perform state = some (result, after)) (at_ : tasks[task]? = some first) :
    Machine.Run (Pool.step perform program) (fun _ _ => True) ⟨state, tasks⟩
      ⟨after, tasks.set task (.done result)⟩ := by
  induction first generalizing state tasks with
  | done _ =>
    cases ran
    obtain ⟨inside, same⟩ := List.getElem?_eq_some_iff.mp at_
    rw [← same, List.set_getElem_self inside]
  | call request rest ih =>
    obtain ⟨⟨reply, between⟩, answered, ran⟩ := Option.bind_eq_some_iff.mp ran
    have inside : task < tasks.length := (List.getElem?_eq_some_iff.mp at_).1
    have stepped : Pool.step perform program ⟨state, tasks⟩ (.run task) =
        some ⟨between, tasks.set task (rest reply)⟩ := by
      simp only [Pool.step, at_, answered, Option.map_some]
    have further := ih reply ran (List.getElem?_set_self inside)
    rw [List.set_set] at further
    exact .head ⟨.run task, trivial, stepped⟩ further

end Steps

section Pairs
variable {τ : Type} {pair : τ → τ → Prop} {tasks : List τ} {task : τ}

/-- Every two tasks, in both orders. -/
def Apart (pair : τ → τ → Prop) (tasks : List τ) : Prop :=
  ∀ (i j : Nat) (one other : τ), i ≠ j → tasks[i]? = some one → tasks[j]? = some other → pair one other

theorem eq_or_other_of_mem_set {i : Nat} {found : τ} (member : found ∈ tasks.set i task) :
    found = task ∨ ∃ j, j ≠ i ∧ tasks[j]? = some found := by
  obtain ⟨j, here⟩ := List.mem_iff_getElem?.mp member
  rw [List.getElem?_set] at here
  split at here
  · split at here
    · cases here
      exact .inl rfl
    · cases here
  · rename_i differs
    exact .inr ⟨j, Ne.symm differs, here⟩

theorem Apart.set {i : Nat} (apart : Apart pair tasks)
    (fits : ∀ (j : Nat) (other : τ), j ≠ i → tasks[j]? = some other → pair task other ∧ pair other task) :
    Apart pair (tasks.set i task) := by
  intro j k one other distinct first second
  rw [List.getElem?_set] at first second
  split at first
  · rename_i same
    subst same
    split at first
    · cases first
      rw [if_neg distinct] at second
      exact (fits k other (Ne.symm distinct) second).1
    · cases first
  · rename_i differs
    split at second
    · rename_i same
      subst same
      split at second
      · cases second
        exact (fits j one distinct first).2
      · cases second
    · exact apart j k one other distinct first second

theorem Apart.snoc (apart : Apart pair tasks) (fits : ∀ other ∈ tasks, pair task other ∧ pair other task) :
    Apart pair (tasks ++ [task]) := by
  intro j k one other distinct first second
  rw [List.getElem?_append] at first second
  have last {position : Nat} {found : τ} (beyond : ¬position < tasks.length)
      (here : [task][position - tasks.length]? = some found) : position = tasks.length ∧ found = task := by
    obtain ⟨inside, same⟩ := List.getElem?_eq_some_iff.mp here
    simp only [List.length_singleton] at inside
    exact ⟨by omega, by rw [← same, List.getElem_singleton]⟩
  split at first
  · split at second
    · exact apart j k one other distinct first second
    · rename_i beyond
      obtain ⟨-, rfl⟩ := last beyond second
      exact (fits one (List.mem_of_getElem? first)).2
  · rename_i beyond
    obtain ⟨position, rfl⟩ := last beyond first
    split at second
    · exact (fits other (List.mem_of_getElem? second)).1
    · rename_i also
      obtain ⟨again, -⟩ := last also second
      omega

end Pairs
end Tasks
