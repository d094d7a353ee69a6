import ZenohRos2.Lib.Tasks

/-! A log that tasks share, and who wrote what on it.

What an answer adds to the log depends on the request and the reply alone. So
each task leaves its own share, which is what its program may write whatever
the others do, and the log is made up of the shares.
-/

set_option autoImplicit false

namespace Tasks
variable {κ σ α β ω φ : Type} {Reply : κ → Type}

/-- Whatever the replies, the program makes such requests only, and ends with such a result if it ends. -/
def Program.Asks (may : κ → Prop) (ends : α → Prop) : Program Reply α → Prop
  | .done result => ends result
  | .call request rest => may request ∧ ∀ reply, (rest reply).Asks may ends

theorem Program.Asks.bind {may : κ → Prop} {middle : α → Prop} {ends : β → Prop} {first : Program Reply α}
    {next : α → Program Reply β} (one : first.Asks may middle)
    (two : ∀ result, middle result → (next result).Asks may ends) : (first.bind next).Asks may ends := by
  induction first with
  | done result => exact two result one
  | call request rest ih => exact ⟨one.1, fun reply => ih reply (one.2 reply)⟩

theorem Program.eq_done_of_map {convert : α → β} {first : Program Reply α} {result : β}
    (ended : (first.bind fun result => .done (convert result)) = .done result) :
    ∃ before, first = .done before ∧ convert before = result := by
  cases first with
  | done before =>
    cases ended
    exact ⟨before, rfl, rfl⟩
  | call request rest => cases ended

section Programs
variable (adds : (request : κ) → Reply request → List φ → Prop)

/-- What a program has written so far, and what is left of it. -/
inductive Program.Leads (first : Program Reply α) : List φ → Program Reply α → Prop where
  | start : Leads first [] first
  | answered {written more : List φ} {request : κ} {rest : Reply request → Program Reply α} (reply : Reply request)
    (before : Leads first written (.call request rest)) (added : adds request reply more) :
    Leads first (written ++ more) (rest reply)

variable {adds}

theorem Program.Leads.of_done {result : α} {written : List φ} {left : Program Reply α}
    (leads : (Program.done result).Leads adds written left) : written = [] ∧ left = .done result := by
  induction leads with
  | start => exact ⟨rfl, rfl⟩
  | answered reply before added ih => cases ih.2

theorem Program.Leads.of_call {request : κ} {rest : Reply request → Program Reply α} {written : List φ}
    {left : Program Reply α} (leads : (Program.call request rest).Leads adds written left) :
    (written = [] ∧ left = .call request rest) ∨
      ∃ reply more later, adds request reply more ∧ (rest reply).Leads adds later left ∧ written = more ++ later := by
  induction leads with
  | start => exact .inl ⟨rfl, rfl⟩
  | answered reply before added ih =>
    rcases ih with ⟨rfl, same⟩ | ⟨earlier, more, later, first, after, rfl⟩
    · cases same
      exact .inr ⟨reply, _, [], added, .start, by rw [List.nil_append, List.append_nil]⟩
    · exact .inr ⟨earlier, more, _, first, .answered reply after added, List.append_assoc ..⟩

theorem Program.Leads.of_bind {first : Program Reply α} {next : α → Program Reply β} {written : List φ}
    {left : Program Reply β} (leads : (first.bind next).Leads adds written left) :
    (∃ request rest, first.Leads adds written (.call request rest) ∧
        left = .call request fun reply => (rest reply).bind next) ∨
      ∃ result one two, first.Leads adds one (.done result) ∧ (next result).Leads adds two left ∧
        written = one ++ two := by
  have entered {rest : Program Reply α} {written : List φ} (under : first.Leads adds written rest) :
      (∃ request after, first.Leads adds written (.call request after) ∧
          rest.bind next = .call request fun reply => (after reply).bind next) ∨
        ∃ result one two, first.Leads adds one (.done result) ∧ (next result).Leads adds two (rest.bind next) ∧
          written = one ++ two := by
    cases rest with
    | done result => exact .inr ⟨result, written, [], under, .start, (List.append_nil _).symm⟩
    | call request after => exact .inl ⟨request, after, under, rfl⟩
  induction leads with
  | start => exact entered .start
  | answered reply before added ih =>
    rcases ih with ⟨request, rest, under, same⟩ | ⟨result, one, two, ended, after, rfl⟩
    · cases same
      exact entered (.answered reply under added)
    · exact .inr ⟨result, one, _, ended, .answered reply after added, List.append_assoc ..⟩

theorem Program.Leads.of_map {convert : α → β} {first : Program Reply α} {written : List φ} {left : Program Reply β}
    (leads : (first.bind fun result => .done (convert result)).Leads adds written left) :
    ∃ rest, first.Leads adds written rest ∧ left = rest.bind fun result => .done (convert result) := by
  rcases leads.of_bind with ⟨request, rest, under, rfl⟩ | ⟨result, one, two, ended, after, rfl⟩
  · exact ⟨_, under, rfl⟩
  · obtain ⟨rfl, rfl⟩ := after.of_done
    exact ⟨.done result, by rwa [List.append_nil], rfl⟩

theorem Program.Leads.all {may : κ → Prop} {ends : α → Prop} {holds : φ → Prop} {first left : Program Reply α}
    {written : List φ} (each : ∀ request reply more, may request → adds request reply more → ∀ entry ∈ more, holds entry)
    (leads : first.Leads adds written left) (asks : first.Asks may ends) :
    left.Asks may ends ∧ ∀ entry ∈ written, holds entry := by
  induction leads with
  | start => exact ⟨asks, fun entry member => by cases member⟩
  | answered reply before added ih =>
    refine ⟨ih.1.2 reply, fun entry member => ?_⟩
    exact (List.mem_append.mp member).elim (ih.2 entry) (each _ reply _ ih.1.1 added entry)

end Programs

section Pools

def shareOf (task : Nat) (log : List (Nat × φ)) : List φ :=
  log.filterMap fun entry => if entry.1 = task then some entry.2 else none

theorem shareOf_append (task : Nat) (log more : List (Nat × φ)) :
    shareOf task (log ++ more) = shareOf task log ++ shareOf task more := List.filterMap_append

theorem shareOf_map (task writer : Nat) (entries : List φ) :
    shareOf task (entries.map fun entry => (writer, entry)) = if writer = task then entries else [] := by
  rw [shareOf, List.filterMap_map]
  split
  · rename_i same
    subst same
    exact (congrArg (List.filterMap · entries) (funext fun _ => if_pos rfl)).trans List.filterMap_some
  · rename_i other
    exact List.filterMap_eq_nil_iff.mpr fun entry _ => if_neg other

theorem mem_shareOf {task : Nat} {log : List (Nat × φ)} {entry : φ} : entry ∈ shareOf task log ↔ (task, entry) ∈ log := by
  simp only [shareOf, List.mem_filterMap, Option.ite_none_right_eq_some, Option.some.injEq]
  constructor
  · rintro ⟨_, member, rfl, rfl⟩
    exact member
  · exact fun member => ⟨_, member, rfl, rfl⟩

theorem flatMap_shareOf {δ : Type} {task : Nat} {log : List (Nat × φ)} {make : φ → List δ}
    (others : ∀ entry ∈ log, entry.1 ≠ task → make entry.2 = []) :
    (log.map Prod.snd).flatMap make = (shareOf task log).flatMap make := by
  induction log with
  | nil => rfl
  | cons entry log ih =>
    have rest := ih fun other member => others other (List.mem_cons_of_mem _ member)
    rw [List.map_cons, List.flatMap_cons, rest]
    by_cases mine : entry.1 = task
    · have share : shareOf task (entry :: log) = entry.2 :: shareOf task log := List.filterMap_cons_some (if_pos mine)
      rw [share, List.flatMap_cons]
    · have share : shareOf task (entry :: log) = shareOf task log := List.filterMap_cons_none (if_neg mine)
      rw [share, others entry List.mem_cons_self mine, List.nil_append]

def spawned (moves : List (Move ω)) : List ω :=
  moves.filterMap fun
    | .spawn operation => some operation
    | .run _ => none

variable (perform : (request : κ) → σ → Option (Reply request × σ)) (program : ω → Program Reply α)
  (adds : (request : κ) → Reply request → List φ → Prop) (logged : σ → List φ)

def Grows : Prop := ∀ request state reply next, perform request state = some (reply, next) →
  ∃ more, adds request reply more ∧ logged next = logged state ++ more

/-- Every task has written its share, and has the rest of its program left. -/
structure Pool.Attributed (operations : List ω) (log : List (Nat × φ)) (pool : Pool Reply σ α) : Prop where
  count : pool.tasks.length = operations.length
  own : ∀ i operation task, operations[i]? = some operation → pool.tasks[i]? = some task →
    (program operation).Leads adds (shareOf i log) task
  known : ∀ entry ∈ log, entry.1 < operations.length

variable {perform program adds logged} {operations : List ω} {log : List (Nat × φ)} {pool next : Pool Reply σ α}

theorem Pool.Attributed.spawn (attributed : pool.Attributed program adds operations log) (operation : ω) :
    Pool.Attributed program adds (operations ++ [operation]) log
      ⟨pool.state, pool.tasks ++ [program operation]⟩ where
  count := by rw [List.length_append, List.length_append, attributed.count]; rfl
  own i found task here at_ := by
    rw [List.getElem?_append] at here at_
    rw [attributed.count] at at_
    split at here
    · rename_i old
      rw [if_pos old] at at_
      exact attributed.own i found task here at_
    · rename_i new
      rw [if_neg new] at at_
      -- Nothing is attributed to a task that has only just come.
      have none : shareOf i log = [] := by
        refine List.filterMap_eq_nil_iff.mpr fun entry member => if_neg fun same => ?_
        exact new (same ▸ attributed.known entry member)
      obtain ⟨inside, same⟩ := List.getElem?_eq_some_iff.mp here
      obtain ⟨also, left⟩ := List.getElem?_eq_some_iff.mp at_
      rw [none, ← left, ← same, List.getElem_singleton, List.getElem_singleton]
      exact .start
  known entry member := by
    rw [List.length_append]
    exact Nat.lt_of_lt_of_le (attributed.known entry member) (Nat.le_add_right _ _)

theorem Pool.Attributed.answered (attributed : pool.Attributed program adds operations log) {i : Nat} {request : κ}
    {rest : Reply request → Program Reply α} (found : pool.tasks[i]? = some (.call request rest))
    {reply : Reply request} {more : List φ} (added : adds request reply more) (state : σ) :
    Pool.Attributed program adds operations (log ++ more.map fun entry => (i, entry))
      ⟨state, pool.tasks.set i (rest reply)⟩ where
  count := by rw [List.length_set, attributed.count]
  own j operation task here at_ := by
    rw [shareOf_append, shareOf_map]
    rw [List.getElem?_set] at at_
    split at at_
    · rename_i same
      subst same
      split at at_
      · cases at_
        rw [if_pos rfl]
        exact .answered reply (attributed.own i operation _ here found) added
      · cases at_
    · rename_i other
      rw [if_neg other, List.append_nil]
      exact attributed.own j operation task here at_
  known entry member := by
    rcases List.mem_append.mp member with before | new
    · exact attributed.known entry before
    · obtain ⟨_, -, rfl⟩ := List.mem_map.mp new
      rw [← attributed.count]
      exact (List.getElem?_eq_some_iff.mp found).1

theorem Pool.Attributed.step (grows : Grows perform adds logged)
    (attributed : pool.Attributed program adds operations log) {move : Move ω}
    (stepped : pool.step perform program move = some next) :
    ∃ more, next.Attributed program adds (operations ++ spawned [move]) (log ++ more) ∧
      logged next.state = logged pool.state ++ more.map Prod.snd := by
  cases move with
  | spawn operation =>
    cases stepped
    refine ⟨[], ?_, (List.append_nil _).symm⟩
    rw [List.append_nil]
    exact attributed.spawn operation
  | run i =>
    obtain ⟨request, rest, reply, state, found, answered, rfl⟩ := Pool.step_run stepped
    obtain ⟨more, added, grown⟩ := grows request pool.state reply state answered
    refine ⟨more.map fun entry => (i, entry), ?_, ?_⟩
    · rw [show spawned [(.run i : Move ω)] = [] from rfl, List.append_nil]
      exact attributed.answered found added state
    · rw [grown, List.map_map]
      simp [Function.comp_def]

/-- The log of a run, with the task that wrote each entry. -/
theorem Pool.exists_attributed (grows : Grows perform adds logged) {moves : List (Move ω)}
    (ran : Machine.execute (Pool.step perform program) (fun _ _ => True) moves pool = some next)
    (attributed : pool.Attributed program adds operations log) :
    ∃ more, next.Attributed program adds (operations ++ spawned moves) (log ++ more) ∧
      logged next.state = logged pool.state ++ more.map Prod.snd := by
  induction moves generalizing pool operations log with
  | nil =>
    cases ran
    refine ⟨[], ?_, (List.append_nil _).symm⟩
    rw [List.append_nil, show spawned ([] : List (Move ω)) = [] from rfl, List.append_nil]
    exact attributed
  | cons move moves ih =>
    obtain ⟨-, middle, stepped, ran⟩ := Machine.execute_cons.mp ran
    obtain ⟨first, once, grown⟩ := attributed.step grows stepped
    obtain ⟨rest, whole, further⟩ := ih ran once
    refine ⟨first ++ rest, ?_, ?_⟩
    · have both : spawned (move :: moves) = spawned [move] ++ spawned moves := by
        rw [spawned, ← List.singleton_append, List.filterMap_append]
        rfl
      rw [both, ← List.append_assoc, ← List.append_assoc]
      exact whole
    · rw [further, grown, List.map_append, List.append_assoc]

end Pools
end Tasks
