import ZenohRos2.Lib.Machine

/-! Runs that differ in hidden steps only.

Which inputs are hidden depends on the state in which they come. If hidden
steps leave a state alike to the other one, and seen steps lead from alike
states to alike states, then two runs with the same seen inputs end alike.
-/

set_option autoImplicit false

namespace Machine
variable {σ ι : Type} (step : σ → ι → Option σ) (hidden : σ → ι → Prop)

def seen [∀ state input, Decidable (hidden state input)] : σ → List ι → List ι
  | _, [] => []
  | state, input :: inputs =>
    match step state input with
    | some next => if hidden state input then seen next inputs else input :: seen next inputs
    | none => []

structure Unwinds (alike : σ → σ → Prop) : Prop where
  left {one other next : σ} {input : ι} (before : alike one other) (unseen : hidden one input)
    (stepped : step one input = some next) : alike next other
  right {one other next : σ} {input : ι} (before : alike one other) (unseen : hidden other input)
    (stepped : step other input = some next) : alike one next
  both {one other next after : σ} {input : ι} (before : alike one other) (first : ¬hidden one input)
    (second : ¬hidden other input) (stepped : step one input = some next)
    (followed : step other input = some after) : alike next after

variable {step hidden} {alike : σ → σ → Prop} {allowed : σ → ι → Prop} [∀ state input, Decidable (hidden state input)]
  [∀ state input, Decidable (allowed state input)]

theorem seen_hidden {state next : σ} {input : ι} {inputs : List ι} (stepped : step state input = some next)
    (unseen : hidden state input) : seen step hidden state (input :: inputs) = seen step hidden next inputs := by
  simp only [seen, stepped, if_pos unseen]

theorem seen_shown {state next : σ} {input : ι} {inputs : List ι} (stepped : step state input = some next)
    (shown : ¬hidden state input) :
    seen step hidden state (input :: inputs) = input :: seen step hidden next inputs := by
  simp only [seen, stepped, if_neg shown]

namespace Unwinds
variable {one other last final : σ} {inputs others : List ι}

theorem silent (unwinds : Unwinds step hidden alike) (before : alike one other)
    (ran : execute step allowed others other = some final) (nothing : seen step hidden other others = []) :
    alike one final := by
  induction others generalizing other with
  | nil =>
    cases ran
    exact before
  | cons input others ih =>
    obtain ⟨-, next, stepped, rest⟩ := execute_cons.mp ran
    by_cases unseen : hidden other input
    · rw [seen_hidden stepped unseen] at nothing
      exact ih (unwinds.right before unseen stepped) rest nothing
    · rw [seen_shown stepped unseen] at nothing
      cases nothing

theorem reaches (unwinds : Unwinds step hidden alike) (before : alike one other) {input : ι} {rest : List ι}
    (ran : execute step allowed others other = some final) (next : seen step hidden other others = input :: rest) :
    ∃ middle after more, alike one middle ∧ ¬hidden middle input ∧ step middle input = some after ∧
      execute step allowed more after = some final ∧ seen step hidden after more = rest := by
  induction others generalizing other with
  | nil => cases next
  | cons second others ih =>
    obtain ⟨-, after, stepped, later⟩ := execute_cons.mp ran
    by_cases unseen : hidden other second
    · rw [seen_hidden stepped unseen] at next
      exact ih (unwinds.right before unseen stepped) later next
    · rw [seen_shown stepped unseen] at next
      obtain ⟨same, more⟩ := List.cons.inj next
      subst same
      exact ⟨other, after, others, before, unseen, stepped, later, more⟩

/-- Two runs with the same seen inputs lead from alike states to alike states. -/
theorem runs (unwinds : Unwinds step hidden alike) (before : alike one other)
    (ran : execute step allowed inputs one = some last) (followed : execute step allowed others other = some final)
    (same : seen step hidden one inputs = seen step hidden other others) : alike last final := by
  induction inputs generalizing one other others with
  | nil =>
    cases ran
    exact unwinds.silent before followed same.symm
  | cons input inputs ih =>
    obtain ⟨-, next, stepped, rest⟩ := execute_cons.mp ran
    by_cases unseen : hidden one input
    · rw [seen_hidden stepped unseen] at same
      exact ih (unwinds.left before unseen stepped) rest followed same
    · rw [seen_shown stepped unseen] at same
      obtain ⟨middle, after, more, here, shown, taken, later, left⟩ := unwinds.reaches before followed same.symm
      exact ih (unwinds.both here unseen shown stepped taken) rest later left.symm

end Unwinds
end Machine
