import Mathlib.Algebra.Group.Nat.Defs

/-! Results of panicking fallible code, with the calculus of their postconditions.

A call returns a value, returns an error, or panics. Errors are ordinary
results that a caller may match on; a panic unwinds through every caller.
`Returns` is the postcondition of the calls that must not panic, and its rules
follow the way such code is put together.
-/

set_option autoImplicit false

namespace Rust

inductive Fault where
  | overflow
  | outOfBounds
  deriving DecidableEq, Repr

inductive Outcome (ε α : Type) where
  | ok (value : α)
  | err (error : ε)
  | panic (fault : Fault)
  deriving DecidableEq, Repr

namespace Outcome
variable {ε δ α β : Type}

def bind (result : Outcome ε α) (next : α → Outcome ε β) : Outcome ε β :=
  match result with
  | .ok value => next value
  | .err error => .err error
  | .panic fault => .panic fault

instance : Monad (Outcome ε) where
  pure := .ok
  bind := Outcome.bind

@[simp] theorem ok_bind (value : α) (next : α → Outcome ε β) :
    ((Outcome.ok value : Outcome ε α) >>= next) = next value := rfl

@[simp] theorem err_bind (error : ε) (next : α → Outcome ε β) :
    ((Outcome.err error : Outcome ε α) >>= next) = .err error := rfl

@[simp] theorem panic_bind (fault : Fault) (next : α → Outcome ε β) :
    ((Outcome.panic fault : Outcome ε α) >>= next) = .panic fault := rfl

-- With the monad laws a long body can be cut at any of its calls.
instance : LawfulMonad (Outcome ε) := LawfulMonad.mk' (Outcome ε)
  (fun result => by cases result <;> rfl)
  (fun _ _ => rfl)
  (fun result _ _ => by cases result <;> rfl)

/-- `Result::map_err`: a panic is not an error and passes through. -/
def mapErr (convert : ε → δ) : Outcome ε α → Outcome δ α
  | .ok value => .ok value
  | .err error => .err (convert error)
  | .panic fault => .panic fault

-- What a body that succeeded has gone through.
theorem bind_eq_ok {result : Outcome ε α} {next : α → Outcome ε β} {value : β} :
    (result >>= next) = .ok value ↔ ∃ middle, result = .ok middle ∧ next middle = .ok value := by
  cases result with
  | ok middle => simp
  | err error => simp
  | panic fault => simp

theorem bind_eq_err {result : Outcome ε α} {next : α → Outcome ε β} {error : ε}
    (goesOn : ∀ value error, next value ≠ .err error) : (result >>= next) = .err error ↔ result = .err error := by
  cases result with
  | ok value => exact iff_of_false (goesOn value error) nofun
  | err error => simp
  | panic fault => exact iff_of_false nofun nofun

theorem mapErr_eq_ok {convert : ε → δ} {result : Outcome ε α} {value : α} :
    result.mapErr convert = .ok value ↔ result = .ok value := by
  cases result <;> simp [mapErr]

/-- The call does not panic, and a value it returns satisfies `post`. -/
def Returns (result : Outcome ε α) (post : α → Prop) : Prop :=
  match result with
  | .ok value => post value
  | .err _ => True
  | .panic _ => False

@[simp] theorem returns_ok (value : α) (post : α → Prop) :
    (Outcome.ok value : Outcome ε α).Returns post ↔ post value := Iff.rfl

@[simp] theorem returns_err (error : ε) (post : α → Prop) :
    (Outcome.err error : Outcome ε α).Returns post ↔ True := Iff.rfl

theorem err_returns (error : ε) (post : α → Prop) : (Outcome.err error : Outcome ε α).Returns post :=
  trivial

@[simp] theorem returns_panic (fault : Fault) (post : α → Prop) :
    (Outcome.panic fault : Outcome ε α).Returns post ↔ False := Iff.rfl

@[simp] theorem returns_bind (result : Outcome ε α) (next : α → Outcome ε β) (post : β → Prop) :
    (result >>= next).Returns post ↔ result.Returns fun value => (next value).Returns post := by
  cases result <;> rfl

@[simp] theorem returns_ite (condition : Prop) [Decidable condition]
    (yes no : Outcome ε α) (post : α → Prop) :
    (if condition then yes else no).Returns post ↔
      if condition then yes.Returns post else no.Returns post := by
  split <;> rfl

theorem returns_guard {condition : Prop} [Decidable condition] {early rest : Outcome ε α}
    {post : α → Prop} (holds : early.Returns post) :
    (if condition then early else rest).Returns post ↔ (¬condition → rest.Returns post) := by
  by_cases taken : condition
  · simpa [taken] using holds
  · simp [taken]

theorem Returns.mono {result : Outcome ε α} {post out : α → Prop} (returns : result.Returns post)
    (implies : ∀ value, result = .ok value → post value → out value) : result.Returns out := by
  cases result with
  | ok value => exact implies value rfl returns
  | err error => trivial
  | panic fault => exact returns

theorem returns_congr {result : Outcome ε α} {post out : α → Prop}
    (agree : ∀ value, result = .ok value → (post value ↔ out value)) :
    result.Returns post ↔ result.Returns out :=
  ⟨fun returns => returns.mono fun value same => (agree value same).mp,
    fun returns => returns.mono fun value same => (agree value same).mpr⟩

theorem Returns.of_ok {result : Outcome ε α} {post : α → Prop} {value : α}
    (returns : result.Returns post) (same : result = .ok value) : post value := by
  subst same
  exact returns

/-- The call finds the related value, or fails where there is none. -/
structure Computes (result : Outcome ε α) (relation : α → Prop) : Prop where
  found : ∀ value, relation value → result = .ok value
  missing : (∀ value, ¬ relation value) → ∃ error, result = .err error

theorem Computes.returns_iff {result : Outcome ε α} {relation : α → Prop}
    (computes : result.Computes relation) (post : α → Prop) :
    result.Returns post ↔ ∀ value, relation value → post value := by
  by_cases exists_ : ∃ value, relation value
  · obtain ⟨value, holds⟩ := exists_
    have same := computes.found value holds
    refine ⟨fun returns other related => ?_, fun all => same ▸ all value holds⟩
    exact returns.of_ok (computes.found other related)
  · have none := not_exists.mp exists_
    obtain ⟨error, failed⟩ := computes.missing none
    rw [failed]
    exact ⟨fun _ value holds => absurd holds (none value), fun _ => trivial⟩

theorem Computes.holds {result : Outcome ε α} {relation : α → Prop} (computes : result.Computes relation) {value : α}
    (same : result = .ok value) : relation value := by
  by_cases exists_ : ∃ other, relation other
  · obtain ⟨other, holds⟩ := exists_
    rw [computes.found other holds] at same
    cases same
    exact holds
  · obtain ⟨error, failed⟩ := computes.missing (not_exists.mp exists_)
    rw [failed] at same
    cases same

/-- Two calls end alike: with related values, with the same error, or with the same panic. -/
inductive Related (relation : α → β → Prop) : Outcome ε α → Outcome ε β → Prop where
  | ok {left : α} {right : β} (related : relation left right) : Related relation (.ok left) (.ok right)
  | err (error : ε) : Related relation (.err error) (.err error)
  | panic (fault : Fault) : Related relation (.panic fault) (.panic fault)

namespace Related
variable {γ θ : Type} {relation : α → β → Prop} {left : Outcome ε α} {right : Outcome ε β}

theorem bind {out : γ → θ → Prop} {next : α → Outcome ε γ} {next' : β → Outcome ε θ}
    (related : Related relation left right) (rest : ∀ a b, relation a b → Related out (next a) (next' b)) :
    Related out (left >>= next) (right >>= next') := by
  cases related with
  | ok holds => exact rest _ _ holds
  | err error => exact .err error
  | panic fault => exact .panic fault

theorem ite {condition condition' : Prop} [Decidable condition] [Decidable condition'] {yes no : Outcome ε α}
    {yes' no' : Outcome ε β} (same : condition ↔ condition') (one : condition → Related relation yes yes')
    (two : ¬condition → Related relation no no') :
    Related relation (if condition then yes else no) (if condition' then yes' else no') := by
  by_cases holds : condition
  · rw [if_pos holds, if_pos (same.mp holds)]
    exact one holds
  · rw [if_neg holds, if_neg (fun other => holds (same.mpr other))]
    exact two holds

theorem found (related : Related relation left right) :
    Related (fun a b => left = .ok a ∧ relation a b) left right := by
  cases related with
  | ok holds => exact .ok ⟨rfl, holds⟩
  | err error => exact .err error
  | panic fault => exact .panic fault

end Related
end Outcome
end Rust
