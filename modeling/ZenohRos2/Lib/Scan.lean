import Std

/-! Waiting for the first item of a stream that is an answer.

`firstOf` gives the answer with the items behind it. Two readings of the items
stop at the same item with the same answer just when they agree on every item
up to that one.
-/

set_option autoImplicit false

namespace Scan
variable {φ ψ ω : Type}

def firstOf (answer : φ → Option ω) : List φ → Option (ω × List φ)
  | [] => none
  | item :: items =>
    match answer item with
    | some found => some (found, items)
    | none => firstOf answer items

/-- Both answer alike, until the second one answers. -/
def AgreeUpTo (answer other : φ → Option ω) : List φ → Prop
  | [] => True
  | item :: items => answer item = other item ∧ (other item = none → AgreeUpTo answer other items)

section Laws
variable {answer other : φ → Option ω} {item : φ} {items : List φ} {found : ω}

theorem firstOf_some (found_ : answer item = some found) : firstOf answer (item :: items) = some (found, items) := by
  rw [firstOf, found_]

theorem firstOf_none (none_ : answer item = none) : firstOf answer (item :: items) = firstOf answer items := by
  rw [firstOf, none_]

theorem firstOf_length_lt {rest : List φ} (first : firstOf answer items = some (found, rest)) :
    rest.length < items.length := by
  induction items with
  | nil => cases first
  | cons item items ih =>
    cases here : answer item with
    | some given =>
      rw [firstOf_some here] at first
      cases first
      exact Nat.lt_succ_self _
    | none =>
      rw [firstOf_none here] at first
      exact Nat.lt_succ_of_lt (ih first)

theorem firstOf_flatMap {parts : ψ → List φ} {answer : φ → Option ω} (items : List ψ) :
    (firstOf (fun item => (parts item).findSome? answer) items).map (·.1) = (items.flatMap parts).findSome? answer := by
  induction items with
  | nil => rfl
  | cons item items ih =>
    rw [List.flatMap_cons, List.findSome?_append, ← ih]
    cases here : (parts item).findSome? answer with
    | some found =>
      simp only [firstOf, here]
      rfl
    | none =>
      simp only [firstOf, here]
      rfl

def seen (write : φ → ψ) (first : Option (ω × List φ)) : Option (ω × List ψ) :=
  first.map fun (found, rest) => (found, rest.map write)

theorem seen_ne {write : φ → ψ} {found : ω} {first : Option (ω × List φ)}
    (shorter : ∀ found rest, first = some (found, rest) → rest.length < items.length) :
    seen write first ≠ some (found, items.map write) := by
  intro same
  cases first with
  | none => cases same
  | some pair =>
    obtain ⟨given, rest⟩ := pair
    have length := congrArg List.length (Prod.mk.inj (Option.some.inj same)).2
    rw [List.length_map, List.length_map] at length
    exact absurd length (Nat.ne_of_lt (shorter given rest rfl))

theorem firstOf_eq_iff (write : φ → ψ) :
    seen write (firstOf answer items) = seen write (firstOf other items) ↔ AgreeUpTo answer other items := by
  induction items with
  | nil => exact iff_of_true rfl trivial
  | cons item items ih =>
    have shorter {answer : φ → Option ω} (found : ω) (rest : List φ)
        (first : firstOf answer items = some (found, rest)) : rest.length < items.length := firstOf_length_lt first
    unfold AgreeUpTo
    cases here : answer item with
    | some found =>
      rw [firstOf_some here]
      cases there : other item with
      | some given =>
        rw [firstOf_some there]
        simp [seen]
      | none =>
        rw [firstOf_none there]
        exact iff_of_false (fun same => seen_ne shorter same.symm) (by simp)
    | none =>
      rw [firstOf_none here]
      cases there : other item with
      | some given =>
        rw [firstOf_some there]
        exact iff_of_false (seen_ne shorter) (by simp)
      | none =>
        rw [firstOf_none there, ih]
        simp

end Laws
end Scan
