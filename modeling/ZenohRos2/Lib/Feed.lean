import Mathlib.Algebra.GroupWithZero.Nat

/-! Consumers that are fed a stream in chunks.

Between two chunks, what a consumer holds of an unfinished item may be dropped.
Where nothing is held the chunks do not matter, and where something is, it is
missing from the items: what these cost can never make up for it again.
-/

set_option autoImplicit false

namespace Feed
variable {σ β φ : Type}

inductive Event (β : Type) where
  | chunk (data : List β)
  | drop
  deriving DecidableEq

def Event.data : Event β → List β
  | .chunk data => data
  | .drop => []

def stream (events : List (Event β)) : List β := events.flatMap Event.data

structure Consumer (σ β φ : Type) where
  feed : σ → β → σ × List φ
  drop : σ → σ

namespace Consumer
variable (consumer : Consumer σ β φ)

def feedAll : σ → List β → σ × List φ
  | state, [] => (state, [])
  | state, symbol :: rest =>
    let (next, items) := consumer.feed state symbol
    let (last, more) := feedAll next rest
    (last, items ++ more)

def run : σ → List (Event β) → σ × List φ
  | state, [] => (state, [])
  | state, .chunk data :: rest =>
    let (next, items) := consumer.feedAll state data
    let (last, more) := run next rest
    (last, items ++ more)
  | state, .drop :: rest => run (consumer.drop state) rest

theorem feedAll_cons (state : σ) (symbol : β) (rest : List β) :
    consumer.feedAll state (symbol :: rest) =
      ((consumer.feedAll (consumer.feed state symbol).1 rest).1,
        (consumer.feed state symbol).2 ++ (consumer.feedAll (consumer.feed state symbol).1 rest).2) := rfl

theorem run_chunk (state : σ) (data : List β) (rest : List (Event β)) :
    consumer.run state (.chunk data :: rest) =
      ((consumer.run (consumer.feedAll state data).1 rest).1,
        (consumer.feedAll state data).2 ++ (consumer.run (consumer.feedAll state data).1 rest).2) := rfl

theorem feedAll_append (state : σ) (first rest : List β) :
    consumer.feedAll state (first ++ rest) =
      ((consumer.feedAll (consumer.feedAll state first).1 rest).1,
        (consumer.feedAll state first).2 ++ (consumer.feedAll (consumer.feedAll state first).1 rest).2) := by
  induction first generalizing state with
  | nil => rfl
  | cons symbol first ih => simp only [List.cons_append, feedAll_cons, ih, List.append_assoc]

/-- A consumer that is simulated step by step is simulated on every input. -/
theorem feedAll_simulates {τ : Type} {concrete : Consumer τ β φ} {view : τ → σ}
    (simulates : ∀ state symbol, consumer.feed (view state) symbol =
      (view (concrete.feed state symbol).1, (concrete.feed state symbol).2)) (state : τ) (data : List β) :
    consumer.feedAll (view state) data =
      (view (concrete.feedAll state data).1, (concrete.feedAll state data).2) := by
  induction data generalizing state with
  | nil => rfl
  | cons symbol data ih => simp only [feedAll_cons, simulates, ih]

theorem run_append (state : σ) (first rest : List (Event β)) :
    consumer.run state (first ++ rest) =
      ((consumer.run (consumer.run state first).1 rest).1,
        (consumer.run state first).2 ++ (consumer.run (consumer.run state first).1 rest).2) := by
  induction first generalizing state with
  | nil => rfl
  | cons event first ih =>
    cases event with
    | chunk data => simp only [List.cons_append, run_chunk, ih, List.append_assoc]
    | drop => simp only [List.cons_append, run, ih]

/-- If every drop finds nothing to drop, the chunks do not matter. -/
theorem run_eq_feedAll {state : σ} {events : List (Event β)}
    (settled : ∀ before after, events = before ++ .drop :: after →
      consumer.drop (consumer.feedAll state (stream before)).1 = (consumer.feedAll state (stream before)).1) :
    consumer.run state events = consumer.feedAll state (stream events) := by
  induction events generalizing state with
  | nil => rfl
  | cons event events ih =>
    cases event with
    | chunk data =>
      -- The hypothesis speaks of the front of the whole run: the chunk goes back in front of it.
      have rest : consumer.run (consumer.feedAll state data).1 events =
          consumer.feedAll (consumer.feedAll state data).1 (stream events) := by
        apply ih
        intro before after split
        have still := settled (.chunk data :: before) after (by rw [split, List.cons_append])
        rw [show stream (.chunk data :: before) = data ++ stream before from rfl, feedAll_append] at still
        exact still
      rw [show stream (.chunk data :: events) = data ++ stream events from rfl, feedAll_append, run_chunk, rest]
    | drop =>
      have still : consumer.drop state = state := settled [] events rfl
      rw [run, still]
      apply ih
      intro before after split
      exact settled (.drop :: before) after (by rw [split, List.cons_append])

/-- A measure of what is held, and of what an item takes from the stream. -/
structure Measure where
  held : σ → Nat
  cost : φ → Nat
  feed_le : ∀ state symbol,
    held (consumer.feed state symbol).1 + ((consumer.feed state symbol).2.map cost).sum ≤ held state + 1
  drop_le : ∀ state, held (consumer.drop state) ≤ held state

namespace Measure
variable {consumer} (measure : consumer.Measure)

-- No symbol is paid for twice: it is held, or part of an item, or gone.
theorem feedAll_le (state : σ) (data : List β) :
    measure.held (consumer.feedAll state data).1 + ((consumer.feedAll state data).2.map measure.cost).sum ≤
      measure.held state + data.length := by
  induction data generalizing state with
  | nil => exact Nat.le_refl _
  | cons symbol data ih =>
    have first := measure.feed_le state symbol
    have rest := ih (consumer.feed state symbol).1
    simp only [feedAll_cons, List.map_append, List.sum_append, List.length_cons]
    omega

theorem run_le (state : σ) (events : List (Event β)) :
    measure.held (consumer.run state events).1 + ((consumer.run state events).2.map measure.cost).sum ≤
      measure.held state + (stream events).length := by
  induction events generalizing state with
  | nil => exact Nat.le_refl _
  | cons event events ih =>
    cases event with
    | chunk data =>
      have first := measure.feedAll_le state data
      have rest := ih (consumer.feedAll state data).1
      rw [show stream (.chunk data :: events) = data ++ stream events from rfl]
      simp only [run_chunk, List.map_append, List.sum_append, List.length_append]
      omega
    | drop => exact Nat.le_trans (ih (consumer.drop state)) (Nat.add_le_add_right (measure.drop_le state) _)

theorem run_lt_of_drop {state : σ} {events before after : List (Event β)} (split : events = before ++ .drop :: after)
    (lost : measure.held (consumer.drop (consumer.run state before).1) < measure.held (consumer.run state before).1) :
    ((consumer.run state events).2.map measure.cost).sum < measure.held state + (stream events).length := by
  have first := measure.run_le state before
  have rest := measure.run_le (consumer.drop (consumer.run state before).1) after
  have whole : (stream events).length = (stream before).length + (stream after).length := by
    rw [split, stream, List.flatMap_append, List.length_append]
    rfl
  rw [whole, split, run_append]
  simp only [run, List.map_append, List.sum_append]
  omega

end Measure
end Consumer
end Feed
