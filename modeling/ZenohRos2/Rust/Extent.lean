import ZenohRos2.Rust.Layout

/-! What a reader asks of its input.

An extent says where the pieces of an input end, and which slices are asked for
with a length that stands in the input itself. It is a relation between positions
and says nothing about machine integers. `Follows` connects a reader to it: the
reader ends where the extent does, fails for the slices that the input does not
have, and panics for the slices whose end is no position. It goes along with
sequencing, like the layouts of writers.
-/

set_option autoImplicit false

namespace Rust

@[ext]
structure Extent where
  /-- From the first position to the second there is one piece. -/
  spans : Nat → Nat → Prop
  /-- On the way from the first position, a slice is asked for: where it starts, and its length. -/
  asks : Nat → Nat → Nat → Prop

namespace Extent
variable {α β : Type}

def nothing : Extent := ⟨fun pos stop => stop = pos, fun _ _ _ => False⟩

def never : Extent := ⟨fun _ _ => False, fun _ _ _ => False⟩

def append (first second : Extent) : Extent where
  spans pos stop := ∃ middle, first.spans pos middle ∧ second.spans middle stop
  asks pos start length :=
    first.asks pos start length ∨ ∃ middle, first.spans pos middle ∧ second.asks middle start length

instance : Append Extent := ⟨append⟩

def times (piece : Extent) : Nat → Extent
  | 0 => nothing
  | n + 1 => piece ++ times piece n

/-- A value that is found first, and the piece that it announces. -/
def given (found : Nat → β → Nat → Prop) (rest : β → Extent) : Extent where
  spans pos stop := ∃ value middle, found pos value middle ∧ (rest value).spans middle stop
  asks pos start length := ∃ value middle, found pos value middle ∧ (rest value).asks middle start length

def slice (input : List α) (valid : List α → Prop) (n : Nat) : Extent where
  spans pos stop := stop = pos + n ∧ stop ≤ input.length ∧ valid ((input.take stop).drop pos)
  asks pos start length := start = pos ∧ length = n

theorem append_nothing (extent : Extent) : extent ++ nothing = extent := by
  change append extent nothing = extent
  ext pos
  · constructor
    · rintro ⟨middle, spans, rfl⟩
      exact spans
    · exact fun spans => ⟨_, spans, rfl⟩
  · exact or_iff_left fun ⟨_, _, no⟩ => no

end Extent

section Reading
variable [Target] {ε α β γ : Type} {input : List α}

/-- The reader finds the related value, and fails where there is none. -/
structure Finds (get : Get ε α β) (input : List α) (found : Nat → β → Nat → Prop) : Prop where
  returns : ∀ {pos : Nat}, pos ≤ input.length → (get ⟨input, pos⟩).Returns fun read =>
    read.2.input = input ∧ read.2.pos ≤ input.length ∧ found pos read.1 read.2.pos
  complete : ∀ {pos : Nat} {value : β} {stop : Nat}, pos ≤ input.length → found pos value stop →
    get ⟨input, pos⟩ = .ok (value, ⟨input, stop⟩)

/-- The reader goes along with the extent. -/
structure Follows (get : Get ε α β) (input : List α) (extent : Extent) : Prop where
  sound : ∀ {pos : Nat} {value : β} {after : Reader α}, pos ≤ input.length → get ⟨input, pos⟩ = .ok (value, after) →
    after.input = input ∧ after.pos ≤ input.length ∧ extent.spans pos after.pos
  complete : ∀ {pos stop : Nat}, pos ≤ input.length → extent.spans pos stop →
    ∃ value, get ⟨input, pos⟩ = .ok (value, ⟨input, stop⟩)
  /-- Only the end of an announced slice can overflow. -/
  asked : ∀ {pos : Nat} {fault : Fault}, pos ≤ input.length → get ⟨input, pos⟩ = .panic fault →
    ∃ start length, extent.asks pos start length ∧ usizeSize ≤ start + length
  overflows : ∀ {pos start length : Nat}, pos ≤ input.length → extent.asks pos start length →
    usizeSize ≤ start + length → ∃ fault, get ⟨input, pos⟩ = .panic fault
  missing : ∀ {pos start length : Nat}, pos ≤ input.length → extent.asks pos start length →
    start + length < usizeSize → input.length < start + length → ∃ error, get ⟨input, pos⟩ = .err error

theorem follows_pure (value : β) : Follows (pure value : Get ε α β) input .nothing where
  sound inside same := by
    cases same
    exact ⟨rfl, inside, rfl⟩
  complete _ same := ⟨value, by rw [show _ = _ from same]; rfl⟩
  asked _ same := nomatch same
  overflows _ asks := asks.elim
  missing _ asks := asks.elim

theorem follows_never {get : Get ε α β} {error : ε} (fails : ∀ reader, get reader = .err error) :
    Follows get input .never where
  sound _ same := by
    rw [fails] at same
    cases same
  complete _ spans := spans.elim
  asked _ same := by
    rw [fails] at same
    cases same
  overflows _ asks := asks.elim
  missing _ asks := asks.elim

section Sequencing
variable {get : Get ε α β} {next : β → Get ε α γ} {left right : Extent}

section Results
omit [Target]

theorem bind_of_ok {value : β} {middle : Reader α} {reader : Reader α} (read : get reader = .ok (value, middle)) :
    (get >>= next) reader = next value middle := by
  change (get reader >>= fun read => next read.1 read.2) = _
  rw [read, Outcome.ok_bind]

theorem bind_of_err {error : ε} {reader : Reader α} (read : get reader = .err error) :
    (get >>= next) reader = .err error := by
  change (get reader >>= fun read => next read.1 read.2) = _
  rw [read, Outcome.err_bind]

theorem bind_of_panic {fault : Fault} {reader : Reader α} (read : get reader = .panic fault) :
    (get >>= next) reader = .panic fault := by
  change (get reader >>= fun read => next read.1 read.2) = _
  rw [read, Outcome.panic_bind]

end Results

theorem Follows.bind (one : Follows get input left)
    (two : ∀ pos value after, get ⟨input, pos⟩ = .ok (value, after) → Follows (next value) input right) :
    Follows (get >>= next) input (left ++ right) where
  sound {pos value after} inside same := by
    cases read : get ⟨input, pos⟩ with
    | err error =>
      rw [bind_of_err read] at same
      cases same
    | panic fault =>
      rw [bind_of_panic read] at same
      cases same
    | ok result =>
      obtain ⟨first, input', middle⟩ := result
      obtain ⟨rfl, within, spans⟩ := one.sound inside read
      rw [bind_of_ok read] at same
      obtain ⟨kept, stays, more⟩ := (two pos first _ read).sound within same
      exact ⟨kept, stays, middle, spans, more⟩
  complete {pos stop} inside := by
    rintro ⟨middle, spans, more⟩
    obtain ⟨first, read⟩ := one.complete inside spans
    have within := (one.sound inside read).2.1
    obtain ⟨value, rest⟩ := (two pos first _ read).complete within more
    exact ⟨value, by rw [bind_of_ok read, rest]⟩
  asked {pos fault} inside same := by
    cases read : get ⟨input, pos⟩ with
    | err error =>
      rw [bind_of_err read] at same
      cases same
    | panic fault =>
      obtain ⟨start, length, asks, beyond⟩ := one.asked inside read
      exact ⟨start, length, .inl asks, beyond⟩
    | ok result =>
      obtain ⟨first, input', middle⟩ := result
      obtain ⟨rfl, within, spans⟩ := one.sound inside read
      rw [bind_of_ok read] at same
      obtain ⟨start, length, asks, beyond⟩ := (two pos first _ read).asked within same
      exact ⟨start, length, .inr ⟨middle, spans, asks⟩, beyond⟩
  overflows {pos start length} inside asks beyond := by
    -- The piece that overflows is one of the first reader, or of what it leaves to read.
    rcases asks with asks | ⟨middle, spans, asks⟩
    · obtain ⟨fault, read⟩ := one.overflows inside asks beyond
      exact ⟨fault, bind_of_panic read⟩
    · obtain ⟨first, read⟩ := one.complete inside spans
      obtain ⟨fault, rest⟩ := (two pos first _ read).overflows (one.sound inside read).2.1 asks beyond
      exact ⟨fault, by rw [bind_of_ok read, rest]⟩
  missing {pos start length} inside asks small beyond := by
    rcases asks with asks | ⟨middle, spans, asks⟩
    · obtain ⟨error, read⟩ := one.missing inside asks small beyond
      exact ⟨error, bind_of_err read⟩
    · obtain ⟨first, read⟩ := one.complete inside spans
      obtain ⟨error, rest⟩ := (two pos first _ read).missing (one.sound inside read).2.1 asks small beyond
      exact ⟨error, by rw [bind_of_ok read, rest]⟩

theorem Follows.bind_pure (one : Follows get input left)
    (two : ∀ pos value after, get ⟨input, pos⟩ = .ok (value, after) → ∃ result, next value = pure result) :
    Follows (get >>= next) input left := by
  rw [← Extent.append_nothing left]
  refine one.bind fun pos value after read => ?_
  obtain ⟨result, same⟩ := two pos value after read
  rw [same]
  exact follows_pure result

theorem Follows.map (one : Follows get input left) (convert : β → γ) :
    Follows (do let value ← get; pure (convert value)) input left :=
  one.bind_pure fun _ value _ _ => ⟨convert value, rfl⟩

theorem follows_times (one : Follows get input left) (n : Nat) :
    Follows (Get.times get n) input (left.times n) := by
  induction n with
  | zero => exact follows_pure []
  | succ n ih => exact one.bind fun _ value _ _ => ih.map fun values => value :: values

theorem Finds.bind {found : Nat → β → Nat → Prop} {rest : β → Extent} (one : Finds get input found)
    (two : ∀ value, Follows (next value) input (rest value)) :
    Follows (get >>= next) input (.given found rest) where
  sound {pos value after} inside same := by
    obtain ⟨⟨first, input', middle⟩, read, more⟩ := Outcome.bind_eq_ok.mp same
    obtain ⟨rfl, within, at_⟩ := (one.returns inside).of_ok read
    obtain ⟨kept, stays, spans⟩ := (two first).sound within more
    exact ⟨kept, stays, first, middle, at_, spans⟩
  complete {pos stop} inside := by
    rintro ⟨first, middle, at_, spans⟩
    have read := one.complete inside at_
    obtain ⟨value, more⟩ := (two first).complete ((one.returns inside).of_ok read).2.1 spans
    exact ⟨value, by rw [bind_of_ok read, more]⟩
  asked {pos fault} inside same := by
    have returns := one.returns inside
    cases read : get ⟨input, pos⟩ with
    | err error => cases (bind_of_err read).symm.trans same
    | panic fault =>
      rw [read] at returns
      exact returns.elim
    | ok result =>
      obtain ⟨first, input', middle⟩ := result
      obtain ⟨rfl, within, at_⟩ := returns.of_ok read
      rw [bind_of_ok read] at same
      obtain ⟨start, length, asks, beyond⟩ := (two first).asked within same
      exact ⟨start, length, ⟨first, middle, at_, asks⟩, beyond⟩
  overflows {pos start length} inside asks beyond := by
    obtain ⟨first, middle, at_, asks⟩ := asks
    have read := one.complete inside at_
    obtain ⟨fault, more⟩ := (two first).overflows ((one.returns inside).of_ok read).2.1 asks beyond
    exact ⟨fault, by rw [bind_of_ok read, more]⟩
  missing {pos start length} inside asks small beyond := by
    obtain ⟨first, middle, at_, asks⟩ := asks
    have read := one.complete inside at_
    obtain ⟨error, more⟩ := (two first).missing ((one.returns inside).of_ok read).2.1 asks small beyond
    exact ⟨error, by rw [bind_of_ok read, more]⟩

theorem Finds.follows {found : Nat → β → Nat → Prop} (one : Finds get input found) :
    Follows get input (.given found fun _ => .nothing) := by
  rw [← bind_pure get]
  exact one.bind follows_pure

omit [Target] in
theorem Finds.map {found : Nat → β → Nat → Prop} {found' : Nat → γ → Nat → Prop} (one : Finds get input found)
    (convert : β → γ) (back : γ → β)
    (forth : ∀ {pos value stop}, found pos value stop → found' pos (convert value) stop)
    (from_ : ∀ {pos value stop}, found' pos value stop → found pos (back value) stop)
    (inverse : ∀ value, convert (back value) = value) :
    Finds (do let value ← get; pure (convert value)) input found' where
  returns inside := by
    apply (Outcome.returns_bind _ _ _).mpr
    refine (one.returns inside).mono ?_
    rintro ⟨value, after⟩ - ⟨kept, within, at_⟩
    exact ⟨kept, within, forth at_⟩
  complete {pos value stop} inside at_ := by
    rw [bind_of_ok (one.complete inside (from_ at_)), inverse]
    rfl

end Sequencing

/-- A reader on an extent neither panics nor reads beyond the end, and fails for what the input does not have, if
and only if every announced slice ends at a position. -/
theorem Follows.safe_iff {get : Get ε α β} {extent : Extent} (follows : Follows get input extent)
    {pos : Nat} (inside : pos ≤ input.length) :
    ((get ⟨input, pos⟩).Returns (fun read => read.2.pos ≤ input.length) ∧
      ∀ start length, extent.asks pos start length → input.length < start + length →
        ∃ error, get ⟨input, pos⟩ = .err error) ↔
      ∀ start length, extent.asks pos start length → start + length < usizeSize := by
  constructor
  · rintro ⟨returns, -⟩ start length asks
    apply Nat.lt_of_not_le
    intro beyond
    obtain ⟨fault, read⟩ := follows.overflows inside asks beyond
    rw [read] at returns
    exact returns
  · intro small
    refine ⟨?_, fun start length asks beyond => follows.missing inside asks (small start length asks) beyond⟩
    cases read : get ⟨input, pos⟩ with
    | ok result => exact (follows.sound inside read).2.1
    | err error => trivial
    | panic fault =>
      obtain ⟨start, length, asks, beyond⟩ := follows.asked inside read
      exact Nat.not_lt.mpr beyond (small start length asks)

section Slices
variable {short : ε} {valid : List α → Prop} {n pos : Nat}

theorem take_eq (fits : pos + n < usizeSize) :
    (Get.take short n : Get ε α (List α)) ⟨input, pos⟩ = if input.length < pos + n then .err short else
      .ok ((input.take (pos + n)).drop pos, ⟨input, pos + n⟩) := by
  unfold Get.take
  rw [usizeAdd_eq fits, Outcome.ok_bind]
  by_cases beyond : pos + n > input.length
  · rw [if_pos beyond, if_pos beyond]
  · rw [if_neg beyond, if_neg beyond, sliceRange, if_pos ⟨Nat.le_add_right _ _, Nat.le_of_not_lt beyond⟩,
      Outcome.ok_bind]

theorem take_overflows (beyond : usizeSize ≤ pos + n) :
    (Get.take short n : Get ε α (List α)) ⟨input, pos⟩ = .panic .overflow := by
  unfold Get.take
  rw [usizeAdd, if_neg (Nat.not_lt.mpr beyond), Outcome.panic_bind]

theorem Addressable.fits_usize (addressable : Addressable input) (inside : pos ≤ input.length) (small : n < 2 ^ 31) :
    pos + n < usizeSize := by
  have bound : input.length ≤ isizeMax := addressable
  have width := le_isizeMax small
  rw [usizeSize_eq]
  omega

theorem follows_slice {next : List α → Get ε α β} (addressable : Addressable input)
    (accepts : ∀ part, part.length = n → valid part → ∃ value, ∀ reader, next part reader = .ok (value, reader))
    (rejects : ∀ part, part.length = n → ¬valid part → ∃ error, ∀ reader, next part reader = .err error) :
    Follows (Get.take short n >>= next) input (.slice input valid n) := by
  have size {pos : Nat} (within : pos + n ≤ input.length) : ((input.take (pos + n)).drop pos).length = n := by
    rw [List.length_drop, List.length_take, Nat.min_eq_left within, Nat.add_sub_cancel_left]
  have overflowing {pos : Nat} (large : usizeSize ≤ pos + n) :
      (Get.take short n >>= next) ⟨input, pos⟩ = .panic .overflow := bind_of_panic (take_overflows large)
  have beyond {pos : Nat} (small : pos + n < usizeSize) (ends : input.length < pos + n) :
      (Get.take short n >>= next) ⟨input, pos⟩ = .err short := bind_of_err (by rw [take_eq small, if_pos ends])
  have inside {pos : Nat} (within : pos + n ≤ input.length) :
      (Get.take short n >>= next) ⟨input, pos⟩ = next ((input.take (pos + n)).drop pos) ⟨input, pos + n⟩ := by
    have small : pos + n < usizeSize := by
      have sum := addressable.lt_usizeSize (Nat.zero_le _) within
      omega
    exact bind_of_ok (by rw [take_eq small, if_neg (Nat.not_lt.mpr within)])
  -- The end of the slice overflows, lies behind the input, or lies inside of it.
  refine ⟨fun {pos value after} _ same => ?_, fun {pos stop} _ spans => ?_, fun {pos fault} _ same => ?_,
    fun {pos start length} _ asks large => ?_, fun {pos start length} _ asks small ends => ?_⟩
  · rcases Nat.lt_or_ge (pos + n) usizeSize with small | large
    · rcases Nat.lt_or_ge input.length (pos + n) with ends | within
      · cases (beyond small ends).symm.trans same
      · rw [inside within] at same
        by_cases holds : valid ((input.take (pos + n)).drop pos)
        · obtain ⟨other, accepted⟩ := accepts _ (size within) holds
          rw [accepted] at same
          cases same
          exact ⟨rfl, within, rfl, within, holds⟩
        · obtain ⟨error, rejected⟩ := rejects _ (size within) holds
          cases (rejected _).symm.trans same
    · cases (overflowing large).symm.trans same
  · obtain ⟨rfl, within, holds⟩ := spans
    obtain ⟨value, accepted⟩ := accepts _ (size within) holds
    exact ⟨value, by rw [inside within, accepted]⟩
  · rcases Nat.lt_or_ge (pos + n) usizeSize with small | large
    · rcases Nat.lt_or_ge input.length (pos + n) with ends | within
      · cases (beyond small ends).symm.trans same
      · rw [inside within] at same
        by_cases holds : valid ((input.take (pos + n)).drop pos)
        · obtain ⟨other, accepted⟩ := accepts _ (size within) holds
          cases (accepted _).symm.trans same
        · obtain ⟨error, rejected⟩ := rejects _ (size within) holds
          cases (rejected _).symm.trans same
    · exact ⟨pos, n, ⟨rfl, rfl⟩, large⟩
  · obtain ⟨rfl, rfl⟩ := asks
    exact ⟨.overflow, overflowing large⟩
  · obtain ⟨rfl, rfl⟩ := asks
    exact ⟨short, beyond small ends⟩

theorem follows_slice_zero (addressable : Addressable input) (empty : valid []) (value : β) :
    Follows (pure value : Get ε α β) input (.slice input valid 0) where
  sound inside same := by
    cases same
    exact ⟨rfl, inside, rfl, inside, by simpa using empty⟩
  complete := by
    rintro pos stop - ⟨rfl, -, -⟩
    exact ⟨value, rfl⟩
  asked _ same := nomatch same
  overflows := by
    rintro pos start length inside ⟨rfl, rfl⟩ beyond
    have fits := addressable.fits_usize inside (show 0 < 2 ^ 31 by decide)
    omega
  missing := by
    rintro pos start length inside ⟨rfl, rfl⟩ - beyond
    omega

end Slices
end Reading
end Rust
