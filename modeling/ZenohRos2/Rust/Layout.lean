import Mathlib.Order.Bounds.Defs
import ZenohRos2.Rust.Writer

/-! Formats whose bytes depend on the position they start at.

With alignment, the encoding of a value is not one byte string: the padding in
front of it follows from where the value comes to stand. A layout gives the
bytes for every position. `Lays` says what a writer leaves in its buffer, and
`Reads` what a reader makes of it: the value, and an error on every input that
ends before the layout does. `Fills` is what a writer has to meet in addition,
that it fails only for want of room. All of them go along with sequencing, so a
format that is put together from pieces is understood as soon as its pieces are.
-/

set_option autoImplicit false

namespace Rust

/-- The bytes of a piece, for the position it starts at. -/
@[ext]
structure Layout (α : Type) where
  place : Nat → List α

namespace Layout
variable {α β : Type}

def exactly (bytes : List α) : Layout α := ⟨fun _ => bytes⟩

def nothing : Layout α := exactly []

/-- The second piece starts where the first one ends. -/
def append (first second : Layout α) : Layout α :=
  ⟨fun pos => first.place pos ++ second.place (pos + (first.place pos).length)⟩

instance : Append (Layout α) := ⟨append⟩

def each (piece : β → Layout α) : List β → Layout α
  | [] => nothing
  | value :: values => piece value ++ each piece values

def padding (fill : α) (n : Nat) : Layout α :=
  ⟨fun pos => List.replicate (if pos % n = 0 then 0 else n - pos % n) fill⟩

@[simp] theorem place_append (first second : Layout α) (pos : Nat) :
    (first ++ second).place pos = first.place pos ++ second.place (pos + (first.place pos).length) := rfl

@[simp] theorem place_exactly (bytes : List α) (pos : Nat) : (exactly bytes).place pos = bytes := rfl

theorem isLeast_padding (fill : α) {n : Nat} (positive : 0 < n) (pos : Nat) :
    IsLeast {stop | pos ≤ stop ∧ n ∣ stop} (pos + ((padding fill n).place pos).length) := by
  have below := Nat.mod_lt pos positive
  have split := Nat.div_add_mod pos n
  simp only [padding, List.length_replicate]
  by_cases aligned : pos % n = 0
  · rw [if_pos aligned]
    exact ⟨⟨Nat.le_refl _, Nat.dvd_of_mod_eq_zero aligned⟩, fun _ => And.left⟩
  · rw [if_neg aligned]
    have next : pos + (n - pos % n) = n * (pos / n + 1) := by
      rw [Nat.mul_add, Nat.mul_one]
      omega
    refine ⟨⟨Nat.le_add_right _ _, next ▸ Nat.dvd_mul_right n _⟩, ?_⟩
    rintro other ⟨later, k, rfl⟩
    rw [next]
    refine Nat.mul_le_mul_left n (Nat.lt_of_mul_lt_mul_left (a := n) ?_)
    omega

theorem append_nothing (layout : Layout α) : layout ++ nothing = layout := by
  ext1
  funext pos
  simp [nothing]

end Layout

/-- A slice that is read from the front, and the position of the next read. -/
structure Reader (α : Type) where
  input : List α
  pos : Nat
  deriving DecidableEq

abbrev Get (ε α β : Type) := StateT (Reader α) (Outcome ε) β

section Writing
variable {ε α β : Type}

/-- A call that succeeds has written the layout at the position, and nothing else. -/
def Lays (body : Put ε α Unit) (layout : Layout α) : Prop :=
  ∀ cursor after : Cursor α, cursor.pos ≤ cursor.buf.length → body cursor = .ok ((), after) →
    cursor.pos + (layout.place cursor.pos).length ≤ cursor.buf.length ∧ after = cursor.written (layout.place cursor.pos)

theorem lays_pure : Lays (pure () : Put ε α Unit) .nothing := by
  intro cursor after inside ran
  cases ran
  exact ⟨by simpa [Layout.nothing] using inside, (Cursor.written_nil cursor).symm⟩

theorem Lays.bind {first second : Put ε α Unit} {left right : Layout α} (one : Lays first left)
    (two : Lays second right) : Lays (first >>= fun _ => second) (left ++ right) := by
  intro cursor after inside ran
  change (first cursor >>= fun result => second result.2) = _ at ran
  cases run : first cursor with
  | err error => rw [run] at ran; cases ran
  | panic fault => rw [run] at ran; cases ran
  | ok result =>
    obtain ⟨⟨⟩, middle⟩ := result
    obtain ⟨fits, rfl⟩ := one _ _ inside run
    rw [run, Outcome.ok_bind] at ran
    have more := two _ _ (by rwa [Cursor.written_length fits]) ran
    rw [Cursor.written_length fits, Cursor.written_pos] at more
    obtain ⟨room, rfl⟩ := more
    refine ⟨?_, Cursor.written_append inside _ _⟩
    rw [Layout.place_append, List.length_append]
    omega

/-- `if pos + data.len() > buf.len() { return Err(full) }` in front of the copy. -/
def Put.checked [Target] (full : ε) (data : List α) : Put ε α Unit := do
  Put.require full data.length
  Put.copy data

theorem lays_checked [Target] (full : ε) (data : List α) : Lays (Put.checked full data) (.exactly data) := by
  intro cursor after inside ran
  change (Put.require full data.length cursor >>= fun result => Put.copy data result.2) = _ at ran
  unfold Put.require Put.copy at ran
  by_cases small : cursor.pos + data.length < usizeSize
  · rw [usizeAdd_eq small, Outcome.ok_bind] at ran
    by_cases room : cursor.pos + data.length > cursor.buf.length
    · rw [if_pos room] at ran
      cases ran
    · rw [if_neg room, Outcome.ok_bind, usizeAdd_eq small, Outcome.ok_bind, if_pos (by simpa using room)] at ran
      cases ran
      exact ⟨by simpa using room, rfl⟩
  · rw [usizeAdd, if_neg small] at ran
    cases ran

/-- `for value in values { body(value)?; }` -/
def Put.each (body : β → Put ε α Unit) : List β → Put ε α Unit
  | [] => pure ()
  | value :: values => do
    body value
    Put.each body values

theorem lays_each {body : β → Put ε α Unit} {piece : β → Layout α} {values : List β}
    (lays : ∀ value ∈ values, Lays (body value) (piece value)) :
    Lays (Put.each body values) (.each piece values) := by
  induction values with
  | nil => exact lays_pure
  | cons value values ih =>
    exact (lays value List.mem_cons_self).bind (ih fun other member => lays other (List.mem_cons_of_mem _ member))

end Writing

section Filling
variable [Target] {ε α β : Type} {full : ε}

/-- The body writes the layout at the position if that fits in the rest of the buffer, and fails otherwise. -/
def Fills (full : ε) (body : Put ε α Unit) (layout : Layout α) : Prop :=
  ∀ cursor : Cursor α, cursor.Valid →
    body cursor = if cursor.pos + (layout.place cursor.pos).length ≤ cursor.buf.length then
      .ok ((), cursor.written (layout.place cursor.pos)) else .err full

theorem Puts.fills {body : Put ε α Unit} {bytes : List α} (puts : Puts full body bytes) :
    Fills full body (.exactly bytes) := puts

theorem fills_pure : Fills full (pure () : Put ε α Unit) .nothing := Puts.pure_nil.fills

theorem Fills.bind {first second : Put ε α Unit} {left right : Layout α} (one : Fills full first left)
    (two : Fills full second right) : Fills full (first >>= fun _ => second) (left ++ right) := by
  intro cursor valid
  change (first cursor >>= fun result => second result.2) = _
  rw [one cursor valid, Layout.place_append, List.length_append]
  by_cases fits : cursor.pos + (left.place cursor.pos).length ≤ cursor.buf.length
  -- The second piece is laid out for where the first one stopped.
  · rw [if_pos fits, Outcome.ok_bind, two _ (valid.written fits)]
    simp only [Cursor.written_pos, Cursor.written_length fits, Cursor.written_append valid.inside, Nat.add_assoc]
  · rw [if_neg fits, Outcome.err_bind, if_neg (by omega)]

theorem fills_checked {data : List α} (small : Addressable data) : Fills full (Put.checked full data) (.exactly data) :=
  (puts_require (copies_copy data) rfl small).fills

theorem fills_each {body : β → Put ε α Unit} {piece : β → Layout α} {values : List β}
    (fills : ∀ value ∈ values, Fills full (body value) (piece value)) :
    Fills full (Put.each body values) (.each piece values) := by
  induction values with
  | nil => exact fills_pure
  | cons value values ih =>
    exact (fills value List.mem_cons_self).bind (ih fun other member => fills other (List.mem_cons_of_mem _ member))

theorem encodes_of_fills {body : Put ε α Unit} {layout : Layout α} (fills : Fills full body layout) :
    Encodes full (Put.encoder body) (layout.place 0) := by
  intro buf addressable
  unfold Put.encoder
  rw [fills ⟨buf, 0⟩ ⟨Nat.zero_le _, addressable⟩]
  simp only [Nat.zero_add]
  by_cases room : (layout.place 0).length ≤ buf.length
  · rw [if_pos room, if_pos room, Outcome.ok_bind]
    simp [Cursor.written]
  · rw [if_neg room, if_neg room, Outcome.err_bind]

end Filling

section Reading
variable [Target] {ε α β γ : Type}

/-- Where the layout stands, the reader returns the value and goes on behind
it; where the input breaks off inside the layout, it returns an error. -/
structure Reads (get : Get ε α β) (layout : Layout α) (value : β) : Prop where
  complete : ∀ front rest : List α, Addressable (front ++ layout.place front.length ++ rest) →
    get ⟨front ++ layout.place front.length ++ rest, front.length⟩ =
      .ok (value, ⟨front ++ layout.place front.length ++ rest, front.length + (layout.place front.length).length⟩)
  truncated : ∀ front part missing : List α, layout.place front.length = part ++ missing → missing ≠ [] →
    Addressable (front ++ (part ++ missing)) → ∃ error, get ⟨front ++ part, front.length⟩ = .err error

theorem reads_pure (value : β) : Reads (pure value : Get ε α β) .nothing value where
  complete front rest _ := by
    simp only [Layout.nothing, Layout.place_exactly, List.length_nil, Nat.add_zero]
    rfl
  truncated front part missing same more _ := absurd (List.append_eq_nil_iff.mp same.symm).2 more

theorem Reads.bind {get : Get ε α β} {next : β → Get ε α γ} {left right : Layout α} {value : β} {result : γ}
    (one : Reads get left value) (two : Reads (next value) right result) :
    Reads (get >>= next) (left ++ right) result where
  complete front rest addressable := by
    rw [Layout.place_append] at addressable ⊢
    have first := one.complete front (right.place (front.length + (left.place front.length).length) ++ rest)
      (by simpa only [List.append_assoc] using addressable)
    have second := two.complete (front ++ left.place front.length) rest
      (by simpa only [List.append_assoc, List.length_append] using addressable)
    simp only [List.append_assoc, List.length_append] at first second ⊢
    change (get _ >>= fun read => next read.1 read.2) = _
    rw [first, Outcome.ok_bind, second, Nat.add_assoc]
  truncated front part missing same more addressable := by
    rw [Layout.place_append] at same
    change ∃ error, (get _ >>= fun read => next read.1 read.2) = .err error
    -- The input breaks off behind the first piece, or inside it.
    rcases List.append_eq_append_iff.mp same with ⟨part', rfl, cut⟩ | ⟨missing', whole, rfl⟩
    · have first := one.complete front part' (addressable.of_length_le (by simp))
      obtain ⟨error, failed⟩ := two.truncated (front ++ left.place front.length) part' missing
        (by rwa [List.length_append]) more (by simpa only [List.append_assoc] using addressable)
      refine ⟨error, ?_⟩
      rw [← List.append_assoc, first, Outcome.ok_bind, ← List.length_append]
      exact failed
    · by_cases ends : missing' = []
      · subst ends
        rw [List.append_nil] at whole
        subst whole
        rw [List.nil_append] at more addressable
        have first := one.complete front [] (addressable.of_length_le (by simp))
        obtain ⟨error, failed⟩ := two.truncated (front ++ left.place front.length) [] _
          (by rw [List.length_append, List.nil_append]) more
          (by rwa [List.nil_append, List.append_assoc])
        refine ⟨error, ?_⟩
        rw [List.append_nil] at first failed
        rw [first, Outcome.ok_bind, ← List.length_append]
        exact failed
      · obtain ⟨error, failed⟩ := one.truncated front part missing' whole ends
          (addressable.of_length_le (by simp))
        exact ⟨error, by rw [failed, Outcome.err_bind]⟩

theorem Reads.bind_pure {get : Get ε α β} {next : β → Get ε α γ} {layout : Layout α} {value : β} {result : γ}
    (reads : Reads get layout value) (same : next value = pure result) : Reads (get >>= next) layout result := by
  have both := @Reads.bind _ _ _ _ _ _ next _ _ _ _ reads (same ▸ reads_pure result)
  rwa [Layout.append_nothing] at both

theorem Reads.map {get : Get ε α β} {layout : Layout α} {value : β} (reads : Reads get layout value)
    (convert : β → γ) : Reads (do let value ← get; pure (convert value)) layout (convert value) :=
  reads.bind_pure rfl

/-- `if self.pos + n > self.input.len() { return Err(short) }` in front of the slice of `n` elements. -/
def Get.take (short : ε) (n : Nat) : Get ε α (List α) := fun reader => do
  let stop ← usizeAdd reader.pos n
  if stop > reader.input.length then .err short
  else do
    let slice ← sliceRange reader.input reader.pos stop
    .ok (slice, { reader with pos := stop })

def Get.skip (short : ε) (n : Nat) : Get ε α Unit := fun reader => do
  let stop ← usizeAdd reader.pos n
  if stop > reader.input.length then .err short else .ok ((), { reader with pos := stop })

omit [Target] in
theorem Get.lift_ok_bind {γ : Type} (value : β) (next : β → Get ε α γ) :
    ((liftM (Outcome.ok value : Outcome ε β) : Get ε α β) >>= next) = next value := rfl

theorem reads_take (short : ε) (bytes : List α) : Reads (Get.take short bytes.length) (.exactly bytes) bytes where
  complete front rest addressable := by
    change Get.take short bytes.length ⟨front ++ bytes ++ rest, front.length⟩ = .ok (bytes, ⟨front ++ bytes ++ rest, _⟩)
    simp only [Layout.place_exactly] at addressable ⊢
    unfold Get.take
    dsimp only
    have inside : front.length + bytes.length ≤ (front ++ bytes ++ rest).length := by simp
    rw [usizeAdd_eq (addressable.lt_usizeSize (by simp) (by simp; omega)), Outcome.ok_bind,
      if_neg (Nat.not_lt.mpr inside), sliceRange, if_pos ⟨Nat.le_add_right _ _, inside⟩, Outcome.ok_bind,
      ← List.length_append, List.take_left, List.drop_left]
  truncated front part missing same more addressable := by
    have same : bytes = part ++ missing := same
    unfold Get.take
    subst same
    have longer : 0 < missing.length := List.length_pos_iff.mpr more
    refine ⟨short, ?_⟩
    rw [usizeAdd_eq (addressable.lt_usizeSize (by simp) (by simp)), Outcome.ok_bind,
      if_pos (by simp only [List.length_append]; omega)]

theorem Get.skip_eq (short : ε) (n : Nat) :
    (Get.skip short n : Get ε α Unit) = (do
      let _ ← Get.take short n
      pure ()) := by
  funext reader
  change Get.skip short n reader = Get.take short n reader >>= fun taken => .ok ((), taken.2)
  unfold Get.skip Get.take
  cases added : (usizeAdd reader.pos n : Outcome ε Nat) with
  | ok stop =>
    obtain ⟨-, rfl⟩ := usizeAdd_eq_ok.mp added
    simp only [Outcome.ok_bind]
    by_cases beyond : reader.pos + n > reader.input.length
    · rw [if_pos beyond, if_pos beyond]
      rfl
    · rw [if_neg beyond, if_neg beyond, sliceRange, if_pos ⟨Nat.le_add_right _ _, Nat.le_of_not_lt beyond⟩]
      rfl
  | err error => rfl
  | panic fault => rfl

theorem reads_skip (short : ε) (bytes : List α) : Reads (Get.skip short bytes.length) (.exactly bytes) () := by
  rw [Get.skip_eq]
  exact (reads_take short bytes).map fun _ => ()

def Get.times (get : Get ε α β) : Nat → Get ε α (List β)
  | 0 => pure []
  | n + 1 => do
    let value ← get
    let values ← Get.times get n
    pure (value :: values)

theorem reads_times {get : Get ε α β} {piece : β → Layout α} {values : List β}
    (reads : ∀ value ∈ values, Reads get (piece value) value) :
    Reads (Get.times get values.length) (.each piece values) values := by
  induction values with
  | nil => exact reads_pure []
  | cons value values ih =>
    exact (reads value List.mem_cons_self).bind
      ((ih fun other member => reads other (List.mem_cons_of_mem _ member)).map fun values => value :: values)

end Reading
end Rust
