import ZenohRos2.Rust.Slice

/-! Writers into a buffer of fixed length.

An encoder takes `&mut [T]` and returns how much of it was written, or the
error `full` when the buffer is too short. It is put together from pieces that
each check the room left before they write, and from calls of other encoders
on the rest of the buffer. `Encodes` says that an encoder writes one fixed
byte string, whatever the buffer: that is what a caller has to know of it.

The buffer of a failed call is not part of its result: every caller returns
the error and drops the buffer.
-/

set_option autoImplicit false

namespace Rust

section Cursor
variable {α : Type}

/-- The buffer and the local `pos` of an encoder's body. -/
structure Cursor (α : Type) where
  buf : List α
  pos : Nat

def Cursor.written (cursor : Cursor α) (bytes : List α) : Cursor α :=
  ⟨cursor.buf.take cursor.pos ++ bytes ++ cursor.buf.drop (cursor.pos + bytes.length),
    cursor.pos + bytes.length⟩

@[simp] theorem Cursor.written_pos (cursor : Cursor α) (bytes : List α) :
    (cursor.written bytes).pos = cursor.pos + bytes.length := rfl

theorem Cursor.written_length {cursor : Cursor α} {bytes : List α}
    (fits : cursor.pos + bytes.length ≤ cursor.buf.length) :
    (cursor.written bytes).buf.length = cursor.buf.length := by
  simp only [written, List.length_append, List.length_take, List.length_drop]
  omega

theorem Cursor.take_written {cursor : Cursor α} (inside : cursor.pos ≤ cursor.buf.length) (bytes : List α) :
    (cursor.written bytes).buf.take (cursor.pos + bytes.length) = cursor.buf.take cursor.pos ++ bytes :=
  List.take_left' (by simp [Nat.min_eq_left inside])

theorem Cursor.written_nil (cursor : Cursor α) : cursor.written [] = cursor := by
  simp [Cursor.written]

theorem Cursor.written_append {cursor : Cursor α} (inside : cursor.pos ≤ cursor.buf.length)
    (first second : List α) :
    (cursor.written first).written second = cursor.written (first ++ second) := by
  have front : (cursor.buf.take cursor.pos ++ first).length = cursor.pos + first.length := by
    simp [Nat.min_eq_left inside]
  have taken := Cursor.take_written inside first
  have dropped : (cursor.written first).buf.drop (cursor.pos + first.length + second.length) =
      cursor.buf.drop (cursor.pos + (first.length + second.length)) := by
    rw [← List.drop_drop]
    simp only [written]
    rw [List.drop_left' front, List.drop_drop, Nat.add_assoc]
  change Cursor.mk ((cursor.written first).buf.take (cursor.pos + first.length) ++ second ++
    (cursor.written first).buf.drop (cursor.pos + first.length + second.length)) _ = _
  rw [taken, dropped]
  simp only [written, List.length_append, List.append_assoc, Nat.add_assoc]

end Cursor

variable [Target] {ε α : Type}

/-- Written length, and the buffer after the call. -/
abbrev Encoder (ε α : Type) := List α → Outcome ε (Nat × List α)

abbrev Put (ε α : Type) := StateT (Cursor α) (Outcome ε)

namespace Put

/-- `if pos >= buf.len() { return Err(full) } buf[pos] = value; pos += 1;` -/
def byte (full : ε) (value : α) : Put ε α Unit := fun cursor =>
  if cursor.pos ≥ cursor.buf.length then .err full
  else do
    let pos ← usizeAdd cursor.pos 1
    .ok ((), ⟨cursor.buf.set cursor.pos value, pos⟩)

/-- `if pos + count > buf.len() { return Err(full) }` -/
def require (full : ε) (count : Nat) : Put ε α Unit := fun cursor => do
  let stop ← usizeAdd cursor.pos count
  if stop > cursor.buf.length then .err full else .ok ((), cursor)

/-- `buf[pos..pos + data.len()].copy_from_slice(data); pos += data.len();` -/
def copy (data : List α) : Put ε α Unit := fun cursor => do
  let stop ← usizeAdd cursor.pos data.length
  if stop ≤ cursor.buf.length then
    .ok ((), ⟨cursor.buf.take cursor.pos ++ data ++ cursor.buf.drop stop, stop⟩)
  else .panic .outOfBounds

/-- `pos += encoder(&mut buf[pos..])?;` -/
def call (encoder : Encoder ε α) : Put ε α Unit := fun cursor => do
  let tail ← sliceFrom cursor.buf cursor.pos
  let (count, tail) ← encoder tail
  let pos ← usizeAdd cursor.pos count
  .ok ((), ⟨cursor.buf.take cursor.pos ++ tail, pos⟩)

/-- An encoder whose body starts at `pos = 0` and ends with `Ok(pos)`. -/
def encoder (body : Put ε α Unit) : Encoder ε α := fun buf => do
  let (_, cursor) ← body ⟨buf, 0⟩
  .ok (cursor.pos, cursor.buf)

end Put

structure Cursor.Valid (cursor : Cursor α) : Prop where
  inside : cursor.pos ≤ cursor.buf.length
  addressable : Addressable cursor.buf

/-- The body writes `bytes` if they fit in the rest of the buffer, and fails otherwise. -/
def Puts (full : ε) (body : Put ε α Unit) (bytes : List α) : Prop :=
  ∀ cursor : Cursor α, cursor.Valid →
    body cursor = if cursor.pos + bytes.length ≤ cursor.buf.length then
      .ok ((), cursor.written bytes) else .err full

/-- The body writes `bytes` where the caller has already checked the room. -/
def Copies (body : Put ε α Unit) (bytes : List α) : Prop :=
  ∀ cursor : Cursor α, cursor.Valid → cursor.pos + bytes.length ≤ cursor.buf.length →
    body cursor = .ok ((), cursor.written bytes)

/-- The encoder writes `bytes` into every buffer that holds them, leaves the
rest of the buffer alone, and fails on every shorter buffer. -/
def Encodes (full : ε) (encoder : Encoder ε α) (bytes : List α) : Prop :=
  ∀ buf : List α, Addressable buf →
    encoder buf = if bytes.length ≤ buf.length then
      .ok (bytes.length, bytes ++ buf.drop bytes.length) else .err full

theorem Cursor.Valid.written {cursor : Cursor α} (valid : cursor.Valid) {bytes : List α}
    (fits : cursor.pos + bytes.length ≤ cursor.buf.length) : (cursor.written bytes).Valid where
  inside := by rw [Cursor.written_length fits]; exact fits
  addressable := valid.addressable.of_length_le (Nat.le_of_eq (Cursor.written_length fits))

variable {full : ε}

theorem Puts.pure_nil : Puts full (pure () : Put ε α Unit) [] := by
  intro cursor valid
  rw [if_pos (by simpa using valid.inside), Cursor.written_nil]
  rfl

theorem Puts.seq {first second : Put ε α Unit} {left right : List α}
    (one : Puts full first left) (two : Puts full second right) :
    Puts full (first >>= fun _ => second) (left ++ right) := by
  intro cursor valid
  change (first cursor >>= fun result => second result.2) = _
  rw [one cursor valid]
  by_cases fits : cursor.pos + left.length ≤ cursor.buf.length
  -- The second body starts where the first one stopped, in a buffer of the same length.
  · rw [if_pos fits, Outcome.ok_bind, two _ (valid.written fits)]
    simp only [Cursor.written_pos, Cursor.written_length fits, Cursor.written_append valid.inside,
      List.length_append, Nat.add_assoc]
  · rw [if_neg fits, Outcome.err_bind, if_neg (by simp only [List.length_append]; omega)]

theorem Puts.cond {condition : Prop} [Decidable condition] {yes no : Put ε α Unit} {left right : List α}
    (one : Puts full yes left) (two : Puts full no right) :
    Puts full (if condition then yes else no) (if condition then left else right) := by
  split
  · exact one
  · exact two

theorem puts_byte (value : α) : Puts full (Put.byte full value) [value] := by
  intro cursor valid
  unfold Put.byte
  by_cases room : cursor.pos < cursor.buf.length
  · rw [if_neg (by omega), if_pos (by simp only [List.length_singleton]; omega),
      usizeAdd_eq (valid.addressable.lt_usizeSize (by omega) (by omega))]
    simp only [Outcome.ok_bind, Cursor.written, List.set_eq_take_append_cons_drop, if_pos room]
    simp
  · rw [if_pos (by omega), if_neg (by simp only [List.length_singleton]; omega)]

theorem copies_copy (data : List α) : Copies (Put.copy data : Put ε α Unit) data := by
  intro cursor valid fits
  unfold Put.copy
  rw [usizeAdd_eq (valid.addressable.lt_usizeSize valid.inside (by omega)), Outcome.ok_bind, if_pos fits]
  rfl

theorem Copies.seq {first second : Put ε α Unit} {left right : List α}
    (one : Copies first left) (two : Copies second right) :
    Copies (first >>= fun _ => second) (left ++ right) := by
  intro cursor valid fits
  simp only [List.length_append] at fits
  have room : cursor.pos + left.length ≤ cursor.buf.length := by omega
  change (first cursor >>= fun result => second result.2) = _
  rw [one cursor valid room, Outcome.ok_bind, two _ (valid.written room)
    (by rw [Cursor.written_length room, Cursor.written_pos]; omega), Cursor.written_append valid.inside]

theorem puts_require {body : Put ε α Unit} {bytes : List α} {count : Nat}
    (copies : Copies body bytes) (same : count = bytes.length) (small : Addressable bytes) :
    Puts full (Put.require full count >>= fun _ => body) bytes := by
  subst same
  intro cursor valid
  change (Put.require full bytes.length cursor >>= fun result => body result.2) = _
  unfold Put.require
  have fits : cursor.pos + bytes.length < usizeSize := by
    have left : cursor.pos ≤ isizeMax := Nat.le_trans valid.inside valid.addressable
    have right : bytes.length ≤ isizeMax := small
    rw [usizeSize_eq]
    omega
  rw [usizeAdd_eq fits, Outcome.ok_bind]
  by_cases room : cursor.pos + bytes.length ≤ cursor.buf.length
  · rw [if_neg (by omega), if_pos room, Outcome.ok_bind, copies cursor valid room]
  · rw [if_pos (by omega), if_neg room, Outcome.err_bind]

theorem puts_call {encoder : Encoder ε α} {bytes : List α} (encodes : Encodes full encoder bytes) :
    Puts full (Put.call encoder) bytes := by
  intro cursor valid
  unfold Put.call
  have inside := valid.inside
  -- The callee sees the rest of the buffer, and what it leaves alone comes back behind its bytes.
  rw [sliceFrom_eq inside, Outcome.ok_bind, encodes _ (valid.addressable.drop _)]
  by_cases room : cursor.pos + bytes.length ≤ cursor.buf.length
  · rw [if_pos (by rw [List.length_drop]; omega), if_pos room, Outcome.ok_bind]
    change (usizeAdd cursor.pos bytes.length >>= _) = _
    rw [usizeAdd_eq (valid.addressable.lt_usizeSize inside (by omega)), Outcome.ok_bind]
    simp only [Cursor.written, List.drop_drop, List.append_assoc]
  · rw [if_neg (by rw [List.length_drop]; omega), if_neg room, Outcome.err_bind]

theorem encodes_encoder {body : Put ε α Unit} {bytes : List α} (puts : Puts full body bytes) :
    Encodes full (Put.encoder body) bytes := by
  intro buf addressable
  unfold Put.encoder
  rw [puts ⟨buf, 0⟩ ⟨Nat.zero_le _, addressable⟩]
  simp only [Nat.zero_add]
  by_cases room : bytes.length ≤ buf.length
  · rw [if_pos room, if_pos room, Outcome.ok_bind]
    simp [Cursor.written]
  · rw [if_neg room, if_neg room, Outcome.err_bind]

theorem Encodes.eq_ok {encoder : Encoder ε α} {bytes : List α} (encodes : Encodes full encoder bytes)
    {buf : List α} (addressable : Addressable buf) (fits : bytes.length ≤ buf.length) :
    encoder buf = .ok (bytes.length, bytes ++ buf.drop bytes.length) := by
  rw [encodes buf addressable, if_pos fits]

theorem Encodes.count_eq {encoder : Encoder ε α} {bytes buf after : List α} {count : Nat}
    (encodes : Encodes full encoder bytes) (addressable : Addressable buf)
    (success : encoder buf = .ok (count, after)) : count = bytes.length := by
  rw [encodes buf addressable] at success
  split at success
  · cases success
    rfl
  · cases success

theorem Encodes.take_eq {encoder : Encoder ε α} {bytes buf after : List α} {count : Nat}
    (encodes : Encodes full encoder bytes) (addressable : Addressable buf)
    (success : encoder buf = .ok (count, after)) : after.take count = bytes := by
  rw [encodes buf addressable] at success
  split at success
  · cases success
    exact List.take_left
  · cases success

end Rust
