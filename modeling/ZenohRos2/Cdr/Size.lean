import ZenohRos2.Cdr.Encoding

/-! How many bytes a message takes.

The capacity of a buffer is a constant of the program, fixed for a type and not
for a value. Where no string or sequence is involved all values of a type end at
the same position, which follows from the type alone.
-/

set_option autoImplicit false

namespace ZenohRos2.Cdr
open Rust

/-- The least multiple of `n` that is not before the position. -/
def alignUp (n pos : Nat) : Nat := pos + if pos % n = 0 then 0 else n - pos % n

theorem alignUp_of_dvd {n pos : Nat} (aligned : n ∣ pos) : alignUp n pos = pos := by
  rw [alignUp, if_pos (Nat.mod_eq_zero_of_dvd aligned), Nat.add_zero]

theorem dvd_alignUp {n : Nat} (positive : 0 < n) (pos : Nat) : n ∣ alignUp n pos := by
  unfold alignUp
  by_cases aligned : pos % n = 0
  · rw [if_pos aligned, Nat.add_zero]
    exact Nat.dvd_of_mod_eq_zero aligned
  · rw [if_neg aligned]
    have split := Nat.div_add_mod pos n
    have below := Nat.mod_lt pos positive
    refine ⟨pos / n + 1, ?_⟩
    rw [Nat.mul_add, Nat.mul_one]
    omega

theorem iterate_alignUp {width n : Nat} (positive : 0 < width) (some_ : 0 < n) (pos : Nat) :
    (fun pos => alignUp width pos + width)^[n] pos = alignUp width pos + width * n := by
  induction n, some_ using Nat.le_induction with
  | base => rw [Nat.mul_one, Function.iterate_one]
  | succ n _ ih =>
    have aligned : width ∣ alignUp width pos + width * n :=
      Nat.dvd_add (dvd_alignUp positive pos) (Nat.dvd_mul_right ..)
    rw [Function.iterate_succ_apply', ih, alignUp_of_dvd aligned, Nat.add_assoc, ← Nat.mul_succ]

theorem alignUp_four (pos : Nat) : alignUp 4 pos = (pos + 3) / 4 * 4 := by
  unfold alignUp
  split <;> omega

theorem alignUp_eight (pos : Nat) : alignUp 8 pos = (pos + 7) / 8 * 8 := by
  unfold alignUp
  split <;> omega

def stop (layout : Layout UInt8) (pos : Nat) : Nat := pos + (layout.place pos).length

section Stops
variable (first second : Layout UInt8) (pos : Nat)

@[simp] theorem stop_append : stop (first ++ second) pos = stop second (stop first pos) := by
  simp only [stop, Layout.place_append, List.length_append, Nat.add_assoc]

@[simp] theorem stop_exactly (bytes : Bytes) : stop (.exactly bytes) pos = pos + bytes.length := rfl

@[simp] theorem stop_nothing : stop .nothing pos = pos := rfl

@[simp] theorem stop_number (width n : Nat) : stop (number width n) pos = alignUp width pos + width := by
  simp [stop, number, Layout.padding, alignUp, Nat.add_assoc]

theorem stop_each {α : Type} {piece : α → Layout UInt8} {step : Nat → Nat} (values : List α)
    (ends : ∀ value pos, stop (piece value) pos = step pos) :
    stop (.each piece values) pos = step^[values.length] pos := by
  induction values generalizing pos with
  | nil => rfl
  | cons value values ih =>
    rw [Layout.each, stop_append, ends, ih, List.length_cons, Function.iterate_succ_apply]

end Stops

/-- The position behind the values of a primitive type, if all of them end at one. Of a char, only octets are values. -/
def Prim.fixedStop : Prim → Option (Nat → Nat)
  | .bool | .i8 | .u8 => some (· + 1)
  | .i16 | .u16 => some (alignUp 2 · + 2)
  | .i32 | .u32 | .f32 => some (alignUp 4 · + 4)
  | .i64 | .u64 | .f64 => some (alignUp 8 · + 8)
  | .unit => some id
  | .char | .string | .bytes => none

mutual

def Ty.fixedStop : Ty → Option (Nat → Nat)
  | .prim prim => prim.fixedStop
  | .array ty length => ty.fixedStop.map fun step => step^[length]
  | .tuple fields => fields.fixedStop
  | .newtype ty => ty.fixedStop
  | .option _ | .seq _ | .map _ _ | .enum _ => none

def Fields.fixedStop : Fields → Option (Nat → Nat)
  | .nil => some id
  | .cons field rest => do
    let first ← field.fixedStop
    let second ← rest.fixedStop
    some (second ∘ first)

end

theorem Prim.stop_eq : (prim : Prim) → {step : Nat → Nat} → prim.fixedStop = some step → (value : prim.Val) →
    (pos : Nat) → stop (prim.layout value) pos = step pos
  | .bool, _, rfl, _, _ | .i8, _, rfl, _, _ | .u8, _, rfl, _, _ => rfl
  | .i16, _, rfl, _, _ | .u16, _, rfl, _, _ => stop_number _ _ _
  | .i32, _, rfl, _, _ | .u32, _, rfl, _, _ | .f32, _, rfl, _, _ => stop_number _ _ _
  | .i64, _, rfl, _, _ | .u64, _, rfl, _, _ | .f64, _, rfl, _, _ => stop_number _ _ _
  | .unit, _, rfl, _, _ => rfl

mutual

theorem Ty.stop_eq : (ty : Ty) → {step : Nat → Nat} → ty.fixedStop = some step → (value : ty.Val) → (pos : Nat) →
    stop (ty.layout value) pos = step pos
  | .prim prim, _, fixed, value, pos => prim.stop_eq fixed value pos
  | .array ty length, _, fixed, values, pos => by
    obtain ⟨step, inner, rfl⟩ := Option.map_eq_some_iff.mp fixed
    have ends := stop_each pos values.val fun value pos => ty.stop_eq inner value pos
    rwa [values.property] at ends
  | .tuple fields, _, fixed, values, pos => fields.stop_eq fixed values pos
  | .newtype ty, _, fixed, value, pos => ty.stop_eq fixed value pos

theorem Fields.stop_eq : (fields : Fields) → {step : Nat → Nat} → fields.fixedStop = some step →
    (values : fields.Val) → (pos : Nat) → stop (fields.layout values) pos = step pos
  | .nil, _, rfl, _, _ => rfl
  | .cons field rest, _, fixed, (value, values), pos => by
    obtain ⟨first, one, fixed⟩ := Option.bind_eq_some_iff.mp fixed
    obtain ⟨second, two, same⟩ := Option.bind_eq_some_iff.mp fixed
    cases same
    change stop (field.layout value ++ rest.layout values) pos = _
    rw [stop_append, field.stop_eq one, rest.stop_eq two]
    rfl

end

section Values
variable [Target]

theorem Prim.valid_of_fixed : (prim : Prim) → {step : Nat → Nat} → prim.fixedStop = some step → (value : prim.Val) →
    prim.Within value ∧ prim.Held value
  | .bool, _, _, _ | .i8, _, _, _ | .u8, _, _, _ | .i16, _, _, _ | .u16, _, _, _ | .i32, _, _, _ | .u32, _, _, _
  | .f32, _, _, _ | .i64, _, _, _ | .u64, _, _, _ | .f64, _, _, _ | .unit, _, _, _ => ⟨trivial, trivial⟩

mutual

theorem Ty.valid_of_fixed : (ty : Ty) → {step : Nat → Nat} → ty.fixedStop = some step → (value : ty.Val) →
    ty.Within value ∧ ty.Held value
  | .prim prim, _, fixed, value => prim.valid_of_fixed fixed value
  | .array ty _, _, fixed, _ => by
    obtain ⟨step, inner, -⟩ := Option.map_eq_some_iff.mp fixed
    exact ⟨fun value _ => (ty.valid_of_fixed inner value).1, fun value _ => (ty.valid_of_fixed inner value).2⟩
  | .tuple fields, _, fixed, values => fields.valid_of_fixed fixed values
  | .newtype ty, _, fixed, value => ty.valid_of_fixed fixed value

theorem Fields.valid_of_fixed : (fields : Fields) → {step : Nat → Nat} → fields.fixedStop = some step →
    (values : fields.Val) → fields.Within values ∧ fields.Held values
  | .nil, _, _, _ => ⟨trivial, trivial⟩
  | .cons field rest, _, fixed, (value, values) => by
    obtain ⟨first, one, fixed⟩ := Option.bind_eq_some_iff.mp fixed
    obtain ⟨second, two, -⟩ := Option.bind_eq_some_iff.mp fixed
    have head := field.valid_of_fixed one value
    have tail := rest.valid_of_fixed two values
    exact ⟨⟨head.1, tail.1⟩, head.2, tail.2⟩

end

omit [Target] in
theorem length_message {ty : Ty} (value : ty.Val) :
    (cdrLeHeader ++ ty.body value).length = 4 + stop (ty.layout value) 0 := by
  rw [List.length_append, stop, Nat.zero_add]
  rfl

theorem serializeWithHeader_short {ty : Ty} {value : ty.Val} (within : ty.Within value) (held : ty.Held value) {buf : Bytes}
    (addressable : Addressable buf) (short : buf.length < 4 + stop (ty.layout value) 0) :
    serializeWithHeader ty value buf = .err .bufferOverflow := by
  rw [encodes_serializeWithHeader within held buf addressable, length_message, if_neg (by omega)]

theorem serializeWithHeader_iff {ty : Ty} {value : ty.Val} (within : ty.Within value) (held : ty.Held value) {buf : Bytes}
    (addressable : Addressable buf) {n : Nat} : (∃ after, serializeWithHeader ty value buf = .ok (n, after) ∧
      deserializeWithHeader ty after = .ok (value, n)) ↔
        n = 4 + stop (ty.layout value) 0 ∧ 4 + stop (ty.layout value) 0 ≤ buf.length := by
  have encodes := encodes_serializeWithHeader within held buf addressable
  have length := length_message value
  rw [length] at encodes
  by_cases room : 4 + stop (ty.layout value) 0 ≤ buf.length
  · rw [if_pos room] at encodes
    have whole : Addressable (cdrLeHeader ++ ty.body value ++ buf.drop (4 + stop (ty.layout value) 0)) :=
      addressable.of_length_le (by rw [List.length_append, length, List.length_drop]; omega)
    have back := deserializeWithHeader_append within whole
    rw [length] at back
    rw [encodes, and_iff_left room]
    constructor
    · rintro ⟨after, same, -⟩
      cases same
      rfl
    · rintro rfl
      exact ⟨_, rfl, back⟩
  · rw [if_neg room] at encodes
    rw [encodes]
    exact iff_of_false (fun ⟨_, same, _⟩ => nomatch same) fun both => room both.2

end Values

end ZenohRos2.Cdr
