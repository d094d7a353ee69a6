import ZenohRos2.Cdr.RoundTrip

/-! The serializer fails only for want of room.

What it writes is the layout of the value. A call that does not overflow its
buffer succeeds, whatever the buffer held before.
-/

set_option autoImplicit false

namespace ZenohRos2.Cdr
open Rust

def Prim.Held [Target] : (prim : Prim) → prim.Val → Prop
  | .string, value => Addressable (utf8 value)
  | .bytes, (value : Bytes) => Addressable value
  | _, _ => True

section Held
variable [Target]

mutual

def Ty.Held : (ty : Ty) → ty.Val → Prop
  | .prim prim, value => prim.Held value
  | .option _, none => True
  | .option ty, some value => ty.Held value
  | .seq ty, (values : List ty.Val) => ∀ value ∈ values, ty.Held value
  | .array ty _, values => ∀ value ∈ values.val, ty.Held value
  | .tuple fields, values => fields.Held values
  | .newtype ty, value => ty.Held value
  | .map key value, (entries : List (key.Val × value.Val)) =>
    ∀ entry ∈ entries, key.Held entry.1 ∧ value.Held entry.2
  | .enum variants, value => variants.Held value

def Fields.Held : (fields : Fields) → fields.Val → Prop
  | .nil, _ => True
  | .cons field rest, (value, values) => field.Held value ∧ rest.Held values

def Variant.Held : (variant : Variant) → variant.Val → Prop
  | .unit, _ => True
  | .newtype inner, value => inner.Held value
  | .tuple fields, values => fields.Held values

def Variants.Held : (variants : Variants) → variants.Val → Prop
  | .nil, value => nomatch value
  | .cons variant _, .inl value => variant.Held value
  | .cons _ rest, .inr value => rest.Held value

end

theorem Prim.held_of_within (wide : Target.pointerWidth = 64) : (prim : Prim) → {value : prim.Val} → prim.Within value →
    prim.Held value
  | .string, (value : String), short => by
    have short : value.utf8ByteSize < 2 ^ 32 - 1 := short
    have length : (utf8 value).length = value.utf8ByteSize := by simp [utf8]
    change (utf8 value).length ≤ isizeMax
    rw [isizeMax, wide, length]
    omega
  | .bytes, (value : Bytes), short => by
    have short : value.length < 2 ^ 32 - 1 := short
    change value.length ≤ isizeMax
    rw [isizeMax, wide]
    omega
  | .bool, _, _ | .i8, _, _ | .i16, _, _ | .i32, _, _ | .i64, _, _ | .u8, _, _ | .u16, _, _ | .u32, _, _ | .u64, _, _
  | .f32, _, _ | .f64, _, _ | .char, _, _ | .unit, _, _ => trivial

mutual

theorem Ty.held_of_within (wide : Target.pointerWidth = 64) : (ty : Ty) → {value : ty.Val} → ty.Within value →
    ty.Held value
  | .prim prim, _, within => prim.held_of_within wide within
  | .option _, none, _ => trivial
  | .option ty, some _, within => ty.held_of_within wide within
  | .seq ty, _, within => fun value member => ty.held_of_within wide (within.2 value member)
  | .array ty _, _, within => fun value member => ty.held_of_within wide (within value member)
  | .tuple fields, _, within => fields.held_of_within wide within
  | .newtype ty, _, within => ty.held_of_within wide within
  | .map key value, _, within => fun entry member =>
    ⟨key.held_of_within wide (within.2 entry member).1, value.held_of_within wide (within.2 entry member).2⟩
  | .enum variants, _, within => variants.held_of_within wide within

theorem Fields.held_of_within (wide : Target.pointerWidth = 64) : (fields : Fields) → {values : fields.Val} →
    fields.Within values → fields.Held values
  | .nil, _, _ => trivial
  | .cons field rest, _, within => ⟨field.held_of_within wide within.1, rest.held_of_within wide within.2⟩

theorem Variant.held_of_within (wide : Target.pointerWidth = 64) : (variant : Variant) → {value : variant.Val} →
    variant.Within value → variant.Held value
  | .unit, _, _ => trivial
  | .newtype inner, _, within => inner.held_of_within wide within
  | .tuple fields, _, within => fields.held_of_within wide within

theorem Variants.held_of_within (wide : Target.pointerWidth = 64) : (variants : Variants) → {index : Nat} →
    {value : variants.Val} → variants.Within index value → variants.Held value
  | .cons variant _, _, .inl _, within => variant.held_of_within wide within.2
  | .cons _ rest, _, .inr _, within => rest.held_of_within wide within

end

end Held

section Filling
variable [Target]
open CdrSerializer

theorem fills_align {n : Nat} (small : n < 2 ^ 31) : Fills CdrError.bufferOverflow (align n) (.padding 0 n) := by
  intro cursor valid
  unfold align
  by_cases aligned : cursor.pos % n = 0
  · rw [if_neg (by simpa using aligned)]
    simp only [Layout.padding, if_pos aligned, List.replicate_zero, List.length_nil]
    rw [Nat.add_zero, if_pos valid.inside, Cursor.written_nil]
  · rw [if_pos aligned]
    simp only [Layout.padding, if_neg aligned]
    refine fills_checked (le_isizeMax ?_) cursor valid
    rw [List.length_replicate]
    omega

theorem fills_writeBytes {data : Bytes} (small : Addressable data) :
    Fills CdrError.bufferOverflow (writeBytes data) (.exactly data) := fills_checked small

theorem fills_octet (byte : UInt8) : Fills CdrError.bufferOverflow (writeBytes [byte]) (.exactly [byte]) :=
  fills_writeBytes (le_isizeMax (show 1 < 2 ^ 31 by decide))

theorem fills_serializeLe {width : Nat} (small : width < 2 ^ 31) (v : Nat) :
    Fills CdrError.bufferOverflow (serializeLe width v) (number width v) :=
  (fills_align small).bind (fills_writeBytes (le_isizeMax (by rwa [LittleEndian.encode_length])))

theorem fills_serializeU16 (v : Nat) : Fills CdrError.bufferOverflow (serializeLe 2 v) (number 2 v) :=
  fills_serializeLe (by decide) v

theorem fills_serializeU32 (v : Nat) : Fills CdrError.bufferOverflow (serializeLe 4 v) (number 4 v) :=
  fills_serializeLe (by decide) v

theorem fills_serializeU64 (v : Nat) : Fills CdrError.bufferOverflow (serializeLe 8 v) (number 8 v) :=
  fills_serializeLe (by decide) v

theorem fills_serializeStr {value : String} (short : value.utf8ByteSize < 2 ^ 32 - 1) (held : Addressable (utf8 value)) :
    Fills CdrError.bufferOverflow (serializeStr value)
      (number 4 (value.utf8ByteSize + 1) ++ .exactly (utf8 value ++ [0])) := by
  have content : Fills CdrError.bufferOverflow (do writeBytes (utf8 value); writeBytes [0] : Ser Unit)
      (.exactly (utf8 value ++ [0])) :=
    (fills_writeBytes held).bind (fills_octet 0)
  have small : value.utf8ByteSize + 1 < usizeSize := Nat.lt_of_lt_of_le (by omega) le_usizeSize
  unfold serializeStr
  rw [usizeAdd_eq small]
  change Fills CdrError.bufferOverflow (do
    serializeLe 4 (UInt32.ofNat (value.utf8ByteSize + 1)).toNat
    writeBytes (utf8 value)
    writeBytes [0]) _
  rw [toNat_ofNat_of_lt (by omega)]
  exact (fills_serializeU32 _).bind content

theorem fills_serializeSeq {len : Nat} (short : len < 2 ^ 32 - 1) :
    Fills CdrError.bufferOverflow (serializeSeq (some len)) (number 4 len) := by
  change Fills CdrError.bufferOverflow (serializeLe 4 (UInt32.ofNat len).toNat) _
  rw [toNat_ofNat_of_lt (by omega)]
  exact fills_serializeU32 len

theorem Prim.fills : (prim : Prim) → {value : prim.Val} → prim.Within value → prim.Held value →
    Fills CdrError.bufferOverflow (prim.serialize value) (prim.layout value)
  | .bool, _, _, _ => fills_octet _
  | .i8, _, _, _ => fills_octet _
  | .i16, _, _, _ => fills_serializeU16 _
  | .i32, _, _, _ => fills_serializeU32 _
  | .i64, _, _, _ => fills_serializeU64 _
  | .u8, _, _, _ => fills_octet _
  | .u16, _, _, _ => fills_serializeU16 _
  | .u32, _, _, _ => fills_serializeU32 _
  | .u64, _, _, _ => fills_serializeU64 _
  | .f32, _, _, _ => fills_serializeU32 _
  | .f64, _, _, _ => fills_serializeU64 _
  | .char, _, _, _ => fills_octet _
  | .string, _, short, held => fills_serializeStr short held
  | .bytes, _, short, held => (fills_serializeSeq short).bind (fills_writeBytes held)
  | .unit, _, _, _ => fills_pure

mutual

theorem Ty.fills : (ty : Ty) → {value : ty.Val} → ty.Within value → ty.Held value →
    Fills CdrError.bufferOverflow (ty.serialize value) (ty.layout value)
  | .prim prim, _, within, held => prim.fills within held
  | .option _, none, _, _ => fills_octet _
  | .option ty, some _, within, held => (fills_octet _).bind (ty.fills within held)
  | .seq ty, _, within, held => (fills_serializeSeq within.1).bind
      (fills_each fun value member => ty.fills (within.2 value member) (held value member))
  | .array ty _, _, within, held => fills_each fun value member => ty.fills (within value member) (held value member)
  | .tuple fields, _, within, held => fields.fills within held
  | .newtype ty, _, within, held => ty.fills within held
  | .map key value, _, within, held => (fills_serializeSeq within.1).bind (fills_each fun entry member =>
      (key.fills (within.2 entry member).1 (held entry member).1).bind
        (value.fills (within.2 entry member).2 (held entry member).2))
  | .enum variants, _, within, held => variants.fills within held

theorem Fields.fills : (fields : Fields) → {values : fields.Val} → fields.Within values → fields.Held values →
    Fills CdrError.bufferOverflow (fields.serialize values) (fields.layout values)
  | .nil, _, _, _ => fills_pure
  | .cons field rest, _, within, held => (field.fills within.1 held.1).bind (rest.fills within.2 held.2)

theorem Variant.fills : (variant : Variant) → {value : variant.Val} → variant.Within value → variant.Held value →
    Fills CdrError.bufferOverflow (variant.serialize value) (variant.layout value)
  | .unit, _, _, _ => fills_pure
  | .newtype inner, _, within, held => inner.fills within held
  | .tuple fields, _, within, held => fields.fills within held

theorem Variants.fills : (variants : Variants) → {index : Nat} → {value : variants.Val} → variants.Within index value →
    variants.Held value → Fills CdrError.bufferOverflow (variants.serialize index value) (variants.layout index value)
  | .cons variant _, index, .inl value, within, held => by
    change Fills CdrError.bufferOverflow (do serializeLe 4 (UInt32.ofNat index).toNat; variant.serialize value)
      (number 4 index ++ variant.layout value)
    rw [toNat_ofNat_of_lt within.1]
    exact (fills_serializeU32 index).bind (variant.fills within.2 held)
  | .cons _ rest, _, .inr _, within, held => rest.fills within held

end

theorem encodes_serializeToBuf {ty : Ty} {value : ty.Val} (within : ty.Within value) (held : ty.Held value) :
    Encodes CdrError.bufferOverflow (serializeToBuf ty value) (ty.body value) :=
  encodes_of_fills (ty.fills within held)

theorem encodes_serializeWithHeader {ty : Ty} {value : ty.Val} (within : ty.Within value) (held : ty.Held value) :
    Encodes CdrError.bufferOverflow (serializeWithHeader ty value) (cdrLeHeader ++ ty.body value) := by
  intro buf addressable
  have header : cdrLeHeader.length = 4 := rfl
  unfold serializeWithHeader
  rw [List.length_append, header]
  by_cases short : buf.length < 4
  · rw [if_pos short, if_neg (by omega)]
  · rw [if_neg short, encodes_serializeToBuf within held _ (addressable.drop 4), List.length_drop]
    by_cases room : 4 + (ty.body value).length ≤ buf.length
    · rw [if_pos (by omega), if_pos room, Outcome.ok_bind]
      simp only [usizeAdd_eq (addressable.lt_usizeSize (show 4 ≤ buf.length by omega)
        (show (ty.body value).length ≤ buf.length by omega)), Outcome.ok_bind, List.drop_drop, List.append_assoc]
    · rw [if_neg (by omega), if_neg room, Outcome.err_bind]

omit [Target] in
theorem number_place (width n pos : Nat) (positive : 0 < width) :
    ∃ start, IsLeast {start | pos ≤ start ∧ width ∣ start} start ∧
      (number width n).place pos = List.replicate (start - pos) 0 ++ LittleEndian.encode width n := by
  refine ⟨_, Layout.isLeast_padding (0 : UInt8) positive pos, ?_⟩
  rw [number, Layout.place_append, Layout.place_exactly, Nat.add_sub_cancel_left]
  simp only [Layout.padding, List.length_replicate]

/-- Both serializers write the layout of the value at the front of any buffer that it fits in, leave what is behind it
alone, and report an overflow for any other buffer. Numbers stand at the least multiple of their width, and the
padding in front of them is zero. -/
theorem serialize_exact {ty : Ty} {value : ty.Val} (within : ty.Within value) (held : ty.Held value) :
    (∀ buf : Bytes, Addressable buf →
      ((ty.body value).length ≤ buf.length → serializeToBuf ty value buf =
        .ok ((ty.body value).length, ty.body value ++ buf.drop (ty.body value).length)) ∧
      (buf.length < (ty.body value).length → serializeToBuf ty value buf = .err .bufferOverflow) ∧
      (4 + (ty.body value).length ≤ buf.length → serializeWithHeader ty value buf =
        .ok (4 + (ty.body value).length, cdrLeHeader ++ ty.body value ++ buf.drop (4 + (ty.body value).length))) ∧
      (buf.length < 4 + (ty.body value).length → serializeWithHeader ty value buf = .err .bufferOverflow)) ∧
    ∀ width n pos, 0 < width → ∃ start, IsLeast {start | pos ≤ start ∧ width ∣ start} start ∧
      (number width n).place pos = List.replicate (start - pos) 0 ++ LittleEndian.encode width n := by
  refine ⟨fun buf addressable => ?_, number_place⟩
  have length : (cdrLeHeader ++ ty.body value).length = 4 + (ty.body value).length := List.length_append
  rw [encodes_serializeToBuf within held buf addressable, encodes_serializeWithHeader within held buf addressable, length]
  exact ⟨fun fits => if_pos fits, fun short => if_neg (by omega), fun fits => if_pos fits, fun short => if_neg (by omega)⟩

omit [Target] in
/-- Behind stale bytes, in a buffer that is just long enough and in one that is a byte too short. -/
theorem serialize_exact_sample :
    letI := target64
    serializeWithHeader sampleTy sample (List.replicate 23 0xEE) = .ok (22,
        [0, 1, 0, 0, 7, 1, 0, 0, 3, 0, 0, 0, 97, 98, 0, 0, 1, 0, 0, 0, 2, 1, 0xEE]) ∧
      serializeWithHeader sampleTy sample (List.replicate 21 0xEE) = .err .bufferOverflow := by
  let := target64
  have body : sampleTy.body sample = [7, 1, 0, 0, 3, 0, 0, 0, 97, 98, 0, 0, 1, 0, 0, 0, 2, 1] := by decide +kernel
  have exact_ := (serialize_exact sample_within (sampleTy.held_of_within rfl sample_within)).1
  obtain ⟨-, -, fits, -⟩ := exact_ (List.replicate 23 0xEE) (le_isizeMax (by decide))
  obtain ⟨-, -, -, short⟩ := exact_ (List.replicate 21 0xEE) (le_isizeMax (by decide))
  rw [body] at fits short
  exact ⟨fits (by decide), short (by decide)⟩

end Filling
end ZenohRos2.Cdr
