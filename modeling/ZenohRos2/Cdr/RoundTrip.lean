import Mathlib.Tactic.Choose
import ZenohRos2.Cdr.Serializer
import ZenohRos2.Cdr.Deserializer

/-! The serializer writes the layout of a value, and the deserializer reads it. -/

set_option autoImplicit false

namespace ZenohRos2.Cdr
open Rust

section Writing
variable [Target]
open CdrSerializer

theorem lays_align (n : Nat) : Lays (align n) (.padding 0 n) := by
  intro cursor after inside ran
  unfold align at ran
  by_cases aligned : cursor.pos % n = 0
  · rw [if_neg (by simpa using aligned)] at ran
    cases ran
    simp only [Layout.padding, if_pos aligned, List.replicate_zero, List.length_nil]
    exact ⟨inside, (Cursor.written_nil cursor).symm⟩
  · rw [if_pos aligned] at ran
    simp only [Layout.padding, if_neg aligned]
    exact lays_checked _ _ cursor after inside ran

theorem lays_serializeLe (width v : Nat) : Lays (serializeLe width v) (number width v) :=
  (lays_align width).bind (lays_checked _ _)

omit [Target] in
theorem toNat_ofNat_of_lt {n : Nat} (small : n < 2 ^ 32) : (UInt32.ofNat n).toNat = n := by
  rw [UInt32.toNat_ofNat']
  exact Nat.mod_eq_of_lt small

theorem lays_serializeStr {value : String} (short : value.utf8ByteSize < 2 ^ 32 - 1) :
    Lays (serializeStr value) (number 4 (value.utf8ByteSize + 1) ++ .exactly (utf8 value ++ [0])) := by
  have content : Lays (do writeBytes (utf8 value); writeBytes [0] : Ser Unit) (.exactly (utf8 value ++ [0])) :=
    (lays_checked _ (utf8 value)).bind (lays_checked _ [0])
  have small : value.utf8ByteSize + 1 < usizeSize := Nat.lt_of_lt_of_le (by omega) le_usizeSize
  unfold serializeStr
  rw [usizeAdd_eq small]
  change Lays (do
    serializeLe 4 (UInt32.ofNat (value.utf8ByteSize + 1)).toNat
    writeBytes (utf8 value)
    writeBytes [0]) _
  rw [toNat_ofNat_of_lt (by omega)]
  exact (lays_serializeLe 4 _).bind content

theorem lays_serializeSeq {len : Nat} (short : len < 2 ^ 32 - 1) : Lays (serializeSeq (some len)) (number 4 len) := by
  change Lays (serializeLe 4 (UInt32.ofNat len).toNat) _
  rw [toNat_ofNat_of_lt (by omega)]
  exact lays_serializeLe 4 len

theorem Prim.lays : (prim : Prim) → {value : prim.Val} → prim.Within value →
    Lays (prim.serialize value) (prim.layout value)
  | .bool, _, _ => lays_checked _ _
  | .i8, _, _ => lays_checked _ _
  | .i16, _, _ => lays_serializeLe _ _
  | .i32, _, _ => lays_serializeLe _ _
  | .i64, _, _ => lays_serializeLe _ _
  | .u8, _, _ => lays_checked _ _
  | .u16, _, _ => lays_serializeLe _ _
  | .u32, _, _ => lays_serializeLe _ _
  | .u64, _, _ => lays_serializeLe _ _
  | .f32, _, _ => lays_serializeLe _ _
  | .f64, _, _ => lays_serializeLe _ _
  | .char, _, _ => lays_checked _ _
  | .string, _, short => lays_serializeStr short
  | .bytes, (value : Bytes), short => (lays_serializeSeq short).bind (lays_checked _ value)
  | .unit, _, _ => lays_pure

mutual

theorem Ty.lays : (ty : Ty) → {value : ty.Val} → ty.Within value → Lays (ty.serialize value) (ty.layout value)
  | .prim prim, _, within => prim.lays within
  | .option _, none, _ => lays_checked _ _
  | .option ty, some _, within => (lays_checked _ _).bind (ty.lays within)
  | .seq ty, _, within =>
    (lays_serializeSeq within.1).bind (lays_each fun value member => ty.lays (within.2 value member))
  | .array ty _, _, within => lays_each fun value member => ty.lays (within value member)
  | .tuple fields, _, within => fields.lays within
  | .newtype ty, _, within => ty.lays within
  | .map key value, _, within => (lays_serializeSeq within.1).bind (lays_each fun entry member =>
      (key.lays (within.2 entry member).1).bind (value.lays (within.2 entry member).2))
  | .enum variants, _, within => variants.lays within

theorem Fields.lays : (fields : Fields) → {values : fields.Val} → fields.Within values →
    Lays (fields.serialize values) (fields.layout values)
  | .nil, _, _ => lays_pure
  | .cons field rest, _, within => (field.lays within.1).bind (rest.lays within.2)

theorem Variant.lays : (variant : Variant) → {value : variant.Val} → variant.Within value →
    Lays (variant.serialize value) (variant.layout value)
  | .unit, _, _ => lays_pure
  | .newtype inner, _, within => inner.lays within
  | .tuple fields, _, within => fields.lays within

theorem Variants.lays : (variants : Variants) → {index : Nat} → {value : variants.Val} →
    variants.Within index value → Lays (variants.serialize index value) (variants.layout index value)
  | .cons variant _, index, .inl value, within => by
    change Lays (do serializeLe 4 (UInt32.ofNat index).toNat; variant.serialize value)
      (number 4 index ++ variant.layout value)
    rw [toNat_ofNat_of_lt within.1]
    exact (lays_serializeLe 4 index).bind (variant.lays within.2)
  | .cons _ rest, _, .inr _, within => rest.lays within

end

-- Values outside of the data model are laid out too, though they cannot be read back.
theorem Prim.exists_lays : (prim : Prim) → (value : prim.Val) → ∃ layout, Lays (prim.serialize value) layout
  | .bool, _ => ⟨_, lays_checked _ _⟩
  | .i8, _ => ⟨_, lays_checked _ _⟩
  | .i16, _ => ⟨_, lays_serializeLe _ _⟩
  | .i32, _ => ⟨_, lays_serializeLe _ _⟩
  | .i64, _ => ⟨_, lays_serializeLe _ _⟩
  | .u8, _ => ⟨_, lays_checked _ _⟩
  | .u16, _ => ⟨_, lays_serializeLe _ _⟩
  | .u32, _ => ⟨_, lays_serializeLe _ _⟩
  | .u64, _ => ⟨_, lays_serializeLe _ _⟩
  | .f32, _ => ⟨_, lays_serializeLe _ _⟩
  | .f64, _ => ⟨_, lays_serializeLe _ _⟩
  | .char, _ => ⟨_, lays_checked _ _⟩
  | .string, (value : String) => by
    change ∃ layout, Lays (serializeStr value) layout
    unfold serializeStr
    by_cases small : value.utf8ByteSize + 1 < usizeSize
    · rw [usizeAdd_eq small]
      exact ⟨_, (lays_serializeLe 4 _).bind ((lays_checked _ (utf8 value)).bind (lays_checked _ [0]))⟩
    · rw [usizeAdd, if_neg small]
      refine ⟨.nothing, ?_⟩
      intro _ _ _ ran
      cases ran
  | .bytes, (value : Bytes) => ⟨_, (lays_serializeLe 4 _).bind (lays_checked _ value)⟩
  | .unit, _ => ⟨_, lays_pure⟩

mutual

theorem Ty.exists_lays : (ty : Ty) → (value : ty.Val) → ∃ layout, Lays (ty.serialize value) layout
  | .prim prim, value => prim.exists_lays value
  | .option _, none => ⟨_, lays_checked _ _⟩
  | .option ty, some value => by
    obtain ⟨layout, lays⟩ := ty.exists_lays value
    exact ⟨_, (lays_checked _ _).bind lays⟩
  | .seq ty, _ => by
    choose piece lays using ty.exists_lays
    exact ⟨_, (lays_serializeLe 4 _).bind (lays_each fun value _ => lays value)⟩
  | .array ty _, _ => by
    choose piece lays using ty.exists_lays
    exact ⟨_, lays_each fun value _ => lays value⟩
  | .tuple fields, values => fields.exists_lays values
  | .newtype ty, value => ty.exists_lays value
  | .map key value, _ => by
    choose keys first using key.exists_lays
    choose values second using value.exists_lays
    exact ⟨_, (lays_serializeLe 4 _).bind (lays_each fun entry _ => (first entry.1).bind (second entry.2))⟩
  | .enum variants, value => variants.exists_lays 0 value

theorem Fields.exists_lays : (fields : Fields) → (values : fields.Val) → ∃ layout, Lays (fields.serialize values) layout
  | .nil, _ => ⟨_, lays_pure⟩
  | .cons field rest, (value, values) => by
    obtain ⟨first, lays⟩ := field.exists_lays value
    obtain ⟨others, more⟩ := rest.exists_lays values
    exact ⟨_, lays.bind more⟩

theorem Variant.exists_lays : (variant : Variant) → (value : variant.Val) →
    ∃ layout, Lays (variant.serialize value) layout
  | .unit, _ => ⟨_, lays_pure⟩
  | .newtype inner, value => inner.exists_lays value
  | .tuple fields, values => fields.exists_lays values

theorem Variants.exists_lays : (variants : Variants) → (index : Nat) → (value : variants.Val) →
    ∃ layout, Lays (variants.serialize index value) layout
  | .nil, _, value => nomatch value
  | .cons variant _, _, .inl value => by
    obtain ⟨layout, lays⟩ := variant.exists_lays value
    exact ⟨_, (lays_serializeLe 4 _).bind lays⟩
  | .cons _ rest, index, .inr value => rest.exists_lays (index + 1) value

end

end Writing

section Reading
variable [Target]
open CdrDeserializer

theorem reads_align (n : Nat) : Reads (align n) (.padding 0 n) () where
  complete front rest addressable := by
    unfold align
    simp only [Layout.padding] at addressable ⊢
    by_cases aligned : front.length % n = 0
    · simp [aligned]
    · simp only [if_neg aligned, List.length_replicate] at addressable ⊢
      rw [if_pos aligned]
      have skip := reads_skip CdrError.bufferUnderflow (List.replicate (n - front.length % n) (0 : UInt8))
      have skipped := skip.complete front rest
      simp only [List.length_replicate, Layout.place_exactly] at skipped
      exact skipped addressable
  truncated front part missing same more addressable := by
    unfold align
    simp only [Layout.padding] at same ⊢
    by_cases aligned : front.length % n = 0
    · rw [if_pos aligned] at same
      exact absurd (List.append_eq_nil_iff.mp same.symm).2 more
    · rw [if_neg aligned] at same
      rw [if_pos aligned]
      have skip := reads_skip CdrError.bufferUnderflow (List.replicate (n - front.length % n) (0 : UInt8))
      have skipped := skip.truncated
        front part missing same more addressable
      rwa [List.length_replicate] at skipped

theorem reads_readLe {width v : Nat} (small : v < 256 ^ width) : Reads (readLe width) (number width v) v := by
  have digits := (reads_take CdrError.bufferUnderflow (LittleEndian.encode width v)).map LittleEndian.value
  rw [LittleEndian.encode_length, LittleEndian.value_encode_of_lt small] at digits
  exact (reads_align width).bind digits

theorem reads_readU8 (v : UInt8) : Reads readU8 (.exactly [v]) v :=
  (reads_take CdrError.bufferUnderflow [v]).bind_pure rfl

theorem reads_readU16 (v : UInt16) : Reads readU16 (number 2 v.toNat) v := by
  have read := (reads_readLe (show v.toNat < 256 ^ 2 from v.toNat_lt)).map UInt16.ofNat
  rwa [UInt16.ofNat_toNat] at read

theorem reads_readU32 (v : UInt32) : Reads readU32 (number 4 v.toNat) v := by
  have read := (reads_readLe (show v.toNat < 256 ^ 4 from v.toNat_lt)).map UInt32.ofNat
  rwa [UInt32.ofNat_toNat] at read

theorem reads_readU64 (v : UInt64) : Reads readU64 (number 8 v.toNat) v := by
  have read := (reads_readLe (show v.toNat < 256 ^ 8 from v.toNat_lt)).map UInt64.ofNat
  rwa [UInt64.ofNat_toNat] at read

theorem reads_deserializeBool (value : Bool) : Reads deserializeBool (.exactly [value.toUInt8]) value := by
  cases value with
  | false => exact (reads_readU8 0).bind_pure rfl
  | true => exact (reads_readU8 1).bind_pure rfl

theorem reads_deserializeChar {value : Char} (octet : value.toNat ≤ 0xFF) :
    Reads deserializeChar (.exactly [value.toUInt8]) value := by
  refine (reads_readU8 _).bind_pure (congrArg pure ?_)
  apply Char.ext
  apply UInt32.toNat_inj.mp
  change value.val.toUInt8.toUInt32.toNat = value.val.toNat
  rw [UInt8.toNat_toUInt32, UInt32.toNat_toUInt8]
  exact Nat.mod_eq_of_lt (Nat.lt_succ_of_le octet)

theorem reads_count {n : Nat} (small : n < 2 ^ 32) : Reads readU32 (number 4 n) (UInt32.ofNat n) := by
  have read := reads_readU32 (UInt32.ofNat n)
  rwa [toNat_ofNat_of_lt small] at read

theorem reads_deserializeStr {value : String} (short : value.utf8ByteSize < 2 ^ 32 - 1) :
    Reads deserializeStr (number 4 (value.utf8ByteSize + 1) ++ .exactly (utf8 value ++ [0])) value := by
  apply (reads_count (by omega)).bind
  rw [toNat_ofNat_of_lt (by omega), if_neg (by omega)]
  have bytes := reads_take CdrError.bufferUnderflow (utf8 value ++ [0])
  have length : (utf8 value).length = value.utf8ByteSize := by simp [utf8]
  rw [List.length_append, List.length_singleton, length] at bytes
  apply bytes.bind_pure
  have content : (sliceRange (utf8 value ++ [0]) 0 (value.utf8ByteSize + 1 - 1) : Outcome CdrError Bytes) =
      .ok (utf8 value) := by
    rw [sliceRange, if_pos ⟨Nat.zero_le _, by simp [length]⟩, Nat.add_sub_cancel, ← length, List.take_left,
      List.drop_zero]
  simp only [content, Get.lift_ok_bind, fromUtf8_utf8]

theorem reads_deserializeBytes {value : Bytes} (short : value.length < 2 ^ 32 - 1) :
    Reads deserializeBytes (number 4 value.length ++ .exactly value) value := by
  apply (reads_count (by omega)).bind
  rw [toNat_ofNat_of_lt (by omega)]
  exact reads_take _ value

theorem Prim.reads : (prim : Prim) → {value : prim.Val} → prim.Within value →
    Reads prim.deserialize (prim.layout value) value
  | .bool, value, _ => reads_deserializeBool value
  | .i8, value, _ => (reads_readU8 value.toUInt8).bind_pure (congrArg pure (Int8.toInt8_toUInt8 value))
  | .i16, value, _ => (reads_readU16 value.toUInt16).bind_pure (congrArg pure (Int16.toInt16_toUInt16 value))
  | .i32, value, _ => (reads_readU32 value.toUInt32).bind_pure (congrArg pure (Int32.toInt32_toUInt32 value))
  | .i64, value, _ => (reads_readU64 value.toUInt64).bind_pure (congrArg pure (Int64.toInt64_toUInt64 value))
  | .u8, value, _ => reads_readU8 value
  | .u16, value, _ => reads_readU16 value
  | .u32, value, _ => reads_readU32 value
  | .u64, value, _ => reads_readU64 value
  | .f32, value, _ => reads_readU32 value
  | .f64, value, _ => reads_readU64 value
  | .char, _, octet => reads_deserializeChar octet
  | .string, _, short => reads_deserializeStr short
  | .bytes, _, short => reads_deserializeBytes short
  | .unit, value, _ => reads_pure value

section Compound
variable {α κ : Type} {piece : α → Layout UInt8}

theorem reads_deserializeOption_some {content : De α} {layout : Layout UInt8} {value : α}
    (reads : Reads content layout value) :
    Reads (deserializeOption content) (.exactly [1] ++ layout) (some value) :=
  (reads_readU8 1).bind (reads.map some)

theorem reads_deserializeSeq {element : De α} {values : List α} (short : values.length < 2 ^ 32 - 1)
    (reads : ∀ value ∈ values, Reads element (piece value) value) :
    Reads (deserializeSeq element) (number 4 values.length ++ .each piece values) values := by
  apply (reads_count (by omega)).bind
  rw [toNat_ofNat_of_lt (by omega)]
  exact reads_times reads

theorem reads_deserializeMap {key : De κ} {value : De α} {keys : κ → Layout UInt8} {entries : List (κ × α)}
    (short : entries.length < 2 ^ 32 - 1)
    (reads : ∀ entry ∈ entries, Reads key (keys entry.1) entry.1 ∧ Reads value (piece entry.2) entry.2) :
    Reads (deserializeMap key value)
      (number 4 entries.length ++ .each (fun entry => keys entry.1 ++ piece entry.2) entries) entries := by
  apply (reads_count (by omega)).bind
  rw [toNat_ofNat_of_lt (by omega)]
  apply reads_times
  intro entry member
  obtain ⟨first, second⟩ := reads entry member
  exact first.bind (second.map fun v => (entry.1, v))

end Compound

mutual

theorem Ty.reads : (ty : Ty) → {value : ty.Val} → ty.Within value → Reads ty.deserialize (ty.layout value) value
  | .prim prim, _, within => prim.reads within
  | .option _, none, _ => (reads_readU8 0).bind_pure rfl
  | .option ty, some _, within => reads_deserializeOption_some (ty.reads within)
  | .seq ty, _, within => reads_deserializeSeq within.1 fun value member => ty.reads (within.2 value member)
  | .array ty _, ⟨values, full⟩, within => by
    subst full
    exact (reads_times fun value member => ty.reads (within value member)).bind_pure (dif_pos rfl)
  | .tuple fields, _, within => fields.reads within
  | .newtype ty, _, within => ty.reads within
  | .map key value, _, within => reads_deserializeMap within.1 fun entry member =>
      ⟨key.reads (within.2 entry member).1, value.reads (within.2 entry member).2⟩
  | .enum variants, value, within => by
    obtain ⟨idx, layout, small, same, reads⟩ := variants.reads within
    change Reads (variantSeed >>= variants.deserialize) (variants.layout 0 value) value
    rw [same]
    refine ((reads_count small).bind_pure ?_).bind reads
    rw [toNat_ofNat_of_lt small]
    rfl

theorem Fields.reads : (fields : Fields) → {values : fields.Val} → fields.Within values →
    Reads (fields.deserialize fields.count) (fields.layout values) values
  | .nil, _, _ => reads_pure _
  | .cons field rest, (_, _), within =>
    (field.reads within.1).bind ((rest.reads within.2).map fun values => (_, values))

theorem Variant.reads : (variant : Variant) → {value : variant.Val} → variant.Within value →
    Reads variant.deserialize (variant.layout value) value
  | .unit, _, _ => reads_pure _
  | .newtype inner, _, within => inner.reads within
  | .tuple fields, _, within => fields.reads within

theorem Variants.reads : (variants : Variants) → {index : Nat} → {value : variants.Val} →
    variants.Within index value → ∃ idx layout, idx + index < 2 ^ 32 ∧
      variants.layout index value = number 4 (idx + index) ++ layout ∧ Reads (variants.deserialize idx) layout value
  | .cons variant _, index, .inl _, within =>
    ⟨0, _, by rw [Nat.zero_add]; exact within.1, by rw [Nat.zero_add]; rfl, (variant.reads within.2).map Sum.inl⟩
  | .cons _ rest, index, .inr _, within => by
    obtain ⟨idx, layout, small, same, reads⟩ := rest.reads within
    refine ⟨idx + 1, layout, by omega, ?_, reads.map Sum.inr⟩
    rw [Nat.succ_add_eq_add_succ]
    exact same

end

end Reading

section Messages
variable [Target] {ty : Ty} {value : ty.Val} {layout : Layout UInt8} {buf after : Bytes} {n : Nat}

def Ty.body (ty : Ty) (value : ty.Val) : Bytes := (ty.layout value).place 0

structure Written (bytes buf after : Bytes) (n : Nat) : Prop where
  count : n = bytes.length
  front : after.take n = bytes
  length : after.length = buf.length
  fits : n ≤ buf.length

theorem serializeToBuf_written (lays : Lays (ty.serialize value) layout)
    (ran : serializeToBuf ty value buf = .ok (n, after)) : Written (layout.place 0) buf after n := by
  change (ty.serialize value ⟨buf, 0⟩ >>= fun result => .ok (result.2.pos, result.2.buf)) = _ at ran
  cases run : ty.serialize value ⟨buf, 0⟩ with
  | err error => rw [run] at ran; cases ran
  | panic fault => rw [run] at ran; cases ran
  | ok result =>
    obtain ⟨⟨⟩, cursor⟩ := result
    obtain ⟨fits, rfl⟩ := lays _ _ (Nat.zero_le _) run
    rw [run, Outcome.ok_bind] at ran
    cases ran
    refine ⟨Nat.zero_add _, ?_, Cursor.written_length fits, fits⟩
    rw [Cursor.written_pos, Cursor.take_written (Nat.zero_le _), List.take_zero, List.nil_append]

theorem serializeWithHeader_laid (lays : Lays (ty.serialize value) layout)
    (ran : serializeWithHeader ty value buf = .ok (n, after)) :
    Written (cdrLeHeader ++ layout.place 0) buf after n := by
  unfold serializeWithHeader at ran
  by_cases short : buf.length < 4
  · rw [if_pos short] at ran
    cases ran
  · rw [if_neg short] at ran
    cases run : serializeToBuf ty value (buf.drop 4) with
    | err error => rw [run] at ran; cases ran
    | panic fault => rw [run] at ran; cases ran
    | ok result =>
      obtain ⟨m, body⟩ := result
      obtain ⟨count, front, length, fits⟩ := serializeToBuf_written lays run
      rw [run, Outcome.ok_bind] at ran
      rw [List.length_drop] at length fits
      have header : cdrLeHeader.length = 4 := rfl
      by_cases small : 4 + m < usizeSize
      · simp only [usizeAdd_eq small, Outcome.ok_bind] at ran
        cases ran
        refine ⟨by rw [List.length_append, count, header], ?_,
          by rw [List.length_append, length, header]; omega, by omega⟩
        rw [← header, List.take_length_add_append, front]
      · simp only [usizeAdd, if_neg small, Outcome.panic_bind] at ran
        cases ran

theorem serializeWithHeader_written (within : ty.Within value)
    (ran : serializeWithHeader ty value buf = .ok (n, after)) :
    Written (cdrLeHeader ++ ty.body value) buf after n := serializeWithHeader_laid (ty.lays within) ran

theorem serializeWithHeader_fits (ran : serializeWithHeader ty value buf = .ok (n, after)) :
    (after.take n).length = n ∧ n ≤ after.length ∧ after.length = buf.length := by
  obtain ⟨layout, lays⟩ := ty.exists_lays value
  obtain ⟨count, front, length, fits⟩ := serializeWithHeader_laid lays ran
  exact ⟨by rw [front, count], by omega, length⟩

theorem deserializeFromBuf_append (within : ty.Within value) {rest : Bytes}
    (addressable : Addressable (ty.body value ++ rest)) :
    deserializeFromBuf ty (ty.body value ++ rest) = .ok (value, (ty.body value).length) := by
  have read := (ty.reads within).complete [] rest addressable
  unfold deserializeFromBuf
  simp only [List.nil_append, List.length_nil, Nat.zero_add] at read
  change (ty.deserialize ⟨ty.body value ++ rest, 0⟩ >>= _) = _
  rw [show ty.deserialize ⟨ty.body value ++ rest, 0⟩ = _ from read]
  rfl

theorem deserializeFromBuf_truncated (within : ty.Within value) {part missing : Bytes}
    (cut : ty.body value = part ++ missing) (more : missing ≠ []) (addressable : Addressable (ty.body value)) :
    ∃ error, deserializeFromBuf ty part = .err error := by
  obtain ⟨error, failed⟩ := (ty.reads within).truncated [] part missing cut more (cut ▸ addressable)
  refine ⟨error, ?_⟩
  unfold deserializeFromBuf
  rw [show ty.deserialize ⟨part, 0⟩ = _ from failed]
  rfl

theorem deserializeWithHeader_append (within : ty.Within value) {rest : Bytes}
    (addressable : Addressable (cdrLeHeader ++ ty.body value ++ rest)) :
    deserializeWithHeader ty (cdrLeHeader ++ ty.body value ++ rest) =
      .ok (value, (cdrLeHeader ++ ty.body value).length) := by
  have front : (cdrLeHeader ++ ty.body value ++ rest).drop 4 = ty.body value ++ rest := by
    rw [List.append_assoc]
    rfl
  have short : Addressable (ty.body value ++ rest) := addressable.of_length_le (by simp)
  have body := deserializeFromBuf_append within short
  have fits := addressable.lt_usizeSize (a := 4) (b := (ty.body value).length)
    (by simp [cdrLeHeader]) (by simp [cdrLeHeader]; omega)
  unfold deserializeWithHeader
  rw [if_neg (by simp [cdrLeHeader]), if_neg (by simp [cdrLeHeader]), front, body]
  simp only [Outcome.ok_bind, usizeAdd_eq fits]
  rw [List.length_append]
  rfl

theorem deserializeWithHeader_truncated (within : ty.Within value) {part missing : Bytes}
    (cut : cdrLeHeader ++ ty.body value = part ++ missing) (more : missing ≠ [])
    (addressable : Addressable (cdrLeHeader ++ ty.body value)) :
    ∃ error, deserializeWithHeader ty part = .err error := by
  unfold deserializeWithHeader
  by_cases short : part.length < 4
  · exact ⟨_, if_pos short⟩
  · rw [if_neg short]
    have front : ty.body value = part.drop 4 ++ missing := by
      rw [← List.drop_append_of_le_length (by omega), ← cut]
      rfl
    obtain ⟨error, failed⟩ := deserializeFromBuf_truncated within front more (addressable.of_length_le (by simp))
    rw [failed]
    split
    · exact ⟨_, rfl⟩
    · exact ⟨error, rfl⟩

/-- What was serialized is read back, with or without the header, whatever follows it. -/
theorem deserialize_serialized (ty : Ty) (value : ty.Val) (within : ty.Within value) (buf after rest : Bytes) (n : Nat)
    (addressable : Addressable (after.take n ++ rest)) :
    (serializeWithHeader ty value buf = .ok (n, after) →
      deserializeWithHeader ty (after.take n ++ rest) = .ok (value, n)) ∧
    (serializeToBuf ty value buf = .ok (n, after) →
      deserializeFromBuf ty (after.take n ++ rest) = .ok (value, n)) := by
  constructor
  · intro ran
    obtain ⟨count, front, -, -⟩ := serializeWithHeader_written within ran
    rw [front] at addressable ⊢
    rw [count]
    exact deserializeWithHeader_append within addressable
  · intro ran
    obtain ⟨count, front, -, -⟩ := serializeToBuf_written (ty.lays within) ran
    change after.take n = ty.body value at front
    rw [front] at addressable ⊢
    rw [count]
    exact deserializeFromBuf_append within addressable

def sampleTy : Ty :=
  .tuple (.cons (.prim .u8) (.cons (.option (.prim .string))
    (.cons (.enum (.cons .unit (.cons (.newtype (.prim .u16)) .nil))) .nil)))

def sample : sampleTy.Val := ((7 : UInt8), some "ab", .inr (.inl (258 : UInt16)), ())

omit [Target] in
theorem sample_within : sampleTy.Within sample := by
  refine ⟨trivial, ?_, ⟨?_, trivial⟩, trivial⟩
  · change "ab".utf8ByteSize < _
    decide +kernel
  · decide

omit [Target] in
theorem deserialize_serialized_sample :
    letI := target64
    ∃ after, serializeWithHeader sampleTy sample (List.replicate 32 0) = .ok (22, after) ∧
      deserializeWithHeader sampleTy (after.take 22 ++ [1, 2, 3]) = .ok (sample, 22) := by
  let := target64
  have ran : serializeWithHeader sampleTy sample (List.replicate 32 0) = .ok (22,
      [0, 1, 0, 0, 7, 1, 0, 0, 3, 0, 0, 0, 97, 98, 0, 0, 1, 0, 0, 0, 2, 1] ++ List.replicate 10 0) := by
    decide +kernel
  refine ⟨_, ran, (deserialize_serialized sampleTy sample sample_within _ _ [1, 2, 3] 22 ?_).1 ran⟩
  decide +kernel

end Messages
end ZenohRos2.Cdr
