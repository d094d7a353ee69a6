import ZenohRos2.Cdr.RoundTrip
import ZenohRos2.Rust.Grammar

/-! What the deserializer takes for a value.

It is more generous than the serializer is: the padding and the terminator of a
string may hold anything, and an empty string may have the length 0. Nothing
else is accepted, so what it reads is an encoding of the value that it returns.
-/

set_option autoImplicit false

namespace ZenohRos2.Cdr
open Rust

section Encodings

/-- Padding that may hold anything, and a number. -/
def numberWord (width n : Nat) : Grammar UInt8 :=
  .like (.padding 0 width) ++ .exactly (LittleEndian.encode width n)

def countWord (n : Nat) : Grammar UInt8 := .given (n < 2 ^ 32) (numberWord 4 n)

/-- The last byte of a string is not looked at. -/
def anyOctet : Grammar UInt8 := .like (.exactly [0])

def stringWord (value : String) : Grammar UInt8 :=
  .either (countWord (value.utf8ByteSize + 1) ++ (.exactly (utf8 value) ++ anyOctet))
    (.given (value = "") (countWord 0))

def Prim.encoding : (prim : Prim) → prim.Val → Grammar UInt8
  | .bool, value => .exactly [value.toUInt8]
  | .i8, value => .exactly [value.toUInt8]
  | .i16, value => numberWord 2 value.toUInt16.toNat
  | .i32, value => numberWord 4 value.toUInt32.toNat
  | .i64, value => numberWord 8 value.toUInt64.toNat
  | .u8, value => .exactly [value]
  | .u16, value => numberWord 2 value.toNat
  | .u32, value => numberWord 4 value.toNat
  | .u64, value => numberWord 8 value.toNat
  | .f32, value => numberWord 4 value.toNat
  | .f64, value => numberWord 8 value.toNat
  | .char, value => .given (value.toNat ≤ 0xFF) (.exactly [value.toUInt8])
  | .string, value => stringWord value
  | .bytes, value => countWord value.length ++ .exactly value
  | .unit, _ => .nothing

mutual

/-- The encodings of a value that are accepted. -/
def Ty.encoding : (ty : Ty) → ty.Val → Grammar UInt8
  | .prim prim, value => prim.encoding value
  | .option _, none => .exactly [0]
  | .option ty, some value => .exactly [1] ++ ty.encoding value
  | .seq ty, values => countWord values.length ++ .each ty.encoding values
  | .array ty _, values => .each ty.encoding values.val
  | .tuple fields, values => fields.encoding values
  | .newtype ty, value => ty.encoding value
  | .map key value, entries =>
    countWord entries.length ++ .each (fun entry => key.encoding entry.1 ++ value.encoding entry.2) entries
  | .enum variants, value => variants.encoding 0 value

def Fields.encoding : (fields : Fields) → fields.Val → Grammar UInt8
  | .nil, _ => .nothing
  | .cons field rest, (value, values) => field.encoding value ++ rest.encoding values

def Variant.encoding : (variant : Variant) → variant.Val → Grammar UInt8
  | .unit, _ => .nothing
  | .newtype inner, value => inner.encoding value
  | .tuple fields, values => fields.encoding values

def Variants.encoding : (variants : Variants) → (index : Nat) → variants.Val → Grammar UInt8
  | .nil, _, value => nomatch value
  | .cons variant _, index, .inl value => countWord index ++ variant.encoding value
  | .cons _ rest, index, .inr value => rest.encoding (index + 1) value

end

def Variants.tag : (variants : Variants) → variants.Val → Nat
  | .nil, value => nomatch value
  | .cons _ _, .inl _ => 0
  | .cons _ rest, .inr value => rest.tag value + 1

def Variants.content : (variants : Variants) → variants.Val → Grammar UInt8
  | .nil, value => nomatch value
  | .cons variant _, .inl value => variant.encoding value
  | .cons _ rest, .inr value => rest.content value

theorem Variants.encoding_eq : (variants : Variants) → (index : Nat) → (value : variants.Val) →
    variants.encoding index value = countWord (index + variants.tag value) ++ variants.content value
  | .nil, _, value => by cases value
  | .cons _ _, _, .inl _ => rfl
  | .cons _ rest, index, .inr value => by
    rw [encoding, tag, content, rest.encoding_eq (index + 1) value, Nat.add_right_comm, Nat.add_assoc]

end Encodings

section Canonical

theorem admits_numberWord (width n : Nat) : (numberWord width n).Admits (number width n) :=
  (Grammar.admits_like _).append (Grammar.admits_exactly _)

theorem admits_countWord {n : Nat} (small : n < 2 ^ 32) : (countWord n).Admits (number 4 n) :=
  (admits_numberWord 4 n).given small

theorem Prim.admits : (prim : Prim) → {value : prim.Val} → prim.Within value →
    (prim.encoding value).Admits (prim.layout value)
  | .bool, _, _ => Grammar.admits_exactly _
  | .i8, _, _ => Grammar.admits_exactly _
  | .i16, _, _ => admits_numberWord _ _
  | .i32, _, _ => admits_numberWord _ _
  | .i64, _, _ => admits_numberWord _ _
  | .u8, _, _ => Grammar.admits_exactly _
  | .u16, _, _ => admits_numberWord _ _
  | .u32, _, _ => admits_numberWord _ _
  | .u64, _, _ => admits_numberWord _ _
  | .f32, _, _ => admits_numberWord _ _
  | .f64, _, _ => admits_numberWord _ _
  | .char, _, octet => (Grammar.admits_exactly _).given octet
  | .string, (value : String), short => by
    have short : value.utf8ByteSize < 2 ^ 32 - 1 := short
    exact ((admits_countWord (by omega)).append
      ((Grammar.admits_exactly (utf8 value)).append (Grammar.admits_like _))).either
  | .bytes, (value : Bytes), short => by
    have short : value.length < 2 ^ 32 - 1 := short
    exact (admits_countWord (by omega)).append (Grammar.admits_exactly value)
  | .unit, _, _ => Grammar.admits_exactly _

mutual

theorem Ty.admits : (ty : Ty) → {value : ty.Val} → ty.Within value → (ty.encoding value).Admits (ty.layout value)
  | .prim prim, _, within => prim.admits within
  | .option _, none, _ => Grammar.admits_exactly _
  | .option ty, some _, within => (Grammar.admits_exactly _).append (ty.admits within)
  | .seq ty, _, within => (admits_countWord (Nat.lt_of_lt_of_le within.1 (by decide))).append
      (Grammar.admits_each fun value member => ty.admits (within.2 value member))
  | .array ty _, _, within => Grammar.admits_each fun value member => ty.admits (within value member)
  | .tuple fields, _, within => fields.admits within
  | .newtype ty, _, within => ty.admits within
  | .map key value, _, within => (admits_countWord (Nat.lt_of_lt_of_le within.1 (by decide))).append
      (Grammar.admits_each fun entry member =>
        (key.admits (within.2 entry member).1).append (value.admits (within.2 entry member).2))
  | .enum variants, _, within => variants.admits within

theorem Fields.admits : (fields : Fields) → {values : fields.Val} → fields.Within values →
    (fields.encoding values).Admits (fields.layout values)
  | .nil, _, _ => Grammar.admits_exactly _
  | .cons field rest, _, within => (field.admits within.1).append (rest.admits within.2)

theorem Variant.admits : (variant : Variant) → {value : variant.Val} → variant.Within value →
    (variant.encoding value).Admits (variant.layout value)
  | .unit, _, _ => Grammar.admits_exactly _
  | .newtype inner, _, within => inner.admits within
  | .tuple fields, _, within => fields.admits within

theorem Variants.admits : (variants : Variants) → {index : Nat} → {value : variants.Val} →
    variants.Within index value → (variants.encoding index value).Admits (variants.layout index value)
  | .cons variant _, _, .inl _, within => (admits_countWord within.1).append (variant.admits within.2)
  | .cons _ rest, _, .inr _, within => rest.admits within

end

end Canonical

section Primitives
variable [Target]
open CdrDeserializer

theorem parses_align (n : Nat) : Parses (align n) fun _ => .like (.padding 0 n) := by
  intro front tail addressable value after
  have skip := @Parses.map _ _ _ _ _ _ _
    (fun _ => .like (.exactly (List.replicate (n - front.length % n) (0 : UInt8))))
    (parses_take CdrError.bufferUnderflow (n - front.length % n)) (fun _ => ())
    fun result pos word => by simp [Grammar.like]
  rw [← Get.skip_eq] at skip
  unfold align
  simp only [Grammar.like, Layout.padding]
  by_cases aligned : front.length % n = 0
  · simp only [aligned, ne_eq, not_true_eq_false, if_false, if_true]
    exact parses_pure () front tail addressable value after |>.trans (by simp)
  · simp only [ne_eq, aligned, not_false_eq_true, if_true]
    exact skip front tail addressable value after

theorem parses_readLe (width : Nat) : Parses (readLe width) fun n => .given (n < 256 ^ width) (numberWord width n) := by
  have digits : Parses (do let bytes ← readBytes width; pure (LittleEndian.value bytes)) fun n =>
      .given (n < 256 ^ width) (.exactly (LittleEndian.encode width n)) := by
    refine (parses_take CdrError.bufferUnderflow width).map LittleEndian.value fun n pos word => ⟨?_, ?_⟩
    · rintro ⟨small, rfl⟩
      exact ⟨_, (LittleEndian.value_encode_of_lt small).symm, LittleEndian.encode_length width n, rfl⟩
    · rintro ⟨bytes, rfl, rfl, rfl⟩
      exact ⟨LittleEndian.value_lt _, (LittleEndian.encode_value _).symm⟩
  refine ((parses_align width).bind fun _ => digits).congr fun n => ?_
  ext pos word
  constructor
  · rintro ⟨_, one, two, rfl, padding, small, rfl⟩
    exact ⟨small, one, _, rfl, padding, rfl⟩
  · rintro ⟨small, one, two, rfl, padding, rfl⟩
    exact ⟨(), one, _, rfl, padding, small, rfl⟩

theorem parses_number {α : Type} (width : Nat) {ofNat : Nat → α} {toNat : α → Nat}
    (small : ∀ value, toNat value < 256 ^ width) (back : ∀ value, ofNat (toNat value) = value)
    (exact_ : ∀ n, n < 256 ^ width → toNat (ofNat n) = n) :
    Parses (do let n ← readLe width; pure (ofNat n)) fun value => numberWord width (toNat value) := by
  refine (parses_readLe width).map ofNat fun value pos word => ⟨fun holds => ?_, ?_⟩
  · exact ⟨toNat value, (back value).symm, small value, holds⟩
  · rintro ⟨n, rfl, fits, holds⟩
    rwa [exact_ n fits]

theorem parses_readU8 : Parses readU8 fun value => .exactly [value] := by
  refine ((parses_take CdrError.bufferUnderflow 1).bind fun bytes => parses_lift _).congr fun value => ?_
  ext pos word
  constructor
  · rintro ⟨bytes, _, _, rfl, ⟨size, rfl⟩, read, rfl⟩
    obtain ⟨byte, rfl⟩ := List.length_eq_one_iff.mp size
    cases read
    rfl
  · rintro rfl
    exact ⟨[value], [value], [], rfl, ⟨rfl, rfl⟩, rfl, rfl⟩

theorem parses_readU16 : Parses readU16 fun value => numberWord 2 value.toNat :=
  parses_number 2 (fun value => value.toNat_lt) (fun _ => UInt16.ofNat_toNat) fun n small => by
    rw [UInt16.toNat_ofNat']
    exact Nat.mod_eq_of_lt small

theorem parses_readU32 : Parses readU32 fun value => numberWord 4 value.toNat :=
  parses_number 4 (fun value => value.toNat_lt) (fun _ => UInt32.ofNat_toNat) fun n small => by
    rw [UInt32.toNat_ofNat']
    exact Nat.mod_eq_of_lt small

theorem parses_readU64 : Parses readU64 fun value => numberWord 8 value.toNat :=
  parses_number 8 (fun value => value.toNat_lt) (fun _ => UInt64.ofNat_toNat) fun n small => by
    rw [UInt64.toNat_ofNat']
    exact Nat.mod_eq_of_lt small

theorem parses_fail {α : Type} (error : CdrError) :
    Parses (fail error : De α) fun _ => .given False .nothing := parses_never fun _ => rfl

theorem parses_flag {α : Type} {next : UInt8 → De α} {unset set : α → Grammar UInt8} (zero : Parses (next 0) unset)
    (one : Parses (next 1) set) (other : ∀ v n, v.toNat = n + 2 → next v = fail .invalidBool) :
    Parses (readU8 >>= next) fun value => .either (.exactly [0] ++ unset value) (.exactly [1] ++ set value) := by
  have octet (v : UInt8) : Parses (next v) fun value =>
      .either (.given (v = 0) (unset value)) (.given (v = 1) (set value)) := by
    rcases number : v.toNat with _ | _ | n
    · obtain rfl : v = 0 := UInt8.toNat_inj.mp number
      refine zero.congr fun value => ?_
      simp [Grammar.ext_iff, funext_iff]
    · obtain rfl : v = 1 := UInt8.toNat_inj.mp number
      refine one.congr fun value => ?_
      simp [Grammar.ext_iff, funext_iff]
    · have neither : v ≠ 0 ∧ v ≠ 1 := by
        constructor
        · rintro rfl
          exact absurd number (Nat.zero_ne_add_one _)
        · rintro rfl
          exact absurd (Nat.succ.inj number) (Nat.zero_ne_add_one n)
      rw [other v n number]
      refine (parses_fail _).congr fun value => ?_
      simp [Grammar.ext_iff, funext_iff, neither]
  refine (parses_readU8.bind octet).congr fun value => ?_
  ext pos word
  constructor
  · rintro ⟨v, one, two, rfl, rfl, ⟨rfl, holds⟩ | ⟨rfl, holds⟩⟩
    · exact .inl ⟨[0], two, rfl, rfl, holds⟩
    · exact .inr ⟨[1], two, rfl, rfl, holds⟩
  · rintro (⟨_, two, rfl, rfl, holds⟩ | ⟨_, two, rfl, rfl, holds⟩)
    · exact ⟨0, [0], two, rfl, rfl, .inl ⟨rfl, holds⟩⟩
    · exact ⟨1, [1], two, rfl, rfl, .inr ⟨rfl, holds⟩⟩

theorem parses_deserializeBool : Parses deserializeBool fun value => .exactly [value.toUInt8] := by
  refine (parses_flag (parses_pure false) (parses_pure true) fun v n number => ?_).congr fun value => ?_
  · simp only [number]
  · ext pos word
    cases value with
    | false =>
      constructor
      · rintro (⟨_, _, rfl, rfl, -, rfl⟩ | ⟨_, _, -, -, wrong, -⟩)
        · rfl
        · cases wrong
      · rintro rfl
        exact .inl ⟨[0], [], rfl, rfl, rfl, rfl⟩
    | true =>
      constructor
      · rintro (⟨_, _, -, -, wrong, -⟩ | ⟨_, _, rfl, rfl, -, rfl⟩)
        · cases wrong
        · rfl
      · rintro rfl
        exact .inr ⟨[1], [], rfl, rfl, rfl, rfl⟩

theorem parses_deserializeChar :
    Parses deserializeChar fun value => .given (value.toNat ≤ 0xFF) (.exactly [value.toUInt8]) := by
  refine parses_readU8.map Char.ofUInt8 fun value pos word => ⟨?_, ?_⟩
  · rintro ⟨octet, rfl⟩
    refine ⟨value.toUInt8, ?_, rfl⟩
    apply Char.ext
    apply UInt32.toNat_inj.mp
    change value.val.toNat = value.val.toUInt8.toUInt32.toNat
    rw [UInt8.toNat_toUInt32, UInt32.toNat_toUInt8]
    exact (Nat.mod_eq_of_lt (Nat.lt_succ_of_le octet)).symm
  · rintro ⟨v, rfl, rfl⟩
    refine ⟨Nat.le_of_lt_succ v.toNat_lt, ?_⟩
    change [v] = [v.toUInt32.toUInt8]
    rw [UInt8.toUInt8_toUInt32]

theorem parses_counted {α : Type} {next : UInt32 → De α} (rest : Nat → α → Grammar UInt8)
    (parses : ∀ len : UInt32, Parses (next len) (rest len.toNat)) :
    Parses (readU32 >>= next) fun value => .union fun len => countWord len ++ rest len value := by
  refine (parses_readU32.bind parses).congr fun value => ?_
  ext pos word
  constructor
  · rintro ⟨len, one, two, rfl, count, holds⟩
    exact ⟨len.toNat, one, two, rfl, ⟨len.toNat_lt, count⟩, holds⟩
  · rintro ⟨len, one, two, rfl, ⟨small, count⟩, holds⟩
    refine ⟨UInt32.ofNat len, one, two, rfl, ?_⟩
    rw [toNat_ofNat_of_lt small]
    exact ⟨count, holds⟩

omit [Target] in
theorem union_count {α : Type} (size : α → Nat) {rest : α → Grammar UInt8} (value : α) :
    (.union fun len => countWord len ++ .given (size value = len) (rest value)) =
      countWord (size value) ++ rest value := by
  ext pos word
  constructor
  · rintro ⟨_, one, two, rfl, count, rfl, holds⟩
    exact ⟨one, two, rfl, count, holds⟩
  · rintro ⟨one, two, rfl, count, holds⟩
    exact ⟨_, one, two, rfl, count, rfl, holds⟩

theorem parses_found {α : Type} (found : Option α) (error : CdrError) {get : De α}
    (some_ : ∀ value, found = some value → get = pure value) (missing : found = none → get = fail error) :
    Parses get fun value => .given (found = some value) .nothing := by
  cases same : found with
  | some value =>
    rw [some_ value same]
    refine (parses_pure value).congr fun other => ?_
    simp [eq_comm]
  | none =>
    rw [missing same]
    refine (parses_fail error).congr fun value => ?_
    simp

omit [Target] in
theorem union_terminated {len : Nat} (positive : len ≠ 0) (value : String) :
    (.union fun bytes => .given (bytes.length = len) (.exactly bytes) ++ .union fun strBytes =>
      .given (sliceRange bytes 0 (len - 1) = (.ok strBytes : Outcome CdrError Bytes)) .nothing ++
        .given (fromUtf8 strBytes = some value) .nothing) =
      Grammar.given (len = value.utf8ByteSize + 1) (.exactly (utf8 value) ++ anyOctet) := by
  have size : (utf8 value).length = value.utf8ByteSize := by simp [utf8]
  ext pos word
  constructor
  · rintro ⟨_, bytes, _, rfl, ⟨rfl, rfl⟩, strBytes, _, _, rfl, ⟨cut, rfl⟩, decoded, rfl⟩
    obtain rfl := utf8_of_fromUtf8 decoded
    obtain ⟨-, front⟩ := sliceRange_eq_ok.mp cut
    rw [List.drop_zero, ← List.dropLast_eq_take] at front
    have some_ : bytes ≠ [] := fun none_ => positive (by rw [none_]; rfl)
    have split := List.dropLast_append_getLast some_
    rw [front] at split
    refine ⟨?_, utf8 value, [bytes.getLast some_], by simp [split], rfl, rfl⟩
    rw [← split, List.length_append, size]
    rfl
  · rintro ⟨rfl, _, last, rfl, rfl, one⟩
    have one : last.length = 1 := one
    refine ⟨_, _, [], (List.append_nil _).symm, ⟨?_, rfl⟩, utf8 value, [], [], rfl, ⟨?_, rfl⟩, fromUtf8_utf8 value, rfl⟩
    · rw [List.length_append, size, one]
    · refine sliceRange_eq_ok.mpr ⟨⟨Nat.zero_le _, ?_⟩, ?_⟩
      · rw [List.length_append, size]
        omega
      · rw [List.drop_zero, Nat.add_sub_cancel, ← size, List.take_left]

theorem parses_deserializeStr : Parses deserializeStr stringWord := by
  refine (parses_counted (fun len value => .either
    (.given (len = value.utf8ByteSize + 1) (.exactly (utf8 value) ++ anyOctet))
    (.given (len = 0 ∧ value = "") .nothing)) fun len => ?_).congr fun value => ?_
  · by_cases zero : len.toNat = 0
    · rw [if_pos zero]
      refine (parses_pure "").congr fun value => ?_
      simp [Grammar.ext_iff, funext_iff, zero]
    · rw [if_neg zero]
      refine ((parses_take CdrError.bufferUnderflow len.toNat).bind fun bytes => (parses_lift _).bind fun strBytes =>
        parses_found (fromUtf8 strBytes) .invalidUtf8 (fun text found => ?_) fun missing => ?_).congr fun value => ?_
      · simp only [found]
      · simp only [missing]
      · rw [union_terminated zero]
        simp [Grammar.ext_iff, funext_iff, zero]
  ext pos word
  constructor
  · rintro ⟨len, one, two, rfl, count, ⟨rfl, holds⟩ | ⟨⟨rfl, empty⟩, rfl⟩⟩
    · exact .inl ⟨one, two, rfl, count, holds⟩
    · rw [List.append_nil]
      exact .inr ⟨empty, count⟩
  · rintro (⟨one, two, rfl, count, holds⟩ | ⟨empty, count⟩)
    · exact ⟨_, one, two, rfl, count, .inl ⟨rfl, holds⟩⟩
    · exact ⟨0, word, [], (List.append_nil word).symm, count, .inr ⟨⟨rfl, empty⟩, rfl⟩⟩

theorem parses_deserializeBytes :
    Parses deserializeBytes fun value => countWord value.length ++ .exactly value :=
  (parses_counted (fun len value => .given (value.length = len) (.exactly value)) fun len =>
    parses_take _ len.toNat).congr fun value => union_count List.length value

theorem Prim.parses : (prim : Prim) → Parses prim.deserialize prim.encoding
  | .bool => parses_deserializeBool
  | .i8 => parses_readU8.rename Int8.toUInt8 (fun _ => UInt8.toUInt8_toInt8 _) fun _ => Int8.toInt8_toUInt8 _
  | .i16 => parses_readU16.rename Int16.toUInt16 (fun _ => UInt16.toUInt16_toInt16 _)
      fun _ => Int16.toInt16_toUInt16 _
  | .i32 => parses_readU32.rename Int32.toUInt32 (fun _ => UInt32.toUInt32_toInt32 _)
      fun _ => Int32.toInt32_toUInt32 _
  | .i64 => parses_readU64.rename Int64.toUInt64 (fun _ => UInt64.toUInt64_toInt64 _)
      fun _ => Int64.toInt64_toUInt64 _
  | .u8 => parses_readU8
  | .u16 => parses_readU16
  | .u32 => parses_readU32
  | .u64 => parses_readU64
  | .f32 => parses_readU32
  | .f64 => parses_readU64
  | .char => parses_deserializeChar
  | .string => parses_deserializeStr
  | .bytes => parses_deserializeBytes
  | .unit => (parses_pure ()).congr fun _ => by simp [Prim.encoding, Grammar.ext_iff, funext_iff]

end Primitives

section Compound
variable [Target]
open CdrDeserializer
variable {α κ : Type} {element : De α} {piece : α → Grammar UInt8}

theorem parses_deserializeOption (parses : Parses element piece) :
    Parses (deserializeOption element) fun
      | none => .exactly [0]
      | some value => .exactly [1] ++ piece value := by
  refine (parses_flag (parses_pure none) (parses.bind fun value => parses_pure (some value))
    fun v n number => ?_).congr fun value => ?_
  · simp only [number]
  · ext pos word
    cases value with
    | none =>
      constructor
      · rintro (⟨_, _, rfl, rfl, -, rfl⟩ | ⟨_, _, -, -, _, _, _, -, -, wrong, -⟩)
        · rfl
        · cases wrong
      · rintro rfl
        exact .inl ⟨[0], [], rfl, rfl, rfl, rfl⟩
    | some value =>
      constructor
      · rintro (⟨_, _, -, -, wrong, -⟩ | ⟨_, two, rfl, rfl, other, one, _, rfl, holds, same, rfl⟩)
        · cases wrong
        · cases same
          rw [List.append_nil]
          exact ⟨[1], one, rfl, rfl, holds⟩
      · rintro ⟨_, two, rfl, rfl, holds⟩
        exact .inr ⟨[1], two, rfl, rfl, value, two, [], (List.append_nil two).symm, holds, rfl, rfl⟩

theorem parses_deserializeSeq (parses : Parses element piece) :
    Parses (deserializeSeq element) fun values => countWord values.length ++ .each piece values :=
  (parses_counted (fun len values => .given (values.length = len) (.each piece values))
    fun len => parses_times parses len.toNat).congr fun values =>
    union_count List.length values

theorem parses_pair {key : De κ} {keys : κ → Grammar UInt8} (one : Parses key keys) (two : Parses element piece) :
    Parses (do let k ← key; let v ← element; pure (k, v)) fun entry => keys entry.1 ++ piece entry.2 := by
  have second (k : κ) : Parses (do let v ← element; pure (k, v)) fun entry =>
      .given (entry.1 = k) (piece entry.2) := by
    refine two.map (k, ·) fun entry pos word => ⟨?_, ?_⟩
    · rintro ⟨rfl, holds⟩
      exact ⟨entry.2, rfl, holds⟩
    · rintro ⟨v, rfl, holds⟩
      exact ⟨rfl, holds⟩
  refine (one.bind second).congr fun entry => ?_
  ext pos word
  constructor
  · rintro ⟨_, first, rest, rfl, holds, rfl, more⟩
    exact ⟨first, rest, rfl, holds, more⟩
  · rintro ⟨first, rest, rfl, holds, more⟩
    exact ⟨_, first, rest, rfl, holds, rfl, more⟩

theorem parses_deserializeMap {key : De κ} {keys : κ → Grammar UInt8} (one : Parses key keys)
    (two : Parses element piece) : Parses (deserializeMap key element) fun entries =>
      countWord entries.length ++ .each (fun entry => keys entry.1 ++ piece entry.2) entries :=
  (parses_counted (fun len entries => .given (entries.length = len) (.each _ entries))
    fun len => parses_times (parses_pair one two) len.toNat).congr fun entries =>
    union_count List.length entries

/-- The visitor of an array takes as many elements as the array is long. -/
theorem parses_array (parses : Parses element piece) (length : Nat) :
    Parses (do
      let values ← deserializeArray element length
      if full : values.length = length then pure ⟨values, full⟩ else fail .deserializeError)
      fun values : { values : List α // values.length = length } => .each piece values.val := by
  have full (values : List α) : Parses (if full : values.length = length then pure ⟨values, full⟩
      else fail .deserializeError : De { values : List α // values.length = length })
      fun result => .given (result.val = values) .nothing := by
    by_cases full : values.length = length
    · rw [dif_pos full]
      exact (parses_pure _).congr fun result => by rw [Subtype.ext_iff]
    · rw [dif_neg full]
      refine (parses_fail _).congr fun result => ?_
      have other : result.val ≠ values := fun same => full (same ▸ result.property)
      simp [other]
  refine ((parses_times parses length).bind full).congr fun result => ?_
  ext pos word
  constructor
  · rintro ⟨_, one, _, rfl, ⟨-, holds⟩, rfl, rfl⟩
    rwa [List.append_nil]
  · intro holds
    exact ⟨result.val, word, [], (List.append_nil word).symm, ⟨result.property, holds⟩, rfl, rfl⟩

end Compound

section Types
variable [Target]
open CdrDeserializer

mutual

theorem Ty.parses : (ty : Ty) → Parses ty.deserialize ty.encoding
  | .prim prim => prim.parses
  | .option ty => (parses_deserializeOption ty.parses).congr fun value => by cases value <;> rfl
  | .seq ty => parses_deserializeSeq ty.parses
  | .array ty length => by
    rw [Ty.deserialize]
    exact parses_array ty.parses length
  | .tuple fields => fields.parses
  | .newtype ty => ty.parses
  | .map key value => parses_deserializeMap key.parses value.parses
  | .enum variants => by
    change Parses ((readU32 >>= fun idx => pure idx.toNat) >>= fun idx => variants.deserialize idx) _
    rw [bind_assoc]
    simp only [pure_bind]
    refine (parses_counted (fun idx value => .given (variants.tag value = idx) (variants.content value))
      fun idx => variants.parses idx.toNat).congr fun value => ?_
    have whole : (Ty.enum variants).encoding value = variants.encoding 0 value := rfl
    rw [union_count, whole, variants.encoding_eq, Nat.zero_add]

theorem Fields.parses : (fields : Fields) → Parses (fields.deserialize fields.count) fields.encoding
  | .nil => (parses_pure ()).congr fun _ => by simp [Fields.encoding, Grammar.ext_iff, funext_iff]
  | .cons field rest => parses_pair field.parses rest.parses

theorem Variant.parses : (variant : Variant) → Parses variant.deserialize variant.encoding
  | .unit => (parses_pure ()).congr fun _ => by simp [Variant.encoding, Grammar.ext_iff, funext_iff]
  | .newtype inner => inner.parses
  | .tuple fields => fields.parses

theorem Variants.parses : (variants : Variants) → (idx : Nat) →
    Parses (variants.deserialize idx) fun value => .given (variants.tag value = idx) (variants.content value)
  | .nil, _ => fun _ _ _ value => nomatch value
  | .cons variant rest, 0 => by
    refine variant.parses.map Sum.inl fun value pos word => ?_
    cases value with
    | inl value => simp [Variants.tag, Variants.content]
    | inr value => simp [Variants.tag]
  | .cons variant rest, idx + 1 => by
    refine (rest.parses idx).map Sum.inr fun value pos word => ?_
    cases value with
    | inl value => simp [Variants.tag]
    | inr value => simp [Variants.tag, Variants.content]

end

theorem deserializeFromBuf_eq_ok {ty : Ty} {buf : Bytes} {value : ty.Val} {n : Nat} (addressable : Addressable buf) :
    deserializeFromBuf ty buf = .ok (value, n) ↔ n ≤ buf.length ∧ (ty.encoding value).Word 0 (buf.take n) := by
  have parses := ty.parses [] buf addressable value
  change (ty.deserialize ⟨buf, 0⟩ >>= fun read => .ok (read.1, read.2.pos)) = .ok (value, n) ↔ _
  rw [Outcome.bind_eq_ok]
  constructor
  · rintro ⟨⟨_, after⟩, read, same⟩
    cases same
    obtain ⟨word, rest, rfl, holds, rfl⟩ := (parses after).mp read
    simp only [List.length_nil, Nat.zero_add, List.take_left, List.length_append]
    exact ⟨Nat.le_add_right _ _, holds⟩
  · rintro ⟨inside, holds⟩
    refine ⟨(value, ⟨buf, n⟩), (parses _).mpr ⟨buf.take n, buf.drop n, (List.take_append_drop n buf).symm, holds, ?_⟩, rfl⟩
    simp [Nat.min_eq_left inside]

theorem deserializeWithHeader_eq_ok {ty : Ty} {buf : Bytes} {value : ty.Val} {n : Nat} (addressable : Addressable buf) :
    deserializeWithHeader ty buf = .ok (value, n) ↔
      buf.take 2 = [0x00, 0x01] ∧ 4 ≤ n ∧ n ≤ buf.length ∧ (ty.encoding value).Word 0 ((buf.take n).drop 4) := by
  unfold deserializeWithHeader
  by_cases short : buf.length < 4
  · rw [if_pos short]
    exact iff_of_false nofun fun holds => by omega
  rw [if_neg short]
  by_cases other : buf.take 2 ≠ [0x00, 0x01]
  · rw [if_pos other]
    exact iff_of_false nofun fun holds => other holds.1
  rw [if_neg other, and_iff_right (Classical.not_not.mp other), Outcome.bind_eq_ok]
  constructor
  · rintro ⟨⟨_, m⟩, read, ran⟩
    obtain ⟨_, sum, same⟩ := Outcome.bind_eq_ok.mp ran
    obtain ⟨-, rfl⟩ := usizeAdd_eq_ok.mp sum
    cases same
    obtain ⟨inside, holds⟩ := (deserializeFromBuf_eq_ok (addressable.drop 4)).mp read
    rw [List.length_drop] at inside
    rw [List.take_drop] at holds
    exact ⟨Nat.le_add_right _ _, by omega, holds⟩
  · rintro ⟨long, inside, holds⟩
    obtain ⟨m, rfl⟩ := Nat.exists_eq_add_of_le long
    rw [← List.take_drop] at holds
    have read := (deserializeFromBuf_eq_ok (addressable.drop 4)).mpr ⟨by rw [List.length_drop]; omega, holds⟩
    have fits := addressable.lt_usizeSize (Nat.le_of_not_lt short) (show m ≤ buf.length by omega)
    exact ⟨_, read, by simp only [usizeAdd_eq fits, Outcome.ok_bind]⟩

/-- The deserializers return a value just where an encoding of it stands: one that may have anything in its padding
and behind its strings, and may have the length 0 for an empty string. What the serializer writes is one of them. -/
theorem deserialize_accepts_iff (ty : Ty) {buf : Bytes} (addressable : Addressable buf) (value : ty.Val) (n : Nat) :
    (deserializeFromBuf ty buf = .ok (value, n) ↔ n ≤ buf.length ∧ (ty.encoding value).Word 0 (buf.take n)) ∧
    (deserializeWithHeader ty buf = .ok (value, n) ↔
      buf.take 2 = [0x00, 0x01] ∧ 4 ≤ n ∧ n ≤ buf.length ∧ (ty.encoding value).Word 0 ((buf.take n).drop 4)) ∧
    (ty.Within value → (ty.encoding value).Word 0 (ty.body value)) :=
  ⟨deserializeFromBuf_eq_ok addressable, deserializeWithHeader_eq_ok addressable, fun within => ty.admits within 0⟩

omit [Target] in
/-- An octet and a string, with octets of their own in the padding and at the end. -/
theorem deserialize_accepts_iff_loose :
    letI := target64
    let ty : Ty := .tuple (.cons (.prim .u8) (.cons (.prim .string) .nil))
    let buf : Bytes := [7, 9, 9, 9, 3, 0, 0, 0, 97, 98, 255]
    deserializeFromBuf ty buf = .ok (((7 : UInt8), "ab", ()), 11) := by
  intro ty buf
  let := target64
  have addressable : Addressable buf := le_isizeMax (by decide)
  have length : (countWord ("ab".utf8ByteSize + 1)).Word 1 [9, 9, 9, 3, 0, 0, 0] :=
    ⟨by decide +kernel, [9, 9, 9], [3, 0, 0, 0], rfl, rfl, Grammar.word_exactly.mpr (by decide +kernel)⟩
  have text : (stringWord "ab").Word 1 [9, 9, 9, 3, 0, 0, 0, 97, 98, 255] :=
    .inl ⟨_, [97, 98, 255], rfl, length, [97, 98], [255], rfl, Grammar.word_exactly.mpr (by decide +kernel), rfl⟩
  exact (deserialize_accepts_iff ty addressable ((7 : UInt8), "ab", ()) 11).1.mpr
    ⟨by decide, [7], _, rfl, rfl, _, [], rfl, text, rfl⟩

/-- The encodings behind a header, of which the last two bytes are not looked at. -/
def headed (encoding : Grammar UInt8) : Grammar UInt8 :=
  ⟨fun _ word => word.take 2 = [0x00, 0x01] ∧ 4 ≤ word.length ∧ encoding.Word 0 (word.drop 4)⟩

omit [Target] in
theorem at_headed {encoding : Grammar UInt8} {buf : Bytes} {n : Nat} : (headed encoding).At buf 0 n ↔
    buf.take 2 = [0x00, 0x01] ∧ 4 ≤ n ∧ n ≤ buf.length ∧ encoding.Word 0 ((buf.take n).drop 4) := by
  rw [Grammar.at_zero]
  simp only [headed, List.length_take, List.take_take]
  constructor
  · rintro ⟨inside, header, long, word⟩
    rw [Nat.min_eq_left (by omega)] at header
    exact ⟨header, by omega, inside, word⟩
  · rintro ⟨header, long, inside, word⟩
    rw [Nat.min_eq_left (by omega)]
    exact ⟨inside, header, by omega, word⟩

/-- A message that was read is read again in front of anything else, and none of its fronts is a message of the type. -/
theorem deserialize_self_delimiting (ty : Ty) {buf : Bytes} (addressable : Addressable buf) {value : ty.Val} {n : Nat} :
    (deserializeFromBuf ty buf = .ok (value, n) →
      (∀ rest, Addressable (buf.take n ++ rest) → deserializeFromBuf ty (buf.take n ++ rest) = .ok (value, n)) ∧
        ∀ m < n, ∀ result, deserializeFromBuf ty (buf.take m) ≠ .ok result) ∧
    (deserializeWithHeader ty buf = .ok (value, n) →
      (∀ rest, Addressable (buf.take n ++ rest) → deserializeWithHeader ty (buf.take n ++ rest) = .ok (value, n)) ∧
        ∀ m < n, ∀ result, deserializeWithHeader ty (buf.take m) ≠ .ok result) := by
  constructor
  · intro read
    have alone := self_delimiting (fun buf value n => deserializeFromBuf ty buf = .ok (value, n))
      (fun _ held _ _ => (deserializeFromBuf_eq_ok held).trans Grammar.at_zero.symm) ?_ addressable read
    · exact ⟨alone.1, fun m shorter ⟨other, k⟩ => alone.2 m shorter other k⟩
    intro buf value n other k one two
    cases one.symm.trans two
    rfl
  · intro read
    have alone := self_delimiting (fun buf value n => deserializeWithHeader ty buf = .ok (value, n))
      (fun _ held _ _ => (deserializeWithHeader_eq_ok held).trans at_headed.symm) ?_ addressable read
    · exact ⟨alone.1, fun m shorter ⟨other, k⟩ => alone.2 m shorter other k⟩
    intro buf value n other k one two
    cases one.symm.trans two
    rfl

omit [Target] in
theorem deserialize_self_delimiting_u16 :
    letI := target64
    deserializeFromBuf (.prim .u16) [1, 2, 3] = .ok ((513 : UInt16), 2) ∧
      ∀ m < 2, ∀ result, deserializeFromBuf (.prim .u16) (([1, 2, 3] : Bytes).take m) ≠ .ok result := by
  let := target64
  have read : deserializeFromBuf (.prim .u16) [1, 2, 3] = .ok ((513 : UInt16), 2) := rfl
  have addressable : Addressable ([1, 2, 3] : Bytes) := le_isizeMax (by decide)
  exact ⟨read, ((deserialize_self_delimiting (.prim .u16) addressable).1 read).2⟩

end Types

end ZenohRos2.Cdr
