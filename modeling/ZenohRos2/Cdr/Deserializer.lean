import ZenohRos2.Cdr.Types

/-! The CDR deserializer, and the calls of it that the derived code makes. -/

set_option autoImplicit false

namespace ZenohRos2.Cdr
open Rust

/-- A call on the deserializer: its input and position. -/
abbrev De (α : Type) := Get CdrError UInt8 α

def fail {α : Type} (error : CdrError) : De α := (Outcome.err error : Outcome CdrError α)

namespace CdrDeserializer
variable [Target]

/-- What the padding holds is not checked. -/
def align (n : Nat) : De Unit := fun reader =>
  let rem := reader.pos % n
  if rem ≠ 0 then Get.skip .bufferUnderflow (n - rem) reader else .ok ((), reader)

def readBytes (n : Nat) : De Bytes := Get.take .bufferUnderflow n

def readU8 : De UInt8 := do
  let bytes ← readBytes 1
  (index bytes 0 : Outcome CdrError UInt8)

/-- `self.align(width)?; let b = self.read_bytes(width)?;` and the number in `b`. -/
def readLe (width : Nat) : De Nat := do
  align width
  let bytes ← readBytes width
  pure (LittleEndian.value bytes)

def readU16 : De UInt16 := do
  let n ← readLe 2
  pure (UInt16.ofNat n)

def readU32 : De UInt32 := do
  let n ← readLe 4
  pure (UInt32.ofNat n)

def readU64 : De UInt64 := do
  let n ← readLe 8
  pure (UInt64.ofNat n)

def deserializeBool : De Bool := do
  let v ← readU8
  match v.toNat with
  | 0 => pure false
  | 1 => pure true
  | _ => fail .invalidBool

def deserializeI8 : De Int8 := do
  let v ← readU8
  pure v.toInt8

def deserializeU8 : De UInt8 := readU8

def deserializeI16 : De Int16 := do
  let v ← readU16
  pure v.toInt16

def deserializeU16 : De UInt16 := readU16

def deserializeI32 : De Int32 := do
  let v ← readU32
  pure v.toInt32

def deserializeU32 : De UInt32 := readU32

def deserializeI64 : De Int64 := do
  let v ← readU64
  pure v.toInt64

def deserializeU64 : De UInt64 := readU64

def deserializeF32 : De UInt32 := do
  let bits ← readLe 4
  pure (UInt32.ofNat bits)

def deserializeF64 : De UInt64 := do
  let bits ← readLe 8
  pure (UInt64.ofNat bits)

def deserializeChar : De Char := do
  let c ← readU8
  pure (Char.ofUInt8 c)

def deserializeStr : De String := do
  let len ← readU32
  if len.toNat = 0 then pure ""
  else do
    let bytes ← readBytes len.toNat
    let strBytes ← (sliceRange bytes 0 (len.toNat - 1) : Outcome CdrError Bytes)
    match fromUtf8 strBytes with
    | some s => pure s
    | none => fail .invalidUtf8

def deserializeBytes : De Bytes := do
  let len ← readU32
  readBytes len.toNat

/-- `some` is the call that deserializes the content. -/
def deserializeOption {α : Type} (content : De α) : De (Option α) := do
  let present ← readU8
  match present.toNat with
  | 0 => pure none
  | 1 => do
    let value ← content
    pure (some value)
  | _ => fail .invalidBool

def deserializeUnit : De Unit := pure ()

def deserializeSeq {α : Type} (element : De α) : De (List α) := do
  let len ← readU32
  Get.times element len.toNat

/-- `deserialize_tuple` on an array: its visitor takes as many elements as the array is long. -/
def deserializeArray {α : Type} (element : De α) (len : Nat) : De (List α) := Get.times element len

def deserializeMap {κ α : Type} (key : De κ) (value : De α) : De (List (κ × α)) := do
  let len ← readU32
  Get.times (do let k ← key; let v ← value; pure (k, v)) len.toNat

/-- `variant_seed`: the index that the derived code looks up. -/
def variantSeed : De Nat := do
  let idx ← readU32
  pure idx.toNat

end CdrDeserializer

section Derived
variable [Target]
open CdrDeserializer

def Prim.deserialize : (prim : Prim) → De prim.Val
  | .bool => deserializeBool
  | .i8 => deserializeI8
  | .i16 => deserializeI16
  | .i32 => deserializeI32
  | .i64 => deserializeI64
  | .u8 => deserializeU8
  | .u16 => deserializeU16
  | .u32 => deserializeU32
  | .u64 => deserializeU64
  | .f32 => deserializeF32
  | .f64 => deserializeF64
  | .char => deserializeChar
  | .string => deserializeStr
  | .bytes => deserializeBytes
  | .unit => deserializeUnit

mutual

def Ty.deserialize : (ty : Ty) → De ty.Val
  | .prim prim => prim.deserialize
  | .option ty => deserializeOption ty.deserialize
  | .seq ty => deserializeSeq ty.deserialize
  | .array ty length => do
    let values ← deserializeArray ty.deserialize length
    if full : values.length = length then pure ⟨values, full⟩ else fail .deserializeError
  | .tuple fields => fields.deserialize fields.count
  | .newtype ty => ty.deserialize
  | .map key value => deserializeMap key.deserialize value.deserialize
  | .enum variants => do
    let idx ← variantSeed
    variants.deserialize idx

/-- Field by field from a `SeqAccess`, which may run out of elements. -/
def Fields.deserialize : (fields : Fields) → (remaining : Nat) → De fields.Val
  | .nil, _ => pure ()
  | .cons _ _, 0 => fail .deserializeError
  | .cons field rest, remaining + 1 => do
    let value ← field.deserialize
    let values ← rest.deserialize remaining
    pure (value, values)

def Variant.deserialize : (variant : Variant) → De variant.Val
  | .unit => pure ()
  | .newtype inner => inner.deserialize
  | .tuple fields => fields.deserialize fields.count

/-- An index behind the last variant is an error. -/
def Variants.deserialize : (variants : Variants) → (idx : Nat) → De variants.Val
  | .nil, _ => fail .deserializeError
  | .cons variant _, 0 => do
    let value ← variant.deserialize
    pure (.inl value)
  | .cons _ rest, idx + 1 => do
    let value ← rest.deserialize idx
    pure (.inr value)

end

def deserializeFromBuf (ty : Ty) (buf : Bytes) : Outcome CdrError (ty.Val × Nat) := do
  let (value, de) ← ty.deserialize ⟨buf, 0⟩
  .ok (value, de.pos)

def deserializeWithHeader (ty : Ty) (buf : Bytes) : Outcome CdrError (ty.Val × Nat) :=
  if buf.length < 4 then .err .bufferUnderflow
  else if buf.take 2 ≠ [0x00, 0x01] then .err .unsupportedEncapsulation
  else do
    let (value, n) ← deserializeFromBuf ty (buf.drop 4)
    let n ← usizeAdd 4 n
    .ok (value, n)

end Derived
end ZenohRos2.Cdr
