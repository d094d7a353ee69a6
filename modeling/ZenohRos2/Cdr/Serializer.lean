import ZenohRos2.Cdr.Types

/-! The CDR serializer, and the calls of it that the derived code makes. -/

set_option autoImplicit false

namespace ZenohRos2.Cdr
open Rust

/-- A call on the serializer: its buffer and position. -/
abbrev Ser := Put CdrError UInt8

namespace CdrSerializer
variable [Target]

/-- Padding is zero. -/
def align (n : Nat) : Ser Unit := fun cursor =>
  let rem := cursor.pos % n
  if rem ≠ 0 then Put.checked .bufferOverflow (List.replicate (n - rem) 0) cursor else .ok ((), cursor)

def writeBytes (data : Bytes) : Ser Unit := Put.checked .bufferOverflow data

def serializeBool (v : Bool) : Ser Unit := writeBytes [v.toUInt8]

def serializeI8 (v : Int8) : Ser Unit := writeBytes [v.toUInt8]

def serializeU8 (v : UInt8) : Ser Unit := writeBytes [v]

/-- `self.align(width)?; self.write_bytes(&v.to_le_bytes())` -/
def serializeLe (width v : Nat) : Ser Unit := do
  align width
  writeBytes (LittleEndian.encode width v)

def serializeI16 (v : Int16) : Ser Unit := serializeLe 2 v.toUInt16.toNat
def serializeU16 (v : UInt16) : Ser Unit := serializeLe 2 v.toNat
def serializeI32 (v : Int32) : Ser Unit := serializeLe 4 v.toUInt32.toNat
def serializeU32 (v : UInt32) : Ser Unit := serializeLe 4 v.toNat
def serializeI64 (v : Int64) : Ser Unit := serializeLe 8 v.toUInt64.toNat
def serializeU64 (v : UInt64) : Ser Unit := serializeLe 8 v.toNat
def serializeF32 (bits : UInt32) : Ser Unit := serializeLe 4 bits.toNat
def serializeF64 (bits : UInt64) : Ser Unit := serializeLe 8 bits.toNat

def serializeChar (v : Char) : Ser Unit := writeBytes [v.toUInt8]

def serializeStr (v : String) : Ser Unit := do
  let lenWithNull ← (usizeAdd v.utf8ByteSize 1 : Outcome CdrError Nat)
  serializeLe 4 (UInt32.ofNat lenWithNull).toNat
  writeBytes (utf8 v)
  writeBytes [0]

def serializeBytes (v : Bytes) : Ser Unit := do
  serializeLe 4 (UInt32.ofNat v.length).toNat
  writeBytes v

def serializeNone : Ser Unit := serializeBool false

/-- `serialize_some`, where `value` is the call that serializes the content. -/
def serializeSome (value : Ser Unit) : Ser Unit := do
  serializeBool true
  value

def serializeUnit : Ser Unit := pure ()

def serializeVariant (variantIndex : UInt32) : Ser Unit := serializeU32 variantIndex

def serializeSeq (len : Option Nat) : Ser Unit :=
  match len with
  | none => (Outcome.err .serializeError : Outcome CdrError Unit)
  | some len => serializeLe 4 (UInt32.ofNat len).toNat

end CdrSerializer

section Derived
variable [Target]
open CdrSerializer

def Prim.serialize : (prim : Prim) → prim.Val → Ser Unit
  | .bool, value => serializeBool value
  | .i8, value => serializeI8 value
  | .i16, value => serializeI16 value
  | .i32, value => serializeI32 value
  | .i64, value => serializeI64 value
  | .u8, value => serializeU8 value
  | .u16, value => serializeU16 value
  | .u32, value => serializeU32 value
  | .u64, value => serializeU64 value
  | .f32, value => serializeF32 value
  | .f64, value => serializeF64 value
  | .char, value => serializeChar value
  | .string, value => serializeStr value
  | .bytes, value => serializeBytes value
  | .unit, _ => serializeUnit

-- Fields, elements and variants are visited in the order of their declaration.
mutual

def Ty.serialize : (ty : Ty) → ty.Val → Ser Unit
  | .prim prim, value => prim.serialize value
  | .option _, none => serializeNone
  | .option ty, some value => serializeSome (ty.serialize value)
  | .seq ty, (values : List ty.Val) => do
    serializeSeq (some values.length)
    Put.each ty.serialize values
  | .array ty _, values => Put.each ty.serialize values.val
  | .tuple fields, values => fields.serialize values
  | .newtype ty, value => ty.serialize value
  | .map key value, (entries : List (key.Val × value.Val)) => do
    serializeSeq (some entries.length)
    Put.each (fun entry => do key.serialize entry.1; value.serialize entry.2) entries
  | .enum variants, value => variants.serialize 0 value

def Fields.serialize : (fields : Fields) → fields.Val → Ser Unit
  | .nil, _ => pure ()
  | .cons field rest, (value, values) => do
    field.serialize value
    rest.serialize values

def Variant.serialize : (variant : Variant) → variant.Val → Ser Unit
  | .unit, _ => pure ()
  | .newtype inner, value => inner.serialize value
  | .tuple fields, values => fields.serialize values

def Variants.serialize : (variants : Variants) → (index : Nat) → variants.Val → Ser Unit
  | .nil, _, value => nomatch value
  | .cons variant _, index, .inl value => do
    serializeVariant (UInt32.ofNat index)
    variant.serialize value
  | .cons _ rest, index, .inr value => rest.serialize (index + 1) value

end

def serializeToBuf (ty : Ty) (value : ty.Val) : Encoder CdrError UInt8 := Put.encoder (ty.serialize value)

def cdrLeHeader : Bytes := [0x00, 0x01, 0x00, 0x00]

def serializeWithHeader (ty : Ty) (value : ty.Val) : Encoder CdrError UInt8 := fun buf =>
  if buf.length < 4 then .err .bufferOverflow
  else do
    let (n, body) ← serializeToBuf ty value (buf.drop 4)
    let n ← usizeAdd 4 n
    .ok (n, cdrLeHeader ++ body)

end Derived
end ZenohRos2.Cdr
