import ZenohRos2.Rust.Layout
import ZenohRos2.Transport.Codec

/-! The types of messages, and their layout in CDR.

A message type is built from primitives the way `serde` sees it. Structs, tuple
structs and tuples are all visited field by field and are one constructor here,
as are struct and tuple variants. A sequence or a map stands for the elements
or entries that it visits, in that order.
-/

set_option autoImplicit false

namespace ZenohRos2.Cdr
open Rust

inductive Prim where
  | bool
  | i8
  | i16
  | i32
  | i64
  | u8
  | u16
  | u32
  | u64
  | f32
  | f64
  | char
  | string
  | bytes
  | unit
  deriving DecidableEq

mutual

inductive Ty where
  | prim (prim : Prim)
  | option (content : Ty)
  | seq (element : Ty)
  | array (element : Ty) (length : Nat)
  | tuple (fields : Fields)
  | newtype (inner : Ty)
  | map (key value : Ty)
  | enum (variants : Variants)
  deriving DecidableEq

inductive Fields where
  | nil
  | cons (field : Ty) (rest : Fields)
  deriving DecidableEq

inductive Variant where
  | unit
  | newtype (inner : Ty)
  | tuple (fields : Fields)
  deriving DecidableEq

inductive Variants where
  | nil
  | cons (variant : Variant) (rest : Variants)
  deriving DecidableEq

end

/-- Floats are their bit patterns. -/
def Prim.Val : Prim → Type
  | .bool => Bool
  | .i8 => Int8
  | .i16 => Int16
  | .i32 => Int32
  | .i64 => Int64
  | .u8 => UInt8
  | .u16 => UInt16
  | .u32 => UInt32
  | .u64 => UInt64
  | .f32 => UInt32
  | .f64 => UInt64
  | .char => Char
  | .string => String
  | .bytes => Bytes
  | .unit => Unit

mutual

def Ty.Val : Ty → Type
  | .prim prim => prim.Val
  | .option content => Option content.Val
  | .seq element => List element.Val
  | .array element length => { values : List element.Val // values.length = length }
  | .tuple fields => fields.Val
  | .newtype inner => inner.Val
  | .map key value => List (key.Val × value.Val)
  | .enum variants => variants.Val

def Fields.Val : Fields → Type
  | .nil => Unit
  | .cons field rest => field.Val × rest.Val

def Variant.Val : Variant → Type
  | .unit => Unit
  | .newtype inner => inner.Val
  | .tuple fields => fields.Val

def Variants.Val : Variants → Type
  | .nil => Empty
  | .cons variant rest => variant.Val ⊕ rest.Val

end

def Fields.count : Fields → Nat
  | .nil => 0
  | .cons _ rest => rest.count + 1

def number (width n : Nat) : Layout UInt8 := .padding 0 width ++ .exactly (LittleEndian.encode width n)

def Prim.layout : (prim : Prim) → prim.Val → Layout UInt8
  | .bool, value => .exactly [value.toUInt8]
  | .i8, value => .exactly [value.toUInt8]
  | .i16, value => number 2 value.toUInt16.toNat
  | .i32, value => number 4 value.toUInt32.toNat
  | .i64, value => number 8 value.toUInt64.toNat
  | .u8, value => .exactly [value]
  | .u16, value => number 2 value.toNat
  | .u32, value => number 4 value.toNat
  | .u64, value => number 8 value.toNat
  | .f32, value => number 4 value.toNat
  | .f64, value => number 8 value.toNat
  | .char, value => .exactly [value.toUInt8]
  | .string, value => number 4 (value.utf8ByteSize + 1) ++ .exactly (utf8 value ++ [0])
  | .bytes, value => number 4 value.length ++ .exactly value
  | .unit, _ => .nothing

mutual

def Ty.layout : (ty : Ty) → ty.Val → Layout UInt8
  | .prim prim, value => prim.layout value
  | .option _, none => .exactly [0]
  | .option ty, some value => .exactly [1] ++ ty.layout value
  | .seq ty, values => number 4 values.length ++ .each ty.layout values
  | .array ty _, values => .each ty.layout values.val
  | .tuple fields, values => fields.layout values
  | .newtype ty, value => ty.layout value
  | .map key value, entries =>
    number 4 entries.length ++ .each (fun entry => key.layout entry.1 ++ value.layout entry.2) entries
  | .enum variants, value => variants.layout 0 value

def Fields.layout : (fields : Fields) → fields.Val → Layout UInt8
  | .nil, _ => .nothing
  | .cons field rest, (value, values) => field.layout value ++ rest.layout values

def Variant.layout : (variant : Variant) → variant.Val → Layout UInt8
  | .unit, _ => .nothing
  | .newtype inner, value => inner.layout value
  | .tuple fields, values => fields.layout values

def Variants.layout : (variants : Variants) → (index : Nat) → variants.Val → Layout UInt8
  | .nil, _, value => nomatch value
  | .cons variant _, index, .inl value => number 4 index ++ variant.layout value
  | .cons _ rest, index, .inr value => rest.layout (index + 1) value

end

/-- One octet for a char, and lengths that fit their prefixes. -/
def Prim.Within : (prim : Prim) → prim.Val → Prop
  | .char, value => value.toNat ≤ 0xFF
  | .string, value => value.utf8ByteSize < 2 ^ 32 - 1
  | .bytes, value => value.length < 2 ^ 32 - 1
  | _, _ => True

mutual

/-- The values of the data model: their chars are octets, their lengths are
below 2^32 - 1, and the index of a variant is a `u32`, as `serde` has it. -/
def Ty.Within : (ty : Ty) → ty.Val → Prop
  | .prim prim, value => prim.Within value
  | .option _, none => True
  | .option ty, some value => ty.Within value
  | .seq ty, (values : List ty.Val) => values.length < 2 ^ 32 - 1 ∧ ∀ value ∈ values, ty.Within value
  | .array ty _, values => ∀ value ∈ values.val, ty.Within value
  | .tuple fields, values => fields.Within values
  | .newtype ty, value => ty.Within value
  | .map key value, (entries : List (key.Val × value.Val)) =>
    entries.length < 2 ^ 32 - 1 ∧ ∀ entry ∈ entries, key.Within entry.1 ∧ value.Within entry.2
  | .enum variants, value => variants.Within 0 value

def Fields.Within : (fields : Fields) → fields.Val → Prop
  | .nil, _ => True
  | .cons field rest, (value, values) => field.Within value ∧ rest.Within values

def Variant.Within : (variant : Variant) → variant.Val → Prop
  | .unit, _ => True
  | .newtype inner, value => inner.Within value
  | .tuple fields, values => fields.Within values

def Variants.Within : (variants : Variants) → (index : Nat) → variants.Val → Prop
  | .nil, _, value => nomatch value
  | .cons variant _, index, .inl value => index < 2 ^ 32 ∧ variant.Within value
  | .cons _ rest, index, .inr value => rest.Within (index + 1) value

end

end ZenohRos2.Cdr
