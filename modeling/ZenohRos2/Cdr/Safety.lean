import Mathlib.Data.List.Flatten
import ZenohRos2.Cdr.Encoding
import ZenohRos2.Rust.Extent

/-! When the deserializer is safe on any bytes at all.

Nothing in the input is trusted but the lengths of strings and byte strings: the
deserializer adds each of them to its position before it compares the sum with
the end of the input. The extent of a type says which lengths it meets on its way
through an input.
-/

set_option autoImplicit false

namespace ZenohRos2.Cdr
open Rust

section Extents

/-- A number of `width` bytes is read from `pos`: it stands at the next multiple of its width. -/
def NumberAt (buf : Bytes) (width pos n stop : Nat) : Prop :=
  ∃ start, IsLeast {start | pos ≤ start ∧ width ∣ start} start ∧ stop = start + width ∧ stop ≤ buf.length ∧
    n = LittleEndian.value ((buf.take stop).drop start)

def OctetAt (buf : Bytes) (pos : Nat) (octet : UInt8) (stop : Nat) : Prop := buf[pos]? = some octet ∧ stop = pos + 1

def CountAt (buf : Bytes) (pos : Nat) (count : UInt32) (stop : Nat) : Prop := NumberAt buf 4 pos count.toNat stop

variable (buf : Bytes)

def octet : Extent := .given (OctetAt buf) fun _ => .nothing

def flag (unset set : Extent) : Extent :=
  .given (OctetAt buf) fun octet => match octet.toNat with
    | 0 => unset
    | 1 => set
    | _ => .never

def numeral (width : Nat) : Extent := .given (NumberAt buf width) fun _ => .nothing

/-- The last byte of a string is its terminator, whatever its value. -/
def Terminated (part : Bytes) : Prop := (fromUtf8 part.dropLast).isSome

instance : DecidablePred Terminated := fun _ => inferInstanceAs (Decidable (_ = true))

def Prim.extent : Prim → Extent
  | .bool => flag buf .nothing .nothing
  | .i8 | .u8 | .char => octet buf
  | .i16 | .u16 => numeral buf 2
  | .i32 | .u32 | .f32 => numeral buf 4
  | .i64 | .u64 | .f64 => numeral buf 8
  | .string => .given (CountAt buf) fun len => .slice buf Terminated len.toNat
  | .bytes => .given (CountAt buf) fun len => .slice buf (fun _ => True) len.toNat
  | .unit => .nothing

mutual

def Ty.extent : Ty → Extent
  | .prim prim => prim.extent buf
  | .option ty => flag buf .nothing ty.extent
  | .seq ty => .given (CountAt buf) fun len => ty.extent.times len.toNat
  | .array ty length => ty.extent.times length
  | .tuple fields => fields.extent
  | .newtype ty => ty.extent
  | .map key value => .given (CountAt buf) fun len => (key.extent ++ value.extent).times len.toNat
  | .enum variants => .given (CountAt buf) fun idx => variants.extent idx.toNat

def Fields.extent : Fields → Extent
  | .nil => .nothing
  | .cons field rest => field.extent ++ rest.extent

def Variant.extent : Variant → Extent
  | .unit => .nothing
  | .newtype inner => inner.extent
  | .tuple fields => fields.extent

def Variants.extent : Variants → Nat → Extent
  | .nil, _ => .never
  | .cons variant _, 0 => variant.extent
  | .cons _ rest, idx + 1 => rest.extent idx

end

end Extents

section Following
variable [Target] {buf : Bytes}
open CdrDeserializer

omit [Target] in
theorem NumberAt.lt {width pos n stop : Nat} (at_ : NumberAt buf width pos n stop) : n < 256 ^ width := by
  obtain ⟨start, -, rfl, inside, rfl⟩ := at_
  have below := LittleEndian.value_lt ((buf.take (start + width)).drop start)
  rwa [List.length_drop, List.length_take, Nat.min_eq_left inside, Nat.add_sub_cancel_left] at below

theorem readU8_eq (addressable : Addressable buf) {pos : Nat} (inside : pos ≤ buf.length) :
    readU8 ⟨buf, pos⟩ =
      if within : pos < buf.length then .ok (buf[pos], ⟨buf, pos + 1⟩) else .err .bufferUnderflow := by
  have fits := addressable.fits_usize inside (show 1 < 2 ^ 31 by decide)
  have read : readBytes 1 ⟨buf, pos⟩ = _ := take_eq fits
  by_cases within : pos < buf.length
  · rw [if_neg (by omega), List.drop_take_succ_eq_cons_getElem buf pos within] at read
    rw [dif_pos within]
    exact bind_of_ok read
  · rw [if_pos (by omega)] at read
    rw [dif_neg within]
    exact bind_of_err read

theorem finds_readU8 (addressable : Addressable buf) : Finds readU8 buf (OctetAt buf) where
  returns {pos} inside := by
    rw [readU8_eq addressable inside]
    by_cases within : pos < buf.length
    · rw [dif_pos within]
      exact ⟨rfl, within, List.getElem?_eq_getElem within, rfl⟩
    · rw [dif_neg within]
      trivial
  complete {pos value stop} inside := by
    rintro ⟨found, rfl⟩
    obtain ⟨within, rfl⟩ := List.getElem?_eq_some_iff.mp found
    rw [readU8_eq addressable inside, dif_pos within]

theorem align_eq (addressable : Addressable buf) {pos width start : Nat} (inside : pos ≤ buf.length)
    (positive : 0 < width) (small : width < 2 ^ 31) (least : IsLeast {start | pos ≤ start ∧ width ∣ start} start) :
    align width ⟨buf, pos⟩ = if buf.length < start then .err .bufferUnderflow else .ok ((), ⟨buf, start⟩) := by
  have padded := Layout.isLeast_padding (0 : UInt8) positive pos
  have same := Nat.le_antisymm (least.2 padded.1) (padded.2 least.1)
  simp only [Layout.padding, List.length_replicate] at same
  unfold align
  by_cases aligned : pos % width = 0
  · rw [if_pos aligned, Nat.add_zero] at same
    subst same
    rw [if_neg (by simpa using aligned), if_neg (by omega)]
  · rw [if_neg aligned] at same
    subst same
    rw [if_pos aligned, Get.skip, usizeAdd_eq (addressable.fits_usize inside (by omega)), Outcome.ok_bind]

theorem readLe_eq (addressable : Addressable buf) {pos width start : Nat} (inside : pos ≤ buf.length)
    (positive : 0 < width) (small : width < 2 ^ 31) (least : IsLeast {start | pos ≤ start ∧ width ∣ start} start) :
    readLe width ⟨buf, pos⟩ = if buf.length < start + width then .err .bufferUnderflow else
      .ok (LittleEndian.value ((buf.take (start + width)).drop start), ⟨buf, start + width⟩) := by
  have aligned := align_eq addressable inside positive small least
  by_cases behind : buf.length < start
  · rw [if_pos behind] at aligned
    rw [if_pos (by omega)]
    exact bind_of_err aligned
  · rw [if_neg behind] at aligned
    have fits := addressable.fits_usize (Nat.le_of_not_lt behind) small
    have read : readBytes width ⟨buf, start⟩ = _ := take_eq fits
    refine (bind_of_ok aligned).trans ?_
    by_cases ends : buf.length < start + width
    · rw [if_pos ends] at read ⊢
      exact bind_of_err read
    · rw [if_neg ends] at read ⊢
      exact bind_of_ok read

theorem finds_readLe (addressable : Addressable buf) {width : Nat} (positive : 0 < width) (small : width < 2 ^ 31) :
    Finds (readLe width) buf (NumberAt buf width) where
  returns {pos} inside := by
    have least := Layout.isLeast_padding (0 : UInt8) positive pos
    rw [readLe_eq addressable inside positive small least]
    split
    · trivial
    · rename_i within
      exact ⟨rfl, Nat.le_of_not_lt within, _, least, rfl, Nat.le_of_not_lt within, rfl⟩
  complete {pos value stop} inside := by
    rintro ⟨start, least, rfl, within, rfl⟩
    rw [readLe_eq addressable inside positive small least, if_neg (Nat.not_lt.mpr within)]

theorem finds_readU32 (addressable : Addressable buf) : Finds readU32 buf (CountAt buf) :=
  (finds_readLe addressable (by decide) (by decide)).map UInt32.ofNat UInt32.toNat
    (fun at_ => by rwa [CountAt, toNat_ofNat_of_lt at_.lt]) id fun _ => UInt32.ofNat_toNat

theorem follows_readLe (addressable : Addressable buf) {width : Nat} (positive : 0 < width) (small : width < 2 ^ 31) :
    Follows (readLe width) buf (numeral buf width) :=
  (finds_readLe addressable positive small).follows

theorem follows_readU8 (addressable : Addressable buf) : Follows readU8 buf (octet buf) :=
  (finds_readU8 addressable).follows

theorem follows_fail {α : Type} (error : CdrError) : Follows (fail error : De α) buf .never :=
  follows_never fun _ => rfl

theorem follows_flag (addressable : Addressable buf) {α : Type} {unset set : De α} {first second : Extent}
    (one : Follows unset buf first) (two : Follows set buf second) :
    Follows (do
      let v ← readU8
      match v.toNat with
      | 0 => unset
      | 1 => set
      | _ => fail .invalidBool) buf (flag buf first second) := by
  refine (finds_readU8 addressable).bind fun v => ?_
  match v.toNat with
  | 0 => exact one
  | 1 => exact two
  | _ + 2 => exact follows_fail _

theorem follows_deserializeStr (addressable : Addressable buf) :
    Follows deserializeStr buf (.given (CountAt buf) fun len => .slice buf Terminated len.toNat) := by
  refine (finds_readU32 addressable).bind fun len => ?_
  by_cases zero : len.toNat = 0
  · rw [if_pos zero, zero]
    exact follows_slice_zero addressable (by decide) ""
  · rw [if_neg zero]
    have content (part : Bytes) (size : part.length = len.toNat) :
        (sliceRange part 0 (len.toNat - 1) : Outcome CdrError Bytes) = .ok part.dropLast := by
      rw [sliceRange, if_pos ⟨Nat.zero_le _, by omega⟩, List.drop_zero, List.dropLast_eq_take, size]
    refine follows_slice addressable (fun part size decoded => ?_) fun part size malformed => ?_
    · obtain ⟨text, same⟩ := Option.isSome_iff_exists.mp decoded
      exact ⟨text, fun reader => by simp only [content part size, Get.lift_ok_bind, same]; rfl⟩
    · have none := Option.not_isSome_iff_eq_none.mp malformed
      exact ⟨.invalidUtf8, fun reader => by simp only [content part size, Get.lift_ok_bind, none]; rfl⟩

theorem follows_deserializeBytes (addressable : Addressable buf) :
    Follows deserializeBytes buf (.given (CountAt buf) fun len => .slice buf (fun _ => True) len.toNat) := by
  refine (finds_readU32 addressable).bind fun len => ?_
  rw [← bind_pure (readBytes len.toNat)]
  exact follows_slice addressable (fun part _ _ => ⟨part, fun _ => rfl⟩) fun _ _ no => absurd trivial no

theorem Prim.follows (addressable : Addressable buf) : (prim : Prim) → Follows prim.deserialize buf (prim.extent buf)
  | .bool => follows_flag addressable (follows_pure false) (follows_pure true)
  | .i8 => (follows_readU8 addressable).map UInt8.toInt8
  | .u8 => follows_readU8 addressable
  | .char => (follows_readU8 addressable).map Char.ofUInt8
  | .i16 => ((follows_readLe addressable (by decide) (by decide)).map UInt16.ofNat).map UInt16.toInt16
  | .u16 => (follows_readLe addressable (by decide) (by decide)).map UInt16.ofNat
  | .i32 => ((follows_readLe addressable (by decide) (by decide)).map UInt32.ofNat).map UInt32.toInt32
  | .u32 => (follows_readLe addressable (by decide) (by decide)).map UInt32.ofNat
  | .f32 => (follows_readLe addressable (by decide) (by decide)).map UInt32.ofNat
  | .i64 => ((follows_readLe addressable (by decide) (by decide)).map UInt64.ofNat).map UInt64.toInt64
  | .u64 => (follows_readLe addressable (by decide) (by decide)).map UInt64.ofNat
  | .f64 => (follows_readLe addressable (by decide) (by decide)).map UInt64.ofNat
  | .string => follows_deserializeStr addressable
  | .bytes => follows_deserializeBytes addressable
  | .unit => follows_pure ()

omit [Target] in
theorem times_length {α : Type} {get : De α} {n : Nat} {reader after : Reader UInt8} {values : List α}
    (read : Get.times get n reader = .ok (values, after)) : values.length = n := by
  induction n generalizing reader values after with
  | zero =>
    cases read
    rfl
  | succ n ih =>
    obtain ⟨⟨value, middle⟩, -, rest⟩ := Outcome.bind_eq_ok.mp read
    obtain ⟨⟨others, last⟩, more, done⟩ := Outcome.bind_eq_ok.mp rest
    cases done
    exact congrArg (· + 1) (ih more)

mutual

theorem Ty.follows (addressable : Addressable buf) : (ty : Ty) → Follows ty.deserialize buf (ty.extent buf)
  | .prim prim => prim.follows addressable
  | .option ty => follows_flag addressable (follows_pure none) ((ty.follows addressable).map some)
  | .seq ty => (finds_readU32 addressable).bind fun len => follows_times (ty.follows addressable) len.toNat
  | .array ty length => by
    rw [Ty.deserialize, Ty.extent]
    exact (follows_times (ty.follows addressable) length).bind_pure fun _ values _ read =>
      ⟨⟨values, times_length read⟩, dif_pos (times_length read)⟩
  | .tuple fields => fields.follows addressable
  | .newtype ty => ty.follows addressable
  | .map key value => (finds_readU32 addressable).bind fun len => follows_times
      ((key.follows addressable).bind fun _ k _ _ => (value.follows addressable).map fun v => (k, v)) len.toNat
  | .enum variants => by
    change Follows ((readU32 >>= fun idx => pure idx.toNat) >>= fun idx => variants.deserialize idx) _ _
    rw [bind_assoc]
    simp only [pure_bind]
    exact (finds_readU32 addressable).bind fun idx => variants.follows addressable idx.toNat

theorem Fields.follows (addressable : Addressable buf) :
    (fields : Fields) → Follows (fields.deserialize fields.count) buf (fields.extent buf)
  | .nil => follows_pure ()
  | .cons field rest => (field.follows addressable).bind fun _ value _ _ =>
      (rest.follows addressable).map fun values => (value, values)

theorem Variant.follows (addressable : Addressable buf) :
    (variant : Variant) → Follows variant.deserialize buf (variant.extent buf)
  | .unit => follows_pure ()
  | .newtype inner => inner.follows addressable
  | .tuple fields => fields.follows addressable

theorem Variants.follows (addressable : Addressable buf) :
    (variants : Variants) → (idx : Nat) → Follows (variants.deserialize idx) buf (variants.extent buf idx)
  | .nil, _ => follows_fail _
  | .cons variant rest, 0 => (variant.follows addressable).map fun value => (.inl value : variant.Val ⊕ rest.Val)
  | .cons variant rest, idx + 1 =>
    (rest.follows addressable idx).map fun value => (.inr value : variant.Val ⊕ rest.Val)

end

end Following

section Bounds
variable {buf : Bytes} {pos start length : Nat}

/-- Along an extent, the announced slices start in the input and have lengths of 32 bits. -/
def Sized (buf : Bytes) (extent : Extent) : Prop :=
  ∀ pos start length, extent.asks pos start length → start ≤ buf.length ∧ length < 2 ^ 32

theorem sized_given {β : Type} {found : Nat → β → Nat → Prop} {rest : β → Extent}
    (sized : ∀ value, Sized buf (rest value)) : Sized buf (.given found rest) := by
  rintro pos start length ⟨value, middle, -, asks⟩
  exact sized value _ _ _ asks

theorem sized_append {first second : Extent} (one : Sized buf first) (two : Sized buf second) :
    Sized buf (first ++ second) := by
  rintro pos start length (asks | ⟨middle, -, asks⟩)
  · exact one _ _ _ asks
  · exact two _ _ _ asks

theorem sized_times {piece : Extent} (sized : Sized buf piece) (n : Nat) : Sized buf (piece.times n) := by
  induction n with
  | zero => exact fun _ _ _ asks => asks.elim
  | succ n ih => exact sized_append sized ih

theorem sized_slice (valid : Bytes → Prop) :
    Sized buf (.given (CountAt buf) fun len => .slice buf valid len.toNat) := by
  rintro pos start length ⟨len, middle, ⟨_, -, -, inside, -⟩, rfl, rfl⟩
  exact ⟨inside, len.toNat_lt⟩

theorem sized_flag {unset set : Extent} (one : Sized buf unset) (two : Sized buf set) :
    Sized buf (flag buf unset set) := by
  refine sized_given fun octet => ?_
  match octet.toNat with
  | 0 => exact one
  | 1 => exact two
  | _ + 2 => exact fun _ _ _ asks => asks.elim

theorem sized_nothing : Sized buf .nothing := fun _ _ _ asks => asks.elim

theorem Prim.sized : (prim : Prim) → Sized buf (prim.extent buf)
  | .bool => sized_flag sized_nothing sized_nothing
  | .i8 | .u8 | .char | .i16 | .u16 | .i32 | .u32 | .f32 | .i64 | .u64 | .f64 => sized_given fun _ => sized_nothing
  | .string => sized_slice _
  | .bytes => sized_slice _
  | .unit => sized_nothing

mutual

theorem Ty.sized : (ty : Ty) → Sized buf (ty.extent buf)
  | .prim prim => prim.sized
  | .option ty => sized_flag sized_nothing ty.sized
  | .seq ty => sized_given fun _ => sized_times ty.sized _
  | .array ty length => sized_times ty.sized length
  | .tuple fields => fields.sized
  | .newtype ty => ty.sized
  | .map key value => sized_given fun _ => sized_times (sized_append key.sized value.sized) _
  | .enum variants => sized_given fun _ => variants.sized _

theorem Fields.sized : (fields : Fields) → Sized buf (fields.extent buf)
  | .nil => sized_nothing
  | .cons field rest => sized_append field.sized rest.sized

theorem Variant.sized : (variant : Variant) → Sized buf (variant.extent buf)
  | .unit => sized_nothing
  | .newtype inner => inner.sized
  | .tuple fields => fields.sized

theorem Variants.sized : (variants : Variants) → (idx : Nat) → Sized buf (variants.extent buf idx)
  | .nil, _ => fun _ _ _ asks => asks.elim
  | .cons variant _, 0 => variant.sized
  | .cons _ rest, idx + 1 => rest.sized idx

end

end Bounds

section Messages
variable [Target]

/-- Every string and byte string that the type meets in the input, behind its length prefix, ends at a position. -/
def LengthsFit (ty : Ty) (buf : Bytes) : Prop :=
  ∀ start length, (ty.extent buf).asks 0 start length → start + length < usizeSize

/-- The call does not panic, reads nothing behind the input, and fails if a string or byte string that it comes to is
longer than what is left of the input. -/
def DeserializeFromBufSafe (ty : Ty) (buf : Bytes) : Prop :=
  (deserializeFromBuf ty buf).Returns (fun read => read.2 ≤ buf.length) ∧
  ∀ start length, (ty.extent buf).asks 0 start length → buf.length < start + length →
    ∃ error, deserializeFromBuf ty buf = .err error

/-- Positions are counted from behind the header. -/
def DeserializeWithHeaderSafe (ty : Ty) (buf : Bytes) : Prop :=
  (deserializeWithHeader ty buf).Returns (fun read => read.2 ≤ buf.length) ∧
  ∀ start length, (ty.extent (buf.drop 4)).asks 0 start length → buf.length < 4 + (start + length) →
    ∃ error, deserializeWithHeader ty buf = .err error

theorem deserializeFromBuf_safe_iff (ty : Ty) {buf : Bytes} (addressable : Addressable buf) :
    DeserializeFromBufSafe ty buf ↔ LengthsFit ty buf := by
  have body : deserializeFromBuf ty buf = ty.deserialize ⟨buf, 0⟩ >>= fun read => .ok (read.1, read.2.pos) := rfl
  rw [LengthsFit, ← (ty.follows addressable).safe_iff (Nat.zero_le _), DeserializeFromBufSafe, body,
    Outcome.returns_bind]
  have goesOn (read : ty.Val × Reader UInt8) (error : CdrError) :
      (.ok (read.1, read.2.pos) : Outcome CdrError (ty.Val × Nat)) ≠ .err error := nofun
  simp only [Outcome.bind_eq_err goesOn]
  exact Iff.rfl

theorem deserializeWithHeader_safe_iff (ty : Ty) {buf : Bytes} (addressable : Addressable buf) :
    DeserializeWithHeaderSafe ty buf ↔ (4 ≤ buf.length → buf.take 2 = [0x00, 0x01] → LengthsFit ty (buf.drop 4)) := by
  unfold DeserializeWithHeaderSafe deserializeWithHeader
  by_cases short : buf.length < 4
  · rw [if_pos short]
    exact iff_of_true ⟨trivial, fun _ _ _ _ => ⟨_, rfl⟩⟩ fun long => absurd short (Nat.not_lt.mpr long)
  by_cases other : buf.take 2 ≠ [0x00, 0x01]
  · rw [if_neg short, if_pos other]
    exact iff_of_true ⟨trivial, fun _ _ _ _ => ⟨_, rfl⟩⟩ fun _ same => absurd same other
  have header : buf.take 2 = [0x00, 0x01] := Classical.not_not.mp other
  have long : 4 ≤ buf.length := Nat.le_of_not_lt short
  rw [if_neg short, if_neg other, forall_prop_of_true long, forall_prop_of_true header,
    ← deserializeFromBuf_safe_iff ty (addressable.drop 4), DeserializeFromBufSafe, List.length_drop,
    Outcome.returns_bind]
  have goesOn (read : ty.Val × Nat) (error : CdrError) : (do
      let n ← usizeAdd 4 read.2
      .ok (read.1, n) : Outcome CdrError (ty.Val × Nat)) ≠ .err error := by
    unfold usizeAdd
    split <;> nofun
  have within : buf.length + 0 < usizeSize := addressable.lt_usizeSize (Nat.le_refl _) (Nat.zero_le _)
  refine and_congr (Outcome.returns_congr fun read _ => ?_) ?_
  · obtain ⟨value, n⟩ := read
    simp only [Outcome.returns_bind, returns_usizeAdd, Outcome.returns_ok]
    omega
  · simp only [Outcome.bind_eq_err goesOn]
    refine forall₂_congr fun start length => imp_congr_right fun _ => ?_
    rw [show buf.length < 4 + (start + length) ↔ buf.length - 4 < start + length by omega]

theorem lengthsFit_of_wide (wide : Target.pointerWidth = 64) (ty : Ty) {buf : Bytes} (addressable : Addressable buf) :
    LengthsFit ty buf := by
  intro start length asks
  obtain ⟨inside, short⟩ := ty.sized _ _ _ asks
  have bound : buf.length ≤ isizeMax := addressable
  rw [isizeMax, wide] at bound
  rw [usizeSize, wide]
  omega

/-- Both deserializers are safe on exactly the inputs in which no length makes them leave `usize`: on every input
with 64-bit pointers, but not with 32-bit ones. -/
theorem deserialize_safe_iff (ty : Ty) {buf : Bytes} (addressable : Addressable buf) :
    (DeserializeFromBufSafe ty buf ↔ LengthsFit ty buf) ∧
    (DeserializeWithHeaderSafe ty buf ↔
      (4 ≤ buf.length → buf.take 2 = [0x00, 0x01] → LengthsFit ty (buf.drop 4))) ∧
    (Target.pointerWidth = 64 → LengthsFit ty buf ∧ LengthsFit ty (buf.drop 4)) :=
  ⟨deserializeFromBuf_safe_iff ty addressable, deserializeWithHeader_safe_iff ty addressable,
    fun wide => ⟨lengthsFit_of_wide wide ty addressable, lengthsFit_of_wide wide ty (addressable.drop 4)⟩⟩

omit [Target] in
/-- Four bytes that announce `u32::MAX` more. -/
theorem deserialize_safe_iff_longest :
    @DeserializeFromBufSafe target64 (.prim .string) [0xFF, 0xFF, 0xFF, 0xFF] ∧
    ¬@LengthsFit target32 (.prim .string) [0xFF, 0xFF, 0xFF, 0xFF] := by
  constructor
  · let := target64
    obtain ⟨safe, -, wide⟩ := deserialize_safe_iff (.prim .string) (show Addressable [0xFF, 0xFF, 0xFF, 0xFF] from
      le_isizeMax (by decide))
    exact safe.mpr (wide rfl).1
  · let := target32
    intro fit
    obtain ⟨safe, -, -⟩ := deserialize_safe_iff (.prim .string) (show Addressable [0xFF, 0xFF, 0xFF, 0xFF] from
      le_isizeMax (by decide))
    exact (safe.mpr fit).1

omit [Target] in
/-- The length `u32::MAX` overflows the position where `usize` has 32 bits, with and without a header. -/
theorem deserialize_not_safe :
    ¬(∀ (target : Target) (ty : Ty) (buf : Bytes), @Addressable target _ buf →
      @DeserializeFromBufSafe target ty buf ∧ @DeserializeWithHeaderSafe target ty buf) ∧
    @deserializeFromBuf target32 (.prim .string) [0xFF, 0xFF, 0xFF, 0xFF] = .panic .overflow ∧
    @deserializeWithHeader target32 (.prim .bytes) [0, 1, 0, 0, 0xFF, 0xFF, 0xFF, 0xFF] = .panic .overflow := by
  have overflow : @deserializeFromBuf target32 (.prim .string) [0xFF, 0xFF, 0xFF, 0xFF] = .panic .overflow := rfl
  refine ⟨fun safe => ?_, overflow, rfl⟩
  have returned := (safe target32 (.prim .string) [0xFF, 0xFF, 0xFF, 0xFF] (by decide +kernel)).1.1
  rw [overflow] at returned
  exact returned

end Messages
end ZenohRos2.Cdr
