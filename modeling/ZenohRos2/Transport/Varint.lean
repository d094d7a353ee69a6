import ZenohRos2.Transport.Decoding

/-! Which byte strings are numbers on the wire, and which of them are decoded as such.

A group of up to ten bytes denotes a natural number, which may need up to
seventy bits. The decoder shifts the tenth byte by 63, so that it keeps one bit of it.
-/

set_option autoImplicit false

namespace ZenohRos2
open Rust

/-- The first byte below 0x80 is the last of the first `n` bytes. -/
structure GroupOf (buf : Bytes) (n : Nat) : Prop where
  last : ∃ byte, 0 < n ∧ buf[n - 1]? = some byte ∧ byte.toNat < 0x80
  front : ∀ byte ∈ buf.take (n - 1), 0x80 ≤ byte.toNat

def groupValue (buf : Bytes) (n : Nat) : Nat :=
  ((List.range n).map fun i => (buf.getD i 0).toNat % 128 * 128 ^ i).sum

theorem GroupOf.split {buf : Bytes} {n : Nat} (group : GroupOf buf n) :
    ∃ front last, buf.take n = front ++ [last] ∧ front.length + 1 = n ∧ buf[n - 1]? = some last ∧
      front = buf.take (n - 1) := by
  obtain ⟨byte, positive, found, -⟩ := group.last
  have inside := (List.getElem?_eq_some_iff.mp found).1
  refine ⟨buf.take (n - 1), byte, ?_, by rw [List.length_take]; omega, found, rfl⟩
  obtain ⟨m, rfl⟩ := Nat.exists_eq_add_of_lt positive
  rw [Nat.zero_add, Nat.add_sub_cancel] at found ⊢
  rw [List.take_add_one, found]
  rfl

theorem groupOf_iff {buf : Bytes} {n : Nat} :
    GroupOf buf n ↔ Leb128.Word (buf.take n) ∧ n ≤ buf.length := by
  constructor
  · intro group
    obtain ⟨front, last, same, length, found, rfl⟩ := group.split
    obtain ⟨byte, -, here, low⟩ := group.last
    rw [found] at here
    cases here
    have inside := (List.getElem?_eq_some_iff.mp found).1
    rw [same]
    exact ⟨Leb128.word_concat.mpr ⟨group.front, low⟩, by omega⟩
  · rintro ⟨word, inside⟩
    have positive := word.length_pos
    rw [List.length_take] at positive
    obtain ⟨m, rfl⟩ := Nat.exists_eq_add_of_lt (show 0 < n by omega)
    rw [Nat.zero_add] at word inside ⊢
    have found : buf[m]? = some buf[m] := List.getElem?_eq_getElem (by omega)
    rw [List.take_add_one, found] at word
    obtain ⟨high, low⟩ := Leb128.word_concat.mp word
    exact ⟨⟨buf[m], Nat.succ_pos m, found, low⟩, high⟩

theorem groupValue_eq {buf : Bytes} {n : Nat} (inside : n ≤ buf.length) : groupValue buf n = Leb128.value (buf.take n) := by
  have length : (buf.take n).length = n := by
    rw [List.length_take]
    omega
  rw [Leb128.value_eq_sum, length, groupValue]
  congr 1
  apply List.map_congr_left
  intro i member
  have below := List.mem_range.mp member
  rw [List.getD_eq_getElem?_getD, List.getD_eq_getElem?_getD, List.getElem?_take_of_lt below]

theorem vbyteAt_iff {buf : Bytes} {value : UInt64} {n : Nat} :
    VbyteAt buf 0 value n ↔ GroupOf buf n ∧ n ≤ 10 ∧ value = UInt64.ofNat (groupValue buf n) := by
  constructor
  · rintro ⟨bytes, rest, same, word, short, number, finish⟩
    simp only [List.drop_zero, Nat.zero_add] at same finish
    subst same finish
    have inside : bytes.length ≤ (bytes ++ rest).length := by simp
    rw [groupValue_eq inside, groupOf_iff, List.take_left]
    exact ⟨⟨word, inside⟩, short, number⟩
  · rintro ⟨group, short, number⟩
    obtain ⟨word, inside⟩ := groupOf_iff.mp group
    have length : (buf.take n).length = n := by
      rw [List.length_take]
      omega
    refine ⟨buf.take n, buf.drop n, (List.take_append_drop n buf).symm, word, by omega, ?_, by omega⟩
    rw [number, groupValue_eq inside]

theorem GroupOf.groupValue_lt_iff {buf : Bytes} {n : Nat} (group : GroupOf buf n) (short : n ≤ 10) :
    groupValue buf n < 2 ^ 64 ↔ (n = 10 → ∀ last, buf[9]? = some last → last.toNat < 2) := by
  obtain ⟨front, last, same, length, found, -⟩ := group.split
  obtain ⟨byte, -, here, low⟩ := group.last
  rw [found] at here
  cases here
  have inside := (groupOf_iff.mp group).2
  have bound := Leb128.value_lt front
  rw [groupValue_eq inside, same, Leb128.value_concat, Nat.mod_eq_of_lt low]
  by_cases whole : n = 10
  · subst whole
    have nine : front.length = 9 := by omega
    rw [nine] at bound ⊢
    simp only [found, Option.some.injEq, forall_eq', true_implies]
    omega
  · apply iff_of_true ?_ fun ten => absurd ten whole
    calc Leb128.value front + 128 ^ front.length * last.toNat
        < 128 ^ front.length * (last.toNat + 1) := by
          rw [Nat.mul_add, Nat.mul_one]
          omega
      _ ≤ 128 ^ 8 * 128 := Nat.mul_le_mul (Nat.pow_le_pow_right (by decide) (by omega)) low
      _ ≤ 2 ^ 64 := by decide

section Decode
variable [Target]

/-- The decoder finds the number that the buffer denotes, and rejects a buffer that denotes none of 64 bits. -/
structure DecodesExactly (buf : Bytes) : Prop where
  found : ∀ (value : UInt64) (n : Nat), decodeVbyte buf = .ok (value, n) ↔
    GroupOf buf n ∧ groupValue buf n < 2 ^ 64 ∧ n ≤ 10 ∧ value.toNat = groupValue buf n
  rejected : (∀ n, ¬(GroupOf buf n ∧ groupValue buf n < 2 ^ 64 ∧ n ≤ 10)) → decodeVbyte buf = .err .invalidEncoding

theorem decodeVbyte_eq_ok {buf : Bytes} {value : UInt64} {n : Nat} :
    decodeVbyte buf = .ok (value, n) ↔ VbyteAt buf 0 value n := by
  have computes := computes_decodeVbyte buf
  refine ⟨fun decoded => ?_, computes.found (value, n)⟩
  by_cases other : ∃ read : UInt64 × Nat, VbyteAt buf 0 read.1 read.2
  · obtain ⟨read, found⟩ := other
    rw [computes.found read found] at decoded
    cases decoded
    exact found
  · obtain ⟨error, failed⟩ := computes.missing (not_exists.mp other)
    rw [failed] at decoded
    cases decoded

theorem decodeVbyte_rejects {buf : Bytes} (none : ∀ n, GroupOf buf n → 10 < n) :
    decodeVbyte buf = .err .invalidEncoding := by
  refine decodeVbyteLoop_no_word buf 0 (by decide) fun bytes rest same word => ?_
  have inside : bytes.length ≤ buf.length := by simp [same]
  have long := none bytes.length (groupOf_iff.mpr ⟨by rwa [same, List.take_left], inside⟩)
  omega

/-- A byte string is decoded to the number that it denotes, and rejected if that has more than 64 bits,
unless it is a group of ten bytes that ends with a byte above 1. -/
theorem decodeVbyte_exact_iff (buf : Bytes) :
    DecodesExactly buf ↔ (GroupOf buf 10 → ∀ last, buf[9]? = some last → last.toNat < 2) := by
  constructor
  · intro exact_ ten
    have decoded := decodeVbyte_eq_ok.mpr (vbyteAt_iff.mpr ⟨ten, Nat.le_refl _, rfl⟩)
    have small := ((exact_.found _ _).mp decoded).2.1
    exact (ten.groupValue_lt_iff (Nat.le_refl _)).mp small rfl
  · intro kept
    have fits {n : Nat} (group : GroupOf buf n) (short : n ≤ 10) : groupValue buf n < 2 ^ 64 :=
      (group.groupValue_lt_iff short).mpr fun ten => kept (ten ▸ group)
    constructor
    · intro value n
      rw [decodeVbyte_eq_ok, vbyteAt_iff]
      constructor
      · rintro ⟨group, short, rfl⟩
        refine ⟨group, fits group short, short, ?_⟩
        rw [UInt64.toNat_ofNat', Nat.mod_eq_of_lt (fits group short)]
      · rintro ⟨group, -, short, number⟩
        refine ⟨group, short, ?_⟩
        rw [← number, UInt64.ofNat_toNat]
    · intro none
      apply decodeVbyte_rejects
      intro n group
      apply Nat.lt_of_not_le
      intro short
      exact none n ⟨group, fits group short, short⟩

omit [Target] in
/-- Ten bytes that denote 2^64 are decoded to 0. -/
theorem decodeVbyte_drops_bits :
    letI := target64
    let buf : Bytes := [0x80, 0x80, 0x80, 0x80, 0x80, 0x80, 0x80, 0x80, 0x80, 0x02]
    GroupOf buf 10 ∧ groupValue buf 10 = 2 ^ 64 ∧ decodeVbyte buf = .ok (0, 10) ∧ ¬DecodesExactly buf := by
  let := target64
  intro buf
  have group : GroupOf buf 10 := ⟨⟨2, by decide, rfl, by decide +kernel⟩, by decide +kernel⟩
  have decoded : decodeVbyte buf = .ok (0, 10) := by decide
  refine ⟨group, by decide, decoded, fun exact_ => ?_⟩
  have small := ((exact_.found 0 10).mp decoded).2.1
  revert small
  decide

end Decode

section Encode

theorem vbyte_length_least (value : UInt64) {groups : Nat} (positive : 1 ≤ groups)
    (small : value.toNat < 128 ^ groups) : (vbyte value).length ≤ groups := by
  obtain ⟨more, rfl⟩ := Nat.exists_eq_add_of_le' positive
  exact vbyte_length_le_of_lt small

theorem lt_pow_vbyte_length (value : UInt64) : value.toNat < 128 ^ (vbyte value).length := by
  have bound := Leb128.value_lt (vbyte value)
  rwa [vbyte, Leb128.value_encode] at bound

variable [Target]

theorem decodeVbyte_vbyte (value : UInt64) (rest : Bytes) :
    decodeVbyte (vbyte value ++ rest) = .ok (value, (vbyte value).length) := by
  have found := VbyteAt.of_drop (@List.drop_zero _ (vbyte value ++ rest))
  rw [Nat.zero_add] at found
  exact decodeVbyte_eq_ok.mpr found

theorem lt_of_decodeVbyte {bytes : Bytes} {value : UInt64} {n : Nat} (decoded : decodeVbyte bytes = .ok (value, n)) :
    n ≤ bytes.length ∧ 1 ≤ n ∧ value.toNat < 128 ^ n := by
  obtain ⟨word, -, number⟩ := vbyteAt_iff.mp (decodeVbyte_eq_ok.mp decoded)
  obtain ⟨group, inside⟩ := groupOf_iff.mp word
  have length : (bytes.take n).length = n := by
    rw [List.length_take]
    omega
  have bound := Leb128.value_lt (bytes.take n)
  rw [length, ← groupValue_eq inside] at bound
  refine ⟨inside, length ▸ group.length_pos, ?_⟩
  rw [number, UInt64.toNat_ofNat']
  exact Nat.lt_of_le_of_lt (Nat.mod_le _ _) bound

/-- A number is written to the least count of groups that holds it, is decoded from these whatever follows, and from
no fewer bytes. -/
theorem encodeVbyte_shortest (value : UInt64) :
    ∃ bytes : Bytes,
      (1 ≤ bytes.length ∧ value.toNat < 128 ^ bytes.length ∧
        ∀ n, 1 ≤ n → value.toNat < 128 ^ n → bytes.length ≤ n) ∧
      bytes.length ≤ 10 ∧
      (∀ buf : Bytes, Addressable buf → bytes.length ≤ buf.length →
        encodeVbyte value buf = .ok (bytes.length, bytes ++ buf.drop bytes.length)) ∧
      (∀ rest : Bytes, decodeVbyte (bytes ++ rest) = .ok (value, bytes.length)) ∧
      ∀ (short : Bytes) (n : Nat), short.length < bytes.length → decodeVbyte short ≠ .ok (value, n) := by
  refine ⟨vbyte value, ⟨vbyte_length_pos value, lt_pow_vbyte_length value, fun n => vbyte_length_least value⟩,
    vbyte_length_le value, fun buf addressable fits => (encodes_encodeVbyte value).eq_ok addressable fits,
    decodeVbyte_vbyte value, ?_⟩
  intro short n shorter decoded
  obtain ⟨inside, positive, bound⟩ := lt_of_decodeVbyte decoded
  have least := vbyte_length_least value positive bound
  omega

end Encode
end ZenohRos2
