import ZenohRos2.Transport.Encoding

/-! What the readers find at a position.

`VbyteAt` says what the decoders take for the number at a position of a buffer,
in terms of the bytes alone: the readers are specified by it. The number that the
bytes denote, of up to seventy bits, is that of `NumberAt`.
-/

set_option autoImplicit false

namespace ZenohRos2
open Rust

/-- A varint of at most ten bytes stands at `pos` and ends at `stop`. Of a
ten-byte word only the low bit of the last group is kept. -/
structure VbyteAt (buf : Bytes) (pos : Nat) (value : UInt64) (stop : Nat) : Prop where
  word : ∃ bytes rest, buf.drop pos = bytes ++ rest ∧ Leb128.Word bytes ∧ bytes.length ≤ 10 ∧
    value = UInt64.ofNat (Leb128.value bytes) ∧ stop = pos + bytes.length

namespace VbyteAt
variable {buf : Bytes} {pos stop : Nat} {value : UInt64}

theorem bounds (found : VbyteAt buf pos value stop) : pos < stop ∧ stop ≤ buf.length := by
  obtain ⟨bytes, rest, same, word, -, -, rfl⟩ := found
  have length := congrArg List.length same
  simp only [List.length_drop, List.length_append] at length
  have positive := word.length_pos
  omega

theorem unique {other : UInt64} {stop' : Nat} (left : VbyteAt buf pos value stop)
    (right : VbyteAt buf pos other stop') : value = other ∧ stop = stop' := by
  obtain ⟨bytes, rest, same, word, -, rfl, rfl⟩ := left
  obtain ⟨bytes', rest', same', word', -, rfl, rfl⟩ := right
  obtain ⟨rfl, -⟩ := word.eq_of_append word' (same.symm.trans same')
  exact ⟨rfl, rfl⟩

theorem of_drop {rest : Bytes} (same : buf.drop pos = vbyte value ++ rest) :
    VbyteAt buf pos value (pos + (vbyte value).length) :=
  ⟨vbyte value, rest, same, Leb128.word_encode _, vbyte_length_le value,
    by rw [vbyte, Leb128.value_encode, UInt64.ofNat_toNat], rfl⟩

theorem drop_iff : VbyteAt (buf.drop pos) 0 value stop ↔ VbyteAt buf pos value (pos + stop) := by
  constructor
  · rintro ⟨bytes, rest, same, word, short, number, rfl⟩
    exact ⟨bytes, rest, by simpa using same, word, short, number, by omega⟩
  · rintro ⟨bytes, rest, same, word, short, number, finish⟩
    exact ⟨bytes, rest, by simpa using same, word, short, number, by omega⟩

end VbyteAt

/-- A varint of at most ten bytes stands at `pos`, denotes `n` and ends at `stop`. -/
structure NumberAt (buf : Bytes) (pos n stop : Nat) : Prop where
  word : ∃ bytes rest, buf.drop pos = bytes ++ rest ∧ Leb128.Word bytes ∧ bytes.length ≤ 10 ∧
    n = Leb128.value bytes ∧ stop = pos + bytes.length

section Numbers
variable {buf : Bytes} {pos n stop : Nat}

theorem NumberAt.vbyteAt (number : NumberAt buf pos n stop) : VbyteAt buf pos (UInt64.ofNat n) stop := by
  obtain ⟨bytes, rest, same, word, short, rfl, finish⟩ := number
  exact ⟨bytes, rest, same, word, short, rfl, finish⟩

theorem VbyteAt.exists_numberAt {value : UInt64} (found : VbyteAt buf pos value stop) :
    ∃ n, NumberAt buf pos n stop ∧ value = UInt64.ofNat n := by
  obtain ⟨bytes, rest, same, word, short, number, finish⟩ := found
  exact ⟨_, ⟨bytes, rest, same, word, short, rfl, finish⟩, number⟩

theorem NumberAt.unique {m stop' : Nat} (one : NumberAt buf pos n stop) (two : NumberAt buf pos m stop') :
    n = m ∧ stop = stop' := by
  obtain ⟨bytes, rest, same, word, -, rfl, rfl⟩ := one
  obtain ⟨bytes', rest', same', word', -, rfl, rfl⟩ := two
  obtain ⟨rfl, -⟩ := word.eq_of_append word' (same.symm.trans same')
  exact ⟨rfl, rfl⟩

end Numbers

private theorem low_group (byte : UInt8) : (byte &&& 0x7F).toNat = byte.toNat % 128 := by
  revert byte
  apply forall_uint8
  decide +kernel

theorem last_group_iff (byte : UInt8) : byte &&& 0x80 = 0 ↔ byte.toNat < 128 := by
  revert byte
  apply forall_uint8
  decide +kernel

theorem group_step {value : UInt64} {shift : Nat} (bound : value.toNat < 2 ^ shift) (small : shift < 64)
    (byte : UInt8) :
    value ||| ((byte &&& 0x7F).toUInt64 <<< UInt64.ofNat shift) =
      UInt64.ofNat (value.toNat + 2 ^ shift * (byte.toNat % 128)) := by
  apply UInt64.toNat_inj.mp
  have amount : (UInt64.ofNat shift).toNat % 64 = shift := by
    rw [UInt64.toNat_ofNat']
    omega
  rw [UInt64.toNat_or, UInt64.toNat_shiftLeft, UInt8.toNat_toUInt64, low_group, amount, UInt64.toNat_ofNat',
    Nat.shiftLeft_eq]
  have room : 2 ^ 64 = 2 ^ shift * 2 ^ (64 - shift) := by
    rw [← Nat.pow_add]
    congr 1
    omega
  rw [Nat.mul_comm (byte.toNat % 128), room, Nat.mul_mod_mul_left, Nat.or_comm,
    ← Nat.two_pow_add_eq_or_of_lt bound, ← room]
  have fits : value.toNat + 2 ^ shift * (byte.toNat % 128 % 2 ^ (64 - shift)) < 2 ^ 64 := by
    have group : byte.toNat % 128 % 2 ^ (64 - shift) < 2 ^ (64 - shift) := Nat.mod_lt _ (Nat.two_pow_pos _)
    calc value.toNat + 2 ^ shift * (byte.toNat % 128 % 2 ^ (64 - shift))
        < 2 ^ shift * (byte.toNat % 128 % 2 ^ (64 - shift) + 1) := by
          rw [Nat.mul_add, Nat.mul_one]
          omega
      _ ≤ 2 ^ shift * 2 ^ (64 - shift) := Nat.mul_le_mul_left _ group
      _ = 2 ^ 64 := room.symm
  rw [Nat.add_comm, ← Nat.mod_eq_of_lt fits, Nat.add_mod, Nat.add_mod value.toNat (2 ^ shift * _), room,
    Nat.mul_mod_mul_left, Nat.mul_mod_mul_left, Nat.mod_mod]

section Vbyte
variable [Target]

theorem decodeVbyteLoop_word {bytes : Bytes} (word : Leb128.Word bytes) (rest : Bytes) {value : UInt64}
    {shift i : Nat} (bound : value.toNat < 2 ^ shift) (short : shift + 7 * bytes.length ≤ 70)
    (inside : i + bytes.length < usizeSize) :
    decodeVbyteLoop value shift i (bytes ++ rest) =
      .ok (UInt64.ofNat (value.toNat + 2 ^ shift * Leb128.value bytes), i + bytes.length) := by
  induction word generalizing value shift i with
  | @last group low =>
    simp only [List.length_singleton] at short inside
    rw [List.singleton_append, decodeVbyteLoop, u64Shl, if_pos (by omega), Outcome.ok_bind,
      if_pos ((last_group_iff group).mpr low), usizeAdd_eq inside, Outcome.ok_bind,
      group_step bound (by omega)]
    simp [Leb128.value]
  | @more group tail high word ih =>
    simp only [List.length_cons] at short inside
    have positive := word.length_pos
    -- The accumulator fills the bits below the shift, so the group joins it without overlap.
    have grown : value.toNat + 2 ^ shift * (group.toNat % 128) < 2 ^ (shift + 7) := by
      rw [Nat.pow_add]
      calc value.toNat + 2 ^ shift * (group.toNat % 128)
          < 2 ^ shift * (group.toNat % 128 + 1) := by rw [Nat.mul_add, Nat.mul_one]; omega
        _ ≤ 2 ^ shift * 2 ^ 7 := Nat.mul_le_mul_left _ (by omega)
    have next : (UInt64.ofNat (value.toNat + 2 ^ shift * (group.toNat % 128))).toNat =
        value.toNat + 2 ^ shift * (group.toNat % 128) := by
      rw [UInt64.toNat_ofNat']
      exact Nat.mod_eq_of_lt (Nat.lt_of_lt_of_le grown (Nat.pow_le_pow_right (by decide) (by omega)))
    have step := ih (next.symm ▸ grown) (by omega) (by omega : i + 1 + tail.length < usizeSize)
    rw [List.cons_append, decodeVbyteLoop, u64Shl, if_pos (by omega), Outcome.ok_bind,
      if_neg (by rw [last_group_iff]; omega), u32Add, if_pos (by omega), Outcome.ok_bind,
      if_neg (by omega), group_step bound (by omega), step, next]
    simp only [Leb128.value, List.length_cons, Nat.pow_add, Nat.mul_add]
    congr 2
    · congr 1
      have regroup : 2 ^ shift * 2 ^ 7 * Leb128.value tail = 2 ^ shift * (128 * Leb128.value tail) :=
        Nat.mul_assoc (2 ^ shift) (2 ^ 7) _
      omega
    · omega

theorem decodeVbyteLoop_no_word (buf : Bytes) {value : UInt64} {shift : Nat} (i : Nat) (small : shift < 64)
    (none : ∀ bytes rest, buf = bytes ++ rest → Leb128.Word bytes → 70 < shift + 7 * bytes.length) :
    decodeVbyteLoop value shift i buf = .err .invalidEncoding := by
  induction buf generalizing value shift i with
  | nil => rfl
  | cons byte buf ih =>
    rw [decodeVbyteLoop, u64Shl, if_pos small, Outcome.ok_bind]
    by_cases low : byte.toNat < 128
    -- A low byte would have ended a word that is short enough.
    · have short := none [byte] buf rfl (.last low)
      simp only [List.length_singleton] at short
      omega
    · rw [if_neg (by rwa [last_group_iff]), u32Add, if_pos (by omega), Outcome.ok_bind]
      by_cases past : shift + 7 ≥ 64
      · rw [if_pos past]
      · rw [if_neg past]
        apply ih (i + 1) (by omega)
        intro bytes rest same word
        have long := none (byte :: bytes) rest (by rw [same]; rfl) (.more (by omega) word)
        simp only [List.length_cons] at long
        omega

theorem computes_decodeVbyte (buf : Bytes) :
    (decodeVbyte buf).Computes fun read => VbyteAt buf 0 read.1 read.2 where
  found := by
    rintro ⟨value, stop⟩ ⟨bytes, rest, same, word, short, number, finish⟩
    simp only [List.drop_zero] at same number finish
    subst same number finish
    have room : 0 + bytes.length < usizeSize := by
      have large : bytes.length ≤ isizeMax := le_isizeMax (by omega)
      rw [usizeSize_eq]
      omega
    rw [decodeVbyte, decodeVbyteLoop_word word rest (by decide) (by omega) room]
    simp
  missing := by
    intro none
    refine ⟨.invalidEncoding, decodeVbyteLoop_no_word buf 0 (by decide) fun bytes rest same word => ?_⟩
    by_cases short : bytes.length ≤ 10
    · exact absurd ⟨bytes, rest, same, word, short, rfl, rfl⟩ (none (_, _))
    · omega

theorem computes_readVbyte {buf : Bytes} {pos : Nat} (addressable : Addressable buf)
    (inside : pos ≤ buf.length) :
    (readVbyte buf pos).Computes fun read => VbyteAt buf pos read.1 read.2 := by
  have decoded := computes_decodeVbyte (buf.drop pos)
  refine ⟨?_, ?_⟩
  · rintro ⟨value, stop⟩ found
    have bounds := found.bounds
    simp only at found bounds
    have split : stop = pos + (stop - pos) := by omega
    rw [split] at found
    rw [readVbyte, sliceFrom_eq inside, Outcome.ok_bind,
      decoded.found (value, stop - pos) (VbyteAt.drop_iff.mpr found), Outcome.ok_bind]
    change (usizeAdd pos (stop - pos) >>= fun pos => Outcome.ok (value, pos)) = _
    rw [usizeAdd_eq (addressable.lt_usizeSize inside (by omega)), Outcome.ok_bind, ← split]
  · intro none
    obtain ⟨error, failed⟩ := decoded.missing fun read found =>
      none (read.1, pos + read.2) (VbyteAt.drop_iff.mp found)
    exact ⟨error, by rw [readVbyte, sliceFrom_eq inside, Outcome.ok_bind, failed, Outcome.err_bind]⟩

theorem returns_readVbyte {buf : Bytes} {pos : Nat} (addressable : Addressable buf)
    (inside : pos ≤ buf.length) (post : UInt64 × Nat → Prop) :
    (readVbyte buf pos).Returns post ↔ ∀ value stop, VbyteAt buf pos value stop → post (value, stop) := by
  rw [(computes_readVbyte addressable inside).returns_iff]
  exact Prod.forall

theorem readVbyte_eq {buf : Bytes} {pos stop : Nat} {value : UInt64} (addressable : Addressable buf)
    (found : VbyteAt buf pos value stop) : readVbyte buf pos = .ok (value, stop) := by
  have bounds := found.bounds
  exact (computes_readVbyte addressable (by omega)).found (value, stop) found

end Vbyte

section Slice
variable [Target]

/-- What `decode_slice` makes of a header that ends at `start`, when it began at `pos`. -/
def sliceAfter (buf : Bytes) (pos start : Nat) (len : UInt64) : Decode (Bytes × Nat) :=
  if start - pos + asUsize len < usizeSize then
    if start + asUsize len ≤ buf.length then
      .ok ((buf.drop start).take (asUsize len), start + asUsize len)
    else .err .invalidEncoding
  else .panic .overflow

theorem decodeSlice_eq {buf : Bytes} {start : Nat} {len : UInt64} (found : VbyteAt buf 0 len start) :
    decodeSlice buf = sliceAfter buf 0 start len := by
  rw [decodeSlice, (computes_decodeVbyte buf).found (len, start) found, Outcome.ok_bind, sliceAfter]
  change (usizeAdd start (asUsize len) >>= _) = _
  unfold usizeAdd
  by_cases fits : start + asUsize len < usizeSize
  · rw [if_pos fits, if_pos (by simpa using fits), Outcome.ok_bind]
    by_cases inside : start + asUsize len ≤ buf.length
    · rw [if_neg (by omega), if_pos inside, sliceRange, if_pos ⟨by omega, inside⟩, Outcome.ok_bind,
        List.drop_take, Nat.add_sub_cancel_left]
    · rw [if_pos (by omega), if_neg inside]
  · rw [if_neg fits, if_neg (by simpa using fits), Outcome.panic_bind]

theorem readSlice_eq {buf : Bytes} {pos start : Nat} {len : UInt64} (addressable : Addressable buf)
    (found : VbyteAt buf pos len start) : readSlice buf pos = sliceAfter buf pos start len := by
  have bounds := found.bounds
  have split : start = pos + (start - pos) := by omega
  have inner : VbyteAt (buf.drop pos) 0 len (start - pos) := VbyteAt.drop_iff.mpr (split ▸ found)
  rw [readSlice, sliceFrom_eq (by omega), Outcome.ok_bind, decodeSlice_eq inner, sliceAfter, sliceAfter,
    Nat.sub_zero]
  by_cases fits : start - pos + asUsize len < usizeSize
  · rw [if_pos fits, if_pos fits, List.length_drop, List.drop_drop, ← split]
    by_cases inside : start + asUsize len ≤ buf.length
    · rw [if_pos (by omega), if_pos inside, Outcome.ok_bind]
      change (usizeAdd pos (start - pos + asUsize len) >>= _) = _
      rw [usizeAdd_eq (addressable.lt_usizeSize (by omega) (by omega)), Outcome.ok_bind,
        show pos + (start - pos + asUsize len) = start + asUsize len by omega]
    · rw [if_neg (by omega), if_neg inside, Outcome.err_bind]
  · rw [if_neg fits, if_neg fits, Outcome.panic_bind]

-- Two cases: a length stands at the position, or the reader fails before it looks at a slice.
theorem returns_readSlice {buf : Bytes} {pos : Nat} (addressable : Addressable buf)
    (inside : pos ≤ buf.length) (post : Bytes × Nat → Prop) :
    (readSlice buf pos).Returns post ↔
      ∀ len start, VbyteAt buf pos len start → (sliceAfter buf pos start len).Returns post := by
  have computes := computes_readVbyte addressable inside
  by_cases exists_ : ∃ len start, VbyteAt buf pos len start
  · obtain ⟨len, start, found⟩ := exists_
    rw [readSlice_eq addressable found]
    refine ⟨fun returns other start' found' => ?_, fun all => all len start found⟩
    obtain ⟨rfl, rfl⟩ := found.unique found'
    exact returns
  · obtain ⟨error, failed⟩ := (computes_decodeVbyte (buf.drop pos)).missing fun read found =>
      exists_ ⟨read.1, pos + read.2, VbyteAt.drop_iff.mp found⟩
    have rejected : readSlice buf pos = .err error := by
      rw [readSlice, sliceFrom_eq inside, Outcome.ok_bind, decodeSlice, failed]
      rfl
    rw [rejected]
    exact ⟨fun _ len start found => absurd ⟨len, start, found⟩ exists_, fun _ => trivial⟩

end Slice
end ZenohRos2
