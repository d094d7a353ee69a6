import ZenohRos2.Transport.Handshake

/-! Identifiers, whose length is sent minus one.

An id of up to 16 bytes may be empty, which the format has no length for: one
encoder wraps the length round to 255 and the other one panics. The decoder
takes any byte for a length, and cuts the id to 16 bytes.
-/

set_option autoImplicit false

namespace ZenohRos2
open Rust

theorem ZenohId.fromBytes_take (data : Bytes) : fromBytes (data.take 16) = fromBytes data := by
  unfold fromBytes
  rw [ZenohId.mk.injEq]
  refine ⟨congrArg Vector.ofFn (funext fun i => ?_), congrArg UInt8.ofNat ?_⟩
  · rw [List.getElem?_take_of_lt i.isLt]
  · rw [List.length_take, Nat.min_assoc, Nat.min_comm data.length, ← Nat.min_assoc, Nat.min_self, Nat.min_comm]

theorem ZenohId.length_fromBytes (data : Bytes) : (fromBytes data).asBytes.length = min 16 data.length := by
  rw [asBytes_fromBytes, List.length_take]

variable [Target]

/-- The length byte wraps: `(id_bytes.len() as u8).wrapping_sub(1)`. -/
def encodeZenohId (zid : ZenohId) : WireEncoder := Put.encoder do
  Put.require .frameTooLarge (1 + zid.asBytes.length)
  Put.copy [UInt8.ofNat zid.asBytes.length - 1]
  Put.copy zid.asBytes

omit [Target] in
def zenohIdBytes (zid : ZenohId) : Bytes := [UInt8.ofNat zid.asBytes.length - 1] ++ zid.asBytes

theorem encodes_encodeZenohId (zid : ZenohId) :
    Encodes TransportError.frameTooLarge (encodeZenohId zid) (zenohIdBytes zid) := by
  have short := zid.asBytes_length_le
  have length : (zenohIdBytes zid).length = 1 + zid.asBytes.length := by
    rw [zenohIdBytes, List.length_append, List.length_singleton]
  refine encodes_encoder (puts_require (Copies.seq (copies_copy _) (copies_copy _)) length.symm (le_isizeMax ?_))
  rw [length]
  omega

theorem decodeZenohId_cons (first : UInt8) (rest : Bytes) :
    decodeZenohId (first :: rest) = if first.toNat < rest.length then
      .ok (ZenohId.fromBytes (rest.take (first.toNat + 1)), first.toNat + 2) else .err .invalidEncoding := by
  have small := first.toNat_lt
  have size := le_usizeSize
  have read : (index (first :: rest) 0 : Decode UInt8) = .ok first := rfl
  rw [decodeZenohId, if_neg (by simp), read, Outcome.ok_bind, usizeAdd_eq (by omega), Outcome.ok_bind,
    usizeAdd_eq (by omega), Outcome.ok_bind, List.length_cons]
  by_cases inside : first.toNat < rest.length
  · have within : 1 ≤ 1 + (first.toNat + 1) ∧ 1 + (first.toNat + 1) ≤ (first :: rest).length := by
      rw [List.length_cons]
      omega
    rw [if_neg (by omega), if_pos inside, sliceRange, if_pos within, Outcome.ok_bind, Nat.add_comm 1,
      List.take_succ_cons, List.drop_one, List.tail_cons]
  · rw [if_pos (by omega), if_neg inside]

/-- The id made of some bytes comes through both of its formats, unless its encoder returns an error. -/
structure LengthSurvives (data : Bytes) : Prop where
  decoded : ∀ buf : Bytes, Addressable buf →
    (∃ error, encodeZenohId (.fromBytes data) buf = .err error) ∨
    ∃ count after, encodeZenohId (.fromBytes data) buf = .ok (count, after) ∧
      decodeZenohId (after.take count) = .ok (.fromBytes data, count)
  announced : ∀ (version : UInt8) (whatami : WhatAmI) (batchSize : Option UInt16) (buf : Bytes), Addressable buf →
    (∃ error, encodeInitSyn ⟨version, whatami, .fromBytes data, batchSize⟩ buf = .err error) ∨
    ∃ (count : Nat) (after : Bytes) (flags : UInt8),
      encodeInitSyn ⟨version, whatami, .fromBytes data, batchSize⟩ buf = .ok (count, after) ∧
      after[2]? = some flags ∧ (flags >>> 4).toNat + 1 = (ZenohId.fromBytes data).asBytes.length

/-- A decoded id has the length that its first byte declares. -/
def DecodesDeclared (buf : Bytes) : Prop :=
  ∀ zid count, decodeZenohId buf = .ok (zid, count) →
    ∃ first, buf[0]? = some first ∧ zid.asBytes.length = first.toNat + 1

omit [Target] in
theorem initFlagsByte_length {msg : InitSyn} (nonempty : 0 < msg.zid.asBytes.length) :
    (initFlagsByte msg >>> 4).toNat + 1 = msg.zid.asBytes.length := by
  have short := msg.zid.asBytes_length_le
  unfold initFlagsByte
  generalize msg.zid.asBytes.length = length at nonempty short
  have every : ∀ below : Fin 16, ∀ whatami ∈ [WhatAmI.router, .peer, .client],
      ((((UInt8.ofNat (below.val + 1) - 1) <<< 4) ||| whatamiTo2bit whatami) >>> 4).toNat = below.val := by
    decide +kernel
  have found := every ⟨length - 1, by omega⟩ msg.whatami (by cases msg.whatami <;> simp)
  simp only [Nat.sub_add_cancel nonempty] at found
  omega

omit [Target] in
theorem flags_initSynBytes (msg : InitSyn) (rest : Bytes) :
    (initSynBytes msg ++ rest)[2]? = some (initFlagsByte msg) := by
  simp only [initSynBytes, List.cons_append, List.nil_append, List.getElem?_cons_succ, List.getElem?_cons_zero]

theorem lengthSurvives_of_nonempty {data : Bytes} (nonempty : data ≠ []) : LengthSurvives data := by
  have positive : 0 < (ZenohId.fromBytes data).asBytes.length := by
    have length := List.length_pos_iff.mpr nonempty
    rw [ZenohId.length_fromBytes]
    omega
  have short := (ZenohId.fromBytes data).asBytes_length_le
  constructor
  · intro buf addressable
    rw [encodes_encodeZenohId _ buf addressable]
    split
    · refine .inr ⟨_, _, rfl, ?_⟩
      have stored : (UInt8.ofNat (ZenohId.fromBytes data).asBytes.length - 1).toNat + 1 =
          (ZenohId.fromBytes data).asBytes.length := by
        rw [UInt8.toNat_sub_of_le _ _ (by rw [UInt8.le_iff_toNat_le, UInt8.toNat_ofNat']; change 1 ≤ _; omega),
          UInt8.toNat_ofNat']
        change _ % 256 - 1 + 1 = _
        omega
      have counted : (UInt8.ofNat (ZenohId.fromBytes data).asBytes.length - 1).toNat + 2 =
          (ZenohId.fromBytes data).asBytes.length + 1 := congrArg (· + 1) stored
      have same : ZenohId.fromBytes (ZenohId.fromBytes data).asBytes = .fromBytes data := by
        rw [ZenohId.asBytes_fromBytes, ZenohId.fromBytes_take]
      rw [List.take_left, zenohIdBytes, List.singleton_append, decodeZenohId_cons, if_pos (by omega), stored,
        List.take_length, List.length_cons, same, counted]
    · exact .inl ⟨_, rfl⟩
  · intro version whatami batchSize buf addressable
    let msg : InitSyn := ⟨version, whatami, .fromBytes data, batchSize⟩
    have encoded := encodes_encodeInitSyn (show 0 < msg.zid.asBytes.length from positive) buf addressable
    have length := initFlagsByte_length (show 0 < msg.zid.asBytes.length from positive)
    rw [encoded]
    split
    · exact .inr ⟨_, _, initFlagsByte msg, rfl, flags_initSynBytes msg _, length⟩
    · exact .inl ⟨_, rfl⟩

theorem lengthSurvives_iff (data : Bytes) : LengthSurvives data ↔ data ≠ [] := by
  refine ⟨?_, lengthSurvives_of_nonempty⟩
  rintro survives rfl
  have empty : zenohIdBytes (ZenohId.fromBytes []) = [255] := by decide
  have encoded : encodeZenohId (.fromBytes []) [0] = .ok (1, [255]) := by
    rw [encodes_encodeZenohId _ _ (le_isizeMax (by decide)), empty]
    rfl
  rcases survives.decoded [0] (le_isizeMax (by decide)) with ⟨error, failed⟩ | ⟨count, after, ran, decoded⟩
  · rw [encoded] at failed
    cases failed
  · rw [encoded] at ran
    cases ran
    rw [List.take_succ_cons, List.take_zero, decodeZenohId_cons, if_neg (by decide)] at decoded
    cases decoded

theorem decodesDeclared_iff (buf : Bytes) :
    DecodesDeclared buf ↔ ∀ first rest, buf = first :: rest → first.toNat < rest.length → first.toNat < 16 := by
  cases buf with
  | nil => exact iff_of_true (fun _ _ decoded => by cases decoded) (fun _ _ same => by cases same)
  | cons first rest =>
    unfold DecodesDeclared
    rw [decodeZenohId_cons]
    constructor
    · rintro declared _ _ ⟨⟩ inside
      rw [if_pos inside] at declared
      obtain ⟨_, ⟨⟩, length⟩ := declared _ _ rfl
      have cut := ZenohId.asBytes_length_le (.fromBytes (rest.take (first.toNat + 1)))
      omega
    · intro small zid count decoded
      split at decoded
      · rename_i inside
        obtain ⟨id, -⟩ := Prod.mk.inj (Outcome.ok.inj decoded)
        rw [← id]
        refine ⟨first, rfl, ?_⟩
        have below := small first rest rfl inside
        rw [ZenohId.length_fromBytes, List.length_take]
        omega
      · cases decoded

/-- An id comes through its formats if and only if it is not empty, and a decoded one has its declared length if
and only if the buffer does not hold an id that is declared longer than 16 bytes. -/
theorem zenohId_lengths_iff :
    (∀ data : Bytes, LengthSurvives data ↔ data ≠ []) ∧
    ∀ buf : Bytes, DecodesDeclared buf ↔
      ∀ first rest, buf = first :: rest → first.toNat < rest.length → first.toNat < 16 :=
  ⟨lengthSurvives_iff, decodesDeclared_iff⟩

omit [Target] in
/-- The empty id is written as one of 256 bytes or makes the encoder panic, and one that is declared 17 bytes
long is read as one of 16. -/
theorem zenohId_lengths_differ :
    letI := target64
    let empty := ZenohId.fromBytes []
    let long : Bytes := 16 :: List.replicate 17 7
    encodeZenohId empty [0] = .ok (1, [255]) ∧ decodeZenohId [255] = .err .invalidEncoding ∧
      encodeInitSyn ⟨protoVersion, .client, empty, none⟩ (List.replicate 8 0) = .panic .overflow ∧
      decodeZenohId long = .ok (ZenohId.fromBytes (List.replicate 16 7), 18) ∧
      ¬LengthSurvives [] ∧ ¬DecodesDeclared long := by
  let := target64
  intro empty long
  refine ⟨by decide, by decide, by decide, by decide, fun survives => ?_, fun declared => ?_⟩
  · exact (lengthSurvives_iff []).mp survives rfl
  · have small := (decodesDeclared_iff long).mp declared 16 _ rfl (by decide)
    exact absurd small (by decide)

end ZenohRos2
