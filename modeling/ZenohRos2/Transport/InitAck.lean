import ZenohRos2.Transport.Chains
import ZenohRos2.Transport.Identifiers
import ZenohRos2.Transport.PushPut

/-! An InitAck made of an InitSyn.

The answer has the layout of the request, with more flags in its first byte
and with a cookie and extensions behind it. The one encoder and the one decoder
of that layout were written apart.
-/

set_option autoImplicit false

namespace ZenohRos2
open Rust

theorem ZenohId.fromBytes_asBytes (data : Bytes) : fromBytes (fromBytes data).asBytes = fromBytes data := by
  rw [asBytes_fromBytes, fromBytes_take]

section Relocation
variable {buf front : Bytes} {offset pos stop : Nat}

theorem NumberAt.within {n : Nat} (part : PartAt buf offset front) (number : NumberAt front pos n stop) :
    NumberAt buf (offset + pos) n (offset + stop) := by
  have inside := number.vbyteAt.bounds
  obtain ⟨tail, same⟩ := part
  obtain ⟨bytes, rest, found, word, short, rfl, rfl⟩ := number
  refine ⟨bytes, rest ++ tail, ?_, word, short, rfl, (Nat.add_assoc ..).symm⟩
  rw [← List.drop_drop, same, List.drop_append_of_le_length (by omega), found, List.append_assoc]

theorem CompleteExtensionAt.within {more : Bool} (part : PartAt buf offset front)
    (extension : CompleteExtensionAt front pos more stop) :
    CompleteExtensionAt buf (offset + pos) more (offset + stop) := by
  obtain ⟨ext, found, flag, body⟩ := extension
  have inside : pos < front.length := (List.getElem?_eq_some_iff.mp found).1
  have room := part.fits (List.ne_nil_of_length_pos (by omega))
  refine ⟨ext, ?_, flag, ?_⟩
  · obtain ⟨tail, same⟩ := part
    rw [← List.getElem?_drop, same, List.getElem?_append_left inside, found]
  · cases body with
    | unit encoding => exact .unit encoding
    | z64 encoding number => exact .z64 encoding (number.within part)
    | zbuf unit z64 number fits =>
      rw [← Nat.add_assoc]
      exact .zbuf unit z64 (number.within part) (by omega)

theorem CompleteChainAt.inside (chain : CompleteChainAt buf pos stop) : pos < buf.length := by
  cases chain with
  | last extension =>
    obtain ⟨ext, found, -⟩ := extension
    exact (List.getElem?_eq_some_iff.mp found).1
  | more extension _ =>
    obtain ⟨ext, found, -⟩ := extension
    exact (List.getElem?_eq_some_iff.mp found).1

theorem CompleteChainAt.within (part : PartAt buf offset front) (chain : CompleteChainAt front pos stop) :
    CompleteChainAt buf (offset + pos) (offset + stop) := by
  induction chain with
  | last extension => exact .last (extension.within part)
  | more extension _ ih => exact .more (extension.within part) ih

end Relocation

section Grammar
variable [Target] {buf : Bytes} {pos : Nat}

theorem completeExtensionAt_of_part {extension : Extension} {more : Bool} (addressable : Addressable buf)
    (part : PartAt buf pos (extension.bytes more)) :
    CompleteExtensionAt buf pos more (pos + (extension.bytes more).length) := by
  obtain ⟨⟨rest, head⟩, body⟩ := PartAt.append_iff.mp (show PartAt buf pos
    ([extension.headerByte more] ++ Extension.bodyBytes extension.body) from part)
  have encoding : extensionEncoding (extension.headerByte more) = Extension.encoding extension.body :=
    Extension.encoding_headerByte extension more
  have number {value : UInt64} {place : Nat} (part : PartAt buf place (vbyte value)) :
      NumberAt buf place value.toNat (place + (vbyte value).length) := by
    obtain ⟨rest, same⟩ := part
    exact ⟨vbyte value, rest, same, Leb128.word_encode _, vbyte_length_le value, (Leb128.value_encode _).symm, rfl⟩
  refine ⟨extension.headerByte more, ?_, Extension.hasFlag_headerByte _ _, ?_⟩
  · rw [← Nat.add_zero pos, ← List.getElem?_drop, head]
    rfl
  · have finish : pos + (extension.bytes more).length = pos + 1 + (Extension.bodyBytes extension.body).length := by
      rw [Extension.bytes, List.length_cons]
      omega
    rw [List.length_singleton] at body
    rw [finish]
    cases same : extension.body with
    | unit => exact .unit (by rw [encoding, same]; rfl)
    | z64 value =>
      rw [same] at body
      exact .z64 (by rw [encoding, same]; rfl) (number body)
    | zbuf data =>
      rw [same] at body
      obtain ⟨fits, -⟩ := lengthPrefixed_fits addressable body
      have size : data.length + 0 < usizeSize := addressable.lt_usizeSize (by omega) (Nat.zero_le _)
      have small := usizeSize_le
      have found := number (PartAt.append_iff.mp body).1
      rw [UInt64.toNat_ofNat', Nat.mod_eq_of_lt (by omega)] at found
      rw [Extension.bodyBytes, lengthPrefixed, List.length_append, ← Nat.add_assoc]
      exact .zbuf (by rw [encoding, same]; simp [Extension.encoding]) (by rw [encoding, same]; simp [Extension.encoding])
        found (by omega)

theorem completeChainAt_of_part {extension : Extension} {rest : List Extension} (addressable : Addressable buf)
    (part : PartAt buf pos (Extension.chain (extension :: rest))) :
    CompleteChainAt buf pos (pos + (Extension.chain (extension :: rest)).length) := by
  induction rest generalizing pos extension with
  | nil =>
    simp only [Extension.chain, List.append_nil] at part ⊢
    exact .last (completeExtensionAt_of_part addressable part)
  | cons next rest ih =>
    rw [Extension.chain] at part ⊢
    obtain ⟨first, others⟩ := PartAt.append_iff.mp part
    rw [List.length_append, ← Nat.add_assoc]
    exact .more (completeExtensionAt_of_part addressable first) (ih others)

end Grammar

def setFlags (flags : UInt8) : Bytes → Bytes
  | [] => []
  | first :: rest => (first ||| flags) :: rest

def ackFlags (hasExt : Bool) : UInt8 := initFlag.a ||| flagIf hasExt initFlag.z

def initAckFront (msg : InitSyn) (hasExt : Bool) : Bytes :=
  [header transportId.init true msg.batchSize.isSome hasExt] ++ ([msg.version] ++ ([initFlagsByte msg] ++
    (msg.zid.asBytes ++ batchSizeBytes msg.batchSize)))

theorem setFlags_initSynBytes (msg : InitSyn) (hasExt : Bool) :
    setFlags (ackFlags hasExt) (initSynBytes msg) = initAckFront msg hasExt := by
  have first : (transportId.init ||| flagIf msg.batchSize.isSome initFlag.s) ||| ackFlags hasExt =
      header transportId.init true msg.batchSize.isSome hasExt := by
    cases msg.batchSize.isSome <;> cases hasExt <;> decide
  rw [initAckFront, ← first]
  rfl

section Decode
variable [Target] {buf : Bytes} {pos : Nat}

omit [Target] in
theorem whatamiFrom2bit_initFlagsByte {msg : InitSyn} (nonempty : 0 < msg.zid.asBytes.length) :
    whatamiFrom2bit (initFlagsByte msg) = .ok msg.whatami := by
  have short := msg.zid.asBytes_length_le
  unfold initFlagsByte
  generalize msg.zid.asBytes.length = length at nonempty short
  have every : ∀ below : Fin 16, ∀ whatami ∈ [WhatAmI.router, .peer, .client],
      whatamiFrom2bit (((UInt8.ofNat (below.val + 1) - 1) <<< 4) ||| whatamiTo2bit whatami) = .ok whatami := by
    decide +kernel
  have found := every ⟨length - 1, by omega⟩ msg.whatami (by cases msg.whatami <;> simp)
  simpa only [Nat.sub_add_cancel nonempty] using found

theorem readBatchSize_of_part {batchSize : Option UInt16} (addressable : Addressable buf)
    (part : PartAt buf pos (batchSizeBytes batchSize)) :
    readBatchSize batchSize.isSome buf pos = .ok (batchSize, pos + (batchSizeBytes batchSize).length) := by
  cases batchSize with
  | none => rfl
  | some size =>
    have bytes : batchSizeBytes (some size) =
        [0x00] ++ ([UInt8.ofNat size.toNat] ++ [UInt8.ofNat (size.toNat / 256)]) := rfl
    have value : LittleEndian.value [UInt8.ofNat size.toNat, UInt8.ofNat (size.toNat / 256)] = size.toNat :=
      LittleEndian.value_encode_of_lt (show size.toNat < 256 ^ 2 from size.toNat_lt)
    rw [bytes] at part ⊢
    have room := part.fits (List.cons_ne_nil _ _)
    simp only [List.length_append, List.length_singleton] at room ⊢
    obtain ⟨resolution, part⟩ := PartAt.append_iff.mp part
    obtain ⟨low, high⟩ := PartAt.append_iff.mp part
    simp only [List.length_singleton] at low high
    have add (a b : Nat) (left : a ≤ buf.length) (right : b ≤ buf.length) : (usizeAdd a b : Decode Nat) = .ok (a + b) :=
      usizeAdd_eq (addressable.lt_usizeSize left right)
    simp only [readBatchSize, Option.isSome_some, if_true]
    rw [add pos 3 (by omega) (by omega), Outcome.ok_bind, if_neg (by omega), index_of_part resolution, Outcome.ok_bind,
      add pos 1 (by omega) (by omega), Outcome.ok_bind, index_of_part low, Outcome.ok_bind,
      add (pos + 1) 1 (by omega) (by omega), Outcome.ok_bind, index_of_part high, Outcome.ok_bind,
      add (pos + 1) 2 (by omega) (by omega), Outcome.ok_bind, value, UInt16.ofNat_toNat]

theorem decodeInitAckHead_of_part {msg : InitSyn} {hasExt : Bool} (nonempty : 0 < msg.zid.asBytes.length)
    (addressable : Addressable buf) (part : PartAt buf 0 (initAckFront msg hasExt)) :
    decodeInitAckHead buf = .ok ⟨hasExt, msg.version, msg.whatami, .fromBytes msg.zid.asBytes, msg.batchSize,
      (initAckFront msg hasExt).length⟩ := by
  have room := part.fits (List.cons_ne_nil _ _)
  simp only [initAckFront, List.length_append, List.length_singleton] at room
  obtain ⟨first, part⟩ := PartAt.append_iff.mp part
  obtain ⟨version, part⟩ := PartAt.append_iff.mp part
  obtain ⟨flags, part⟩ := PartAt.append_iff.mp part
  obtain ⟨⟨rest, zid⟩, batchSize⟩ := PartAt.append_iff.mp part
  simp only [List.length_singleton, Nat.zero_add] at version flags zid batchSize
  have kind : messageId (header transportId.init true msg.batchSize.isSome hasExt) = transportId.init :=
    messageId_header _ _ _ _
  have ack : hasFlag (header transportId.init true msg.batchSize.isSome hasExt) initFlag.a = true :=
    hasFlag_header_bit5 _ _ _ _ (by decide)
  have sized : hasFlag (header transportId.init true msg.batchSize.isSome hasExt) initFlag.s = msg.batchSize.isSome :=
    hasFlag_header_bit6 _ _ _ _ (by decide)
  have extended : hasFlag (header transportId.init true msg.batchSize.isSome hasExt) initFlag.z = hasExt :=
    hasFlag_header_bit7 _ _ _ _ (by decide)
  have id : (buf.take (3 + msg.zid.asBytes.length)).drop 3 = msg.zid.asBytes := by
    rw [List.drop_take, zid, Nat.add_sub_cancel_left, List.take_left]
  have nonempty' : ¬buf.isEmpty = true := by
    rw [List.isEmpty_iff_length_eq_zero]
    omega
  have counted : (initFlagsByte msg >>> 4).toNat + 1 < usizeSize := by
    rw [initFlagsByte_length nonempty]
    exact addressable.lt_usizeSize (by omega) (Nat.zero_le _)
  rw [decodeInitAckHead, if_neg nonempty', index_of_part first, Outcome.ok_bind, if_neg (not_not_intro kind), ack,
    if_neg (by decide), if_neg (by omega), index_of_part version, Outcome.ok_bind, if_neg (by omega),
    index_of_part flags, Outcome.ok_bind, whatamiFrom2bit_initFlagsByte nonempty, Outcome.ok_bind,
    usizeAdd_eq counted, Outcome.ok_bind, initFlagsByte_length nonempty,
    usizeAdd_eq (addressable.lt_usizeSize (by omega) (by omega)), Outcome.ok_bind,
    if_neg (by omega), sliceRange, if_pos ⟨by omega, by omega⟩, Outcome.ok_bind, id, sized, extended,
    readBatchSize_of_part addressable batchSize, Outcome.ok_bind]
  simp only [initAckFront, List.length_append, List.length_singleton]
  congr 2
  omega

theorem decodeInitAck_answer {msg : InitSyn} {cookie chain rest : Bytes} (nonempty : 0 < msg.zid.asBytes.length)
    (short : cookie.length ≤ cookieCap) (complete : chain = [] ∨ CompleteChainAt chain 0 chain.length)
    (same : buf = initAckFront msg (!chain.isEmpty) ++ (lengthPrefixed cookie ++ (chain ++ rest)))
    (addressable : Addressable buf) :
    decodeInitAck buf = .ok (⟨msg.version, msg.whatami, .fromBytes msg.zid.asBytes, cookie, msg.batchSize⟩,
      (initAckFront msg (!chain.isEmpty)).length + (lengthPrefixed cookie).length + chain.length) := by
  obtain ⟨front, part⟩ := PartAt.append_iff.mp
    (show PartAt buf 0 (initAckFront msg (!chain.isEmpty) ++ (lengthPrefixed cookie ++ chain)) from
      ⟨rest, by rw [same, List.drop_zero]; simp only [List.append_assoc]⟩)
  obtain ⟨slice, extensions⟩ := PartAt.append_iff.mp part
  rw [Nat.zero_add] at slice extensions
  have skipped : skipExtensionsIf (!chain.isEmpty) buf
      ((initAckFront msg (!chain.isEmpty)).length + (lengthPrefixed cookie).length) =
      .ok ((initAckFront msg (!chain.isEmpty)).length + (lengthPrefixed cookie).length + chain.length) := by
    rcases complete with rfl | complete
    · rfl
    · have present : (!chain.isEmpty) = true := by
        have inside := complete.inside
        cases chain with
        | nil => cases inside
        | cons _ _ => rfl
      rw [present] at extensions ⊢
      exact (skipExtensions_eq_ok addressable).mpr ((complete.within extensions).chainAt addressable)
  rw [decodeInitAck, decodeInitAckHead_of_part nonempty addressable front, Outcome.ok_bind,
    readSlice_of_part addressable slice, Outcome.ok_bind]
  simp only
  rw [if_neg (by omega), skipped, Outcome.ok_bind]

end Decode

variable [Target]

/-- What an InitSyn and a cookie were encoded from is decoded from the answer made of them, which ends in front of
what follows it. An id comes back with the same bytes; if it was made from bytes, it is the same value. -/
theorem decodeInitAck_inverts_encodeInitSyn (msg : InitSyn) (cookie chain rest : Bytes)
    (nonempty : 0 < msg.zid.asBytes.length) (short : cookie.length ≤ 256)
    (complete : chain = [] ∨ CompleteChainAt chain 0 chain.length)
    (buf after slot filled : Bytes) (count prefixed : Nat) (room : Addressable buf) (slotRoom : Addressable slot)
    (encoded : encodeInitSyn msg buf = .ok (count, after)) (wrote : encodeSlice cookie slot = .ok (prefixed, filled))
    (addressable : Addressable
      (setFlags (ackFlags (!chain.isEmpty)) (after.take count) ++ (filled.take prefixed ++ (chain ++ rest)))) :
    let answer := setFlags (ackFlags (!chain.isEmpty)) (after.take count) ++ (filled.take prefixed ++ (chain ++ rest))
    let consumed := count + prefixed + chain.length
    ∃ zid, decodeInitAck answer = .ok (⟨msg.version, msg.whatami, zid, cookie, msg.batchSize⟩, consumed) ∧
      zid.asBytes = msg.zid.asBytes ∧ (∀ data, msg.zid = .fromBytes data → zid = msg.zid) ∧
      answer.drop consumed = rest := by
  have syn := encodes_encodeInitSyn nonempty
  have slice := encodes_encodeSlice (le_isizeMax (show cookie.length < 2 ^ 31 by omega))
  intro answer consumed
  have same : answer = initAckFront msg (!chain.isEmpty) ++ (lengthPrefixed cookie ++ (chain ++ rest)) := by
    change setFlags _ (after.take count) ++ (filled.take prefixed ++ _) = _
    rw [syn.take_eq room encoded, slice.take_eq slotRoom wrote, setFlags_initSynBytes]
  have stop : consumed = (initAckFront msg (!chain.isEmpty)).length + (lengthPrefixed cookie).length + chain.length := by
    change count + prefixed + _ = _
    rw [syn.count_eq room encoded, slice.count_eq slotRoom wrote, ← setFlags_initSynBytes]
    rfl
  refine ⟨.fromBytes msg.zid.asBytes, ?_, ?_, ?_, ?_⟩
  · rw [stop]
    exact decodeInitAck_answer nonempty short complete same addressable
  · rw [ZenohId.asBytes_fromBytes, List.take_of_length_le msg.zid.asBytes_length_le]
  · intro data made
    rw [made, ZenohId.fromBytes_asBytes]
  · rw [stop, same, Nat.add_assoc, ← List.drop_drop, List.drop_left, ← List.drop_drop, List.drop_left, List.drop_left]

omit [Target] in
/-- An answer with a batch size, a chain of three extensions, and two more bytes. -/
theorem decodeInitAck_inverts_encodeInitSyn_extended :
    letI := target64
    let msg : InitSyn := ⟨protoVersion, .client, .fromBytes [1, 2, 3], some 1500⟩
    let answer : Bytes :=
      [0xE1, 9, 0x22, 1, 2, 3, 0, 0xDC, 5] ++ ([2, 7, 8] ++ ([0x81, 0xA2, 0xAC, 2, 0x43, 2, 5, 6] ++ [0xAA, 0xBB]))
    ∃ zid, decodeInitAck answer = .ok (⟨protoVersion, .client, zid, [7, 8], some 1500⟩, 20) ∧
      zid.asBytes = [1, 2, 3] ∧ (∀ data, msg.zid = .fromBytes data → zid = msg.zid) ∧ answer.drop 20 = [0xAA, 0xBB] := by
  let := target64
  intro msg answer
  let chain : Bytes := [0x81, 0xA2, 0xAC, 2, 0x43, 2, 5, 6]
  have small {bytes : Bytes} (short : bytes.length < 2 ^ 31) : Addressable bytes := le_isizeMax short
  have room : Addressable (List.replicate 16 (0 : UInt8)) := small (by decide)
  have syn : initSynBytes msg = [0x41, 9, 0x22, 1, 2, 3, 0, 0xDC, 5] := by decide +kernel
  have slice : lengthPrefixed [7, 8] = [2, 7, 8] := by decide +kernel
  have grammar : Extension.chain [⟨1, .unit⟩, ⟨2, .z64 300⟩, ⟨3, .zbuf [5, 6]⟩] = chain := by decide +kernel
  have encoded := (encodes_encodeInitSyn (show 0 < msg.zid.asBytes.length by decide)).eq_ok room (by rw [syn]; decide)
  have wrote := (encodes_encodeSlice (small (show ([7, 8] : Bytes).length < 2 ^ 31 by decide))).eq_ok room
    (by rw [slice]; decide)
  rw [syn] at encoded
  rw [slice] at wrote
  have chained := completeChainAt_of_part (small (show chain.length < 2 ^ 31 by decide))
    (show PartAt chain 0 _ from ⟨[], by rw [grammar]; rfl⟩)
  rw [grammar] at chained
  obtain ⟨zid, decoded, bytes, made, trailing⟩ :=
    decodeInitAck_inverts_encodeInitSyn msg [7, 8] chain [0xAA, 0xBB] (by decide) (by decide) (.inr chained)
      _ _ _ _ 9 3 room room encoded wrote (small (by decide))
  have same : setFlags (ackFlags (!chain.isEmpty))
      (([0x41, 9, 0x22, 1, 2, 3, 0, 0xDC, 5] ++ (List.replicate 16 0).drop 9 : Bytes).take 9) ++
      (([2, 7, 8] ++ (List.replicate 16 0).drop 3 : Bytes).take 3 ++ (chain ++ [0xAA, 0xBB])) = answer := by decide
  exact ⟨zid, by rw [← same]; exact decoded, bytes, made, by rw [← same]; exact trailing⟩

end ZenohRos2
