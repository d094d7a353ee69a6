import ZenohRos2.Transport.Decoding

/-! The grammar of a Push with a Put body, and its decoder.

`PushPut` is a message in terms of its parts; `bytes` is what stands on the
wire for it. The readers of `decode_push_put` are taken one part at a time:
each finds its part at its position and stops right behind it.
-/

set_option autoImplicit false

namespace ZenohRos2
open Rust

inductive ExtensionBody where
  | unit
  | z64 (value : UInt64)
  | zbuf (data : Bytes)
  deriving DecidableEq

structure Extension where
  id : Fin 32
  body : ExtensionBody
  deriving DecidableEq

namespace Extension

/-- Bits 6 and 5 of the header byte. -/
def encoding : ExtensionBody → UInt8
  | .unit => 0
  | .z64 _ => 1
  | .zbuf _ => 2

def bodyBytes : ExtensionBody → Bytes
  | .unit => []
  | .z64 value => vbyte value
  | .zbuf data => lengthPrefixed data

def headerByte (extension : Extension) (more : Bool) : UInt8 :=
  UInt8.ofNat extension.id.val ||| (encoding extension.body <<< 5) ||| flagIf more 0x80

def bytes (extension : Extension) (more : Bool) : Bytes :=
  extension.headerByte more :: bodyBytes extension.body

/-- Every extension but the last says that more follow. -/
def chain : List Extension → Bytes
  | [] => []
  | extension :: rest => extension.bytes (!rest.isEmpty) ++ chain rest

private theorem encoding_mem (body : ExtensionBody) : encoding body ∈ [0, 1, 2] := by
  cases body <;> simp [encoding]

theorem hasFlag_headerByte (extension : Extension) (more : Bool) :
    hasFlag (extension.headerByte more) 0x80 = more := by
  have every : ∀ id : Fin 32, ∀ encoding ∈ [(0 : UInt8), 1, 2], ∀ more,
      hasFlag (UInt8.ofNat id.val ||| (encoding <<< 5) ||| flagIf more 0x80) 0x80 = more := by
    decide +kernel
  exact every extension.id _ (encoding_mem extension.body) more

theorem encoding_headerByte (extension : Extension) (more : Bool) :
    (extension.headerByte more >>> 5) &&& (0x03 : UInt8) = encoding extension.body := by
  have every : ∀ id : Fin 32, ∀ encoding ∈ [(0 : UInt8), 1, 2], ∀ more,
      ((UInt8.ofNat id.val ||| (encoding <<< 5) ||| flagIf more 0x80) >>> 5) &&& (0x03 : UInt8) =
        encoding := by
    decide +kernel
  exact every extension.id _ (encoding_mem extension.body) more

theorem length_le_chain (extensions : List Extension) : extensions.length ≤ (chain extensions).length := by
  induction extensions with
  | nil => exact Nat.zero_le _
  | cons extension rest ih =>
    simp only [chain, bytes, List.cons_append, List.length_cons, List.length_append]
    omega

end Extension

structure PushPut where
  scope : UInt64
  mapped : Bool
  suffix : Option String
  pushExtensions : List Extension
  timestamp : Option (UInt64 × Bytes)
  /-- Encoding id; it is sent shifted left, with the schema flag clear. -/
  encoding : Option UInt64
  putExtensions : List Extension
  payload : Bytes
  deriving DecidableEq

namespace PushPut

def suffixBytes (suffix : Option String) : Bytes :=
  (suffix.map fun text => lengthPrefixed (utf8 text)).getD []

def timestampBytes (timestamp : Option (UInt64 × Bytes)) : Bytes :=
  (timestamp.map fun stamp => vbyte stamp.1 ++ lengthPrefixed stamp.2).getD []

def encodingBytes (encoding : Option UInt64) : Bytes :=
  (encoding.map fun id => vbyte (id <<< (1 : UInt64))).getD []

def pushHeader (message : PushPut) : UInt8 :=
  header networkId.push message.suffix.isSome message.mapped (!message.pushExtensions.isEmpty)

def putHeader (message : PushPut) : UInt8 :=
  header zenohId.put message.timestamp.isSome message.encoding.isSome (!message.putExtensions.isEmpty)

def bytes (message : PushPut) : Bytes :=
  [message.pushHeader] ++ (vbyte message.scope ++ (suffixBytes message.suffix ++
    (Extension.chain message.pushExtensions ++ ([message.putHeader] ++
      (timestampBytes message.timestamp ++ (encodingBytes message.encoding ++
        (Extension.chain message.putExtensions ++ lengthPrefixed message.payload)))))))

def incoming (message : PushPut) : IncomingPut :=
  ⟨message.scope, message.suffix.getD "", message.payload⟩

theorem messageId_pushHeader (message : PushPut) : messageId message.pushHeader = networkId.push :=
  messageId_header _ _ _ _

theorem hasFlag_pushHeader_n (message : PushPut) :
    hasFlag message.pushHeader pushFlag.n = message.suffix.isSome :=
  hasFlag_header_bit5 _ _ _ _ (by decide)

theorem hasFlag_pushHeader_z (message : PushPut) :
    hasFlag message.pushHeader pushFlag.z = !message.pushExtensions.isEmpty :=
  hasFlag_header_bit7 _ _ _ _ (by decide)

theorem messageId_putHeader (message : PushPut) : messageId message.putHeader = zenohId.put :=
  messageId_header _ _ _ _

theorem hasFlag_putHeader_t (message : PushPut) :
    hasFlag message.putHeader putFlag.t = message.timestamp.isSome :=
  hasFlag_header_bit5 _ _ _ _ (by decide)

theorem hasFlag_putHeader_e (message : PushPut) :
    hasFlag message.putHeader putFlag.e = message.encoding.isSome :=
  hasFlag_header_bit6 _ _ _ _ (by decide)

theorem hasFlag_putHeader_z (message : PushPut) :
    hasFlag message.putHeader putFlag.z = !message.putExtensions.isEmpty :=
  hasFlag_header_bit7 _ _ _ _ (by decide)

theorem bytes_length_pos (message : PushPut) : 0 < message.bytes.length := by
  simp [bytes]

end PushPut

/-- The message `encode_push_put` writes. -/
def PushPut.inline (keyExpr : String) (encodingId : UInt64) (payload : Bytes) : PushPut where
  scope := 0
  mapped := false
  suffix := some keyExpr
  pushExtensions := []
  timestamp := none
  encoding := if encodingId != 0 then some encodingId else none
  putExtensions := []
  payload := payload

theorem PushPut.bytes_inline (keyExpr : String) (encodingId : UInt64) (payload : Bytes) :
    (PushPut.inline keyExpr encodingId payload).bytes = pushPutBytes keyExpr encodingId payload := by
  have pushHeader : header networkId.push true false false = networkId.push ||| pushFlag.n := by decide
  have putHeader (encoded : Bool) :
      header zenohId.put false encoded false = zenohId.put ||| flagIf encoded putFlag.e := by
    -- The encoding flag is the only one that depends on the arguments.
    cases encoded <;> decide
  unfold PushPut.inline pushPutBytes PushPut.bytes PushPut.pushHeader PushPut.putHeader
  rw [← pushHeader, ← putHeader]
  cases encodingId != 0 <;> rfl

/-- The message `encode_push_put_with_attachment` writes: the attachment is
the only extension of the Put. -/
def PushPut.publication (keyExpr : String) (payload : Bytes) (seqNum timestampNs : Int64)
    (gid : ZenohId) : PushPut where
  scope := 0
  mapped := false
  suffix := some keyExpr
  pushExtensions := []
  timestamp := none
  encoding := none
  putExtensions := [⟨3, .zbuf (attachment seqNum timestampNs gid)⟩]
  payload := payload

theorem headerByte_attachment (data : Bytes) : Extension.headerByte ⟨3, .zbuf data⟩ false = attachmentExtHeader := by
  simp only [Extension.headerByte, Extension.encoding]
  decide

theorem PushPut.bytes_publication (keyExpr : String) (payload : Bytes) (seqNum timestampNs : Int64)
    (gid : ZenohId) :
    (PushPut.publication keyExpr payload seqNum timestampNs gid).bytes =
      publicationBytes keyExpr payload seqNum timestampNs gid := by
  have pushHeader : header networkId.push true false false = networkId.push ||| pushFlag.n := by decide
  have putHeader : header zenohId.put false false true = zenohId.put ||| putFlag.z := by decide
  have chain : Extension.chain [⟨3, .zbuf (attachment seqNum timestampNs gid)⟩] =
      [attachmentExtHeader] ++ (vbyte (UInt64.ofNat attachmentLen) ++ attachment seqNum timestampNs gid) := by
    rw [← attachment_length seqNum timestampNs gid, ← headerByte_attachment (attachment seqNum timestampNs gid)]
    simp [Extension.chain, Extension.bytes, Extension.bodyBytes, lengthPrefixed]
  unfold publication publicationBytes bytes PushPut.pushHeader PushPut.putHeader
  rw [← pushHeader, ← putHeader, chain]
  simp only [List.append_assoc]
  rfl

/-- The part stands at the position, and something may follow it. -/
def PartAt (buf : Bytes) (pos : Nat) (part : Bytes) : Prop := ∃ rest, buf.drop pos = part ++ rest

theorem lengthPrefixed_ne_nil (data : Bytes) : lengthPrefixed data ≠ [] := by
  have positive := vbyte_length_pos (UInt64.ofNat data.length)
  intro empty
  have none := congrArg List.length empty
  simp only [lengthPrefixed, List.length_append, List.length_nil] at none
  omega

namespace PartAt
variable {buf first second : Bytes} {pos : Nat}

theorem append_iff : PartAt buf pos (first ++ second) ↔
    PartAt buf pos first ∧ PartAt buf (pos + first.length) second := by
  constructor
  · rintro ⟨rest, same⟩
    refine ⟨⟨second ++ rest, by rw [same, List.append_assoc]⟩, rest, ?_⟩
    rw [← List.drop_drop, same, List.append_assoc, List.drop_left]
  · rintro ⟨⟨rest, same⟩, tail, next⟩
    refine ⟨tail, ?_⟩
    rw [← List.drop_drop, same, List.drop_left] at next
    rw [same, next, List.append_assoc]

theorem fits (part : PartAt buf pos first) (nonempty : first ≠ []) : pos + first.length ≤ buf.length := by
  obtain ⟨rest, same⟩ := part
  have length := congrArg List.length same
  have positive := List.length_pos_iff.mpr nonempty
  simp only [List.length_drop, List.length_append] at length
  omega

end PartAt

-- Positions in a buffer with the message at its front. They are transparent, so
-- that what one reader returns is the position the next one starts from.
namespace PushPut
variable (message : PushPut)

abbrev suffixPos : Nat := 1 + (vbyte message.scope).length

abbrev pushExtensionsPos : Nat := message.suffixPos + (suffixBytes message.suffix).length

abbrev putPos : Nat := message.pushExtensionsPos + (Extension.chain message.pushExtensions).length

abbrev encodingPos : Nat := message.putPos + 1 + (timestampBytes message.timestamp).length

abbrev putExtensionsPos : Nat := message.encodingPos + (encodingBytes message.encoding).length

abbrev payloadPos : Nat := message.putExtensionsPos + (Extension.chain message.putExtensions).length

structure PartsAt (buf : Bytes) : Prop where
  pushHeader : PartAt buf 0 [message.pushHeader]
  scope : PartAt buf 1 (vbyte message.scope)
  suffix : PartAt buf message.suffixPos (suffixBytes message.suffix)
  pushExtensions : PartAt buf message.pushExtensionsPos (Extension.chain message.pushExtensions)
  putHeader : PartAt buf message.putPos [message.putHeader]
  timestamp : PartAt buf (message.putPos + 1) (timestampBytes message.timestamp)
  encoding : PartAt buf message.encodingPos (encodingBytes message.encoding)
  putExtensions : PartAt buf message.putExtensionsPos (Extension.chain message.putExtensions)
  payload : PartAt buf message.payloadPos (lengthPrefixed message.payload)

theorem partsAt {buf : Bytes} (part : PartAt buf 0 message.bytes) : message.PartsAt buf := by
  obtain ⟨pushHeader, part⟩ := PartAt.append_iff.mp part
  obtain ⟨scope, part⟩ := PartAt.append_iff.mp part
  obtain ⟨suffix, part⟩ := PartAt.append_iff.mp part
  obtain ⟨pushExtensions, part⟩ := PartAt.append_iff.mp part
  obtain ⟨putHeader, part⟩ := PartAt.append_iff.mp part
  obtain ⟨timestamp, part⟩ := PartAt.append_iff.mp part
  obtain ⟨encoding, part⟩ := PartAt.append_iff.mp part
  obtain ⟨putExtensions, payload⟩ := PartAt.append_iff.mp part
  simp only [List.length_singleton, Nat.zero_add]
    at scope suffix pushExtensions putHeader timestamp encoding putExtensions payload
  exact ⟨pushHeader, scope, suffix, pushExtensions, putHeader, timestamp, encoding, putExtensions, payload⟩

theorem payloadPos_add_length :
    message.payloadPos + (lengthPrefixed message.payload).length = message.bytes.length := by
  simp only [bytes, List.length_append, List.length_singleton, Nat.add_assoc]

end PushPut

section Readers
variable {buf : Bytes} {pos : Nat}

theorem index_of_part {byte : UInt8} (part : PartAt buf pos [byte]) :
    (index buf pos : Decode UInt8) = .ok byte := by
  obtain ⟨rest, same⟩ := part
  exact index_of_drop same

variable [Target]

theorem readVbyte_of_part {value : UInt64} (addressable : Addressable buf)
    (part : PartAt buf pos (vbyte value)) :
    readVbyte buf pos = .ok (value, pos + (vbyte value).length) := by
  obtain ⟨rest, same⟩ := part
  exact readVbyte_eq addressable (.of_drop same)

theorem lengthPrefixed_fits {data : Bytes} (addressable : Addressable buf)
    (part : PartAt buf pos (lengthPrefixed data)) :
    pos + (vbyte (UInt64.ofNat data.length)).length + data.length ≤ buf.length ∧
      asUsize (UInt64.ofNat data.length) = data.length := by
  have fits := part.fits (lengthPrefixed_ne_nil data)
  simp only [lengthPrefixed, List.length_append] at fits
  have size : data.length + 0 < usizeSize := addressable.lt_usizeSize (by omega) (by omega)
  have declared : (UInt64.ofNat data.length).toNat = data.length := by
    rw [UInt64.toNat_ofNat']
    have small := usizeSize_le
    omega
  refine ⟨by omega, ?_⟩
  rw [asUsize_of_lt (by omega), declared]

theorem readSlice_of_part {data : Bytes} (addressable : Addressable buf)
    (part : PartAt buf pos (lengthPrefixed data)) :
    readSlice buf pos = .ok (data, pos + (lengthPrefixed data).length) := by
  obtain ⟨fits, declared⟩ := lengthPrefixed_fits addressable part
  obtain ⟨⟨rest, same⟩, tail, after⟩ := PartAt.append_iff.mp part
  rw [readSlice_eq addressable (.of_drop same), sliceAfter, declared,
    if_pos (addressable.lt_usizeSize (by omega) (by omega)), if_pos fits, after, List.take_left]
  simp only [lengthPrefixed, List.length_append, Nat.add_assoc]

theorem readSuffix_of_part {suffix : Option String} (addressable : Addressable buf)
    (part : PartAt buf pos (PushPut.suffixBytes suffix)) :
    readSuffix suffix.isSome buf pos =
      .ok (suffix.getD "", pos + (PushPut.suffixBytes suffix).length) := by
  cases suffix with
  | none => rfl
  | some text =>
    change (readSlice buf pos >>= _) = _
    rw [readSlice_of_part addressable part, Outcome.ok_bind]
    simp only [fromUtf8_utf8]
    rfl

theorem readTimestamp_of_part {timestamp : Option (UInt64 × Bytes)} (addressable : Addressable buf)
    (part : PartAt buf pos (PushPut.timestampBytes timestamp)) :
    readTimestamp timestamp.isSome buf pos = .ok (pos + (PushPut.timestampBytes timestamp).length) := by
  cases timestamp with
  | none => rfl
  | some stamp =>
    change PartAt buf pos (vbyte stamp.1 ++ lengthPrefixed stamp.2) at part
    obtain ⟨time, id⟩ := PartAt.append_iff.mp part
    obtain ⟨fits, declared⟩ := lengthPrefixed_fits addressable id
    have size := (PartAt.append_iff.mp id).1
    change (readVbyte buf pos >>= _) = _
    rw [readVbyte_of_part addressable time, Outcome.ok_bind]
    change (readVbyte buf (pos + (vbyte stamp.1).length) >>= _) = _
    rw [readVbyte_of_part addressable size, Outcome.ok_bind]
    change (usizeAdd _ (asUsize _) >>= _) = _
    rw [declared, usizeAdd_eq (addressable.lt_usizeSize (by omega) (by omega)), Outcome.ok_bind,
      if_neg (by omega)]
    simp only [PushPut.timestampBytes, lengthPrefixed, Option.map_some, Option.getD_some,
      List.length_append, Nat.add_assoc]

theorem skipVbyteIf_of_part {encoding : Option UInt64} (addressable : Addressable buf)
    (part : PartAt buf pos (PushPut.encodingBytes encoding)) :
    skipVbyteIf encoding.isSome buf pos = .ok (pos + (PushPut.encodingBytes encoding).length) := by
  cases encoding with
  | none => rfl
  | some id =>
    change (readVbyte buf pos >>= _) = _
    rw [readVbyte_of_part addressable part, Outcome.ok_bind]
    rfl

theorem skipExtensionBody_of_part {extension : Extension} {more : Bool} (addressable : Addressable buf)
    (part : PartAt buf pos (Extension.bodyBytes extension.body)) :
    skipExtensionBody buf pos (extension.headerByte more) =
      .ok (pos + (Extension.bodyBytes extension.body).length) := by
  rw [skipExtensionBody, Extension.encoding_headerByte]
  cases same : extension.body with
  | unit => rfl
  | z64 value =>
    rw [same] at part
    rw [if_neg (show ¬Extension.encoding (.z64 value) = 0 by simp [Extension.encoding]),
      if_pos (show Extension.encoding (.z64 value) = 1 from rfl),
      readVbyte_of_part addressable part, Outcome.ok_bind]
    rfl
  | zbuf data =>
    rw [same] at part
    rw [if_neg (show ¬Extension.encoding (.zbuf data) = 0 by simp [Extension.encoding]),
      if_neg (show ¬Extension.encoding (.zbuf data) = 1 by simp [Extension.encoding]),
      readSlice_of_part addressable part, Outcome.ok_bind]
    rfl

theorem skipExtensionsLoop_step (turns : Nat) {extension : Extension} {more : Bool}
    (addressable : Addressable buf) (part : PartAt buf pos (extension.bytes more)) :
    skipExtensionsLoop (turns + 1) buf pos =
      if more then skipExtensionsLoop turns buf (pos + (extension.bytes more).length)
      else .ok (pos + (extension.bytes more).length) := by
  have fits := part.fits (List.cons_ne_nil _ _)
  simp only [Extension.bytes, List.length_cons] at fits
  obtain ⟨head, body⟩ := PartAt.append_iff.mp (show PartAt buf pos
    ([extension.headerByte more] ++ Extension.bodyBytes extension.body) from part)
  rw [skipExtensionsLoop, if_pos (by omega), index_of_part head, Outcome.ok_bind,
    usizeAdd_eq (addressable.lt_usizeSize (by omega) (by omega)), Outcome.ok_bind,
    skipExtensionBody_of_part addressable (show PartAt buf (pos + 1) _ from body), Outcome.ok_bind,
    Extension.hasFlag_headerByte]
  simp only [Extension.bytes, List.length_cons, Nat.add_assoc, Nat.add_comm 1]

theorem skipExtensionsLoop_of_part {turns : Nat} {extension : Extension} {rest : List Extension}
    (addressable : Addressable buf) (enough : rest.length < turns)
    (part : PartAt buf pos (Extension.chain (extension :: rest))) :
    skipExtensionsLoop turns buf pos = .ok (pos + (Extension.chain (extension :: rest)).length) := by
  -- Each turn of the loop takes one extension off the chain, and the last one ends it.
  induction rest generalizing turns extension pos with
  | nil =>
    obtain ⟨turns, rfl⟩ := Nat.exists_eq_succ_of_ne_zero (Nat.ne_of_gt enough)
    obtain ⟨first, -⟩ := PartAt.append_iff.mp part
    rw [skipExtensionsLoop_step turns addressable first]
    simp [Extension.chain]
  | cons next rest ih =>
    obtain ⟨turns, rfl⟩ := Nat.exists_eq_succ_of_ne_zero (Nat.ne_of_gt (Nat.zero_lt_of_lt enough))
    obtain ⟨first, others⟩ := PartAt.append_iff.mp part
    rw [skipExtensionsLoop_step turns addressable first, if_pos (show (!(next :: rest).isEmpty) = true from rfl),
      ih (by simpa using enough) others]
    simp only [Extension.chain, List.length_append, Nat.add_assoc]

theorem skipExtensionsIf_of_part {extensions : List Extension} (addressable : Addressable buf)
    (part : PartAt buf pos (Extension.chain extensions)) :
    skipExtensionsIf (!extensions.isEmpty) buf pos = .ok (pos + (Extension.chain extensions).length) := by
  cases extensions with
  | nil => rfl
  | cons extension rest =>
    have fits := part.fits (List.cons_ne_nil _ _)
    have turns := Extension.length_le_chain (extension :: rest)
    rw [List.length_cons] at turns
    exact skipExtensionsLoop_of_part addressable (by omega) part

end Readers

section Decode
variable [Target]

theorem decodePushPutHead_of_part {message : PushPut} {buf : Bytes} (addressable : Addressable buf)
    (part : PartAt buf 0 message.bytes) :
    ∃ pos, decodePushPutHead buf = .ok (some (message.scope, message.suffix.getD "", pos)) ∧
      PartAt buf pos (lengthPrefixed message.payload) ∧
      pos + (lengthPrefixed message.payload).length = message.bytes.length := by
  have length := part.fits (List.ne_nil_of_length_pos message.bytes_length_pos)
  have positive := message.bytes_length_pos
  have parts := message.partsAt part
  have inside : message.pushExtensionsPos + (Extension.chain message.pushExtensions).length < buf.length :=
    parts.putHeader.fits (List.cons_ne_nil _ _)
  refine ⟨message.payloadPos, ?_, parts.payload, message.payloadPos_add_length⟩
  have nonempty : ¬(buf.isEmpty = true) := by
    rw [List.isEmpty_iff_length_eq_zero]
    omega
  rw [decodePushPutHead, if_neg nonempty, index_of_part parts.pushHeader, Outcome.ok_bind,
    message.messageId_pushHeader, if_neg (by simp), readVbyte_of_part addressable parts.scope, Outcome.ok_bind]
  simp only [message.hasFlag_pushHeader_n, message.hasFlag_pushHeader_z]
  rw [readSuffix_of_part addressable parts.suffix, Outcome.ok_bind]
  simp only
  rw [skipExtensionsIf_of_part addressable parts.pushExtensions, Outcome.ok_bind, if_neg (by omega),
    index_of_part parts.putHeader, Outcome.ok_bind,
    usizeAdd_eq (addressable.lt_usizeSize (by omega) (by omega)), Outcome.ok_bind,
    message.messageId_putHeader, if_neg (by simp), message.hasFlag_putHeader_t,
    message.hasFlag_putHeader_e, message.hasFlag_putHeader_z]
  rw [readTimestamp_of_part addressable parts.timestamp, Outcome.ok_bind,
    skipVbyteIf_of_part addressable parts.encoding, Outcome.ok_bind,
    skipExtensionsIf_of_part addressable parts.putExtensions, Outcome.ok_bind]

theorem decodePushPut_of_part {message : PushPut} {buf : Bytes} (addressable : Addressable buf)
    (part : PartAt buf 0 message.bytes) :
    decodePushPut buf = .ok (some (message.incoming, message.bytes.length)) := by
  obtain ⟨pos, head, payload, stop⟩ := decodePushPutHead_of_part addressable part
  rw [decodePushPut, head, Outcome.ok_bind]
  simp only [readSlice_of_part addressable payload, Outcome.ok_bind, stop, PushPut.incoming]

theorem decodePushPut_append (message : PushPut) (rest : Bytes) (addressable : Addressable (message.bytes ++ rest)) :
    decodePushPut (message.bytes ++ rest) = .ok (some (message.incoming, message.bytes.length)) :=
  decodePushPut_of_part addressable ⟨rest, rfl⟩

/-- Decoding a message of the grammar gives back its scope, suffix and payload
and ends where the message ends, whatever follows; the outputs of the two
encoders are such messages, with scope 0. -/
theorem decodePushPut_inverts_grammar :
    (∀ (message : PushPut) (rest : Bytes), Addressable (message.bytes ++ rest) →
      decodePushPut (message.bytes ++ rest) =
        .ok (some (⟨message.scope, message.suffix.getD "", message.payload⟩, message.bytes.length))) ∧
    (∀ (keyExpr : String) (encodingId : UInt64) (payload buf after rest : Bytes) (count : Nat),
      Addressable (utf8 keyExpr) → Addressable payload → Addressable buf →
      encodePushPut keyExpr encodingId payload buf = .ok (count, after) →
      Addressable (after.take count ++ rest) →
      decodePushPut (after.take count ++ rest) = .ok (some (⟨0, keyExpr, payload⟩, count))) ∧
    (∀ (keyExpr : String) (payload : Bytes) (seqNum timestampNs : Int64) (gid : ZenohId)
      (buf after rest : Bytes) (count : Nat),
      Addressable (utf8 keyExpr) → Addressable payload → Addressable buf →
      encodePushPutWithAttachment keyExpr payload seqNum timestampNs gid buf = .ok (count, after) →
      Addressable (after.take count ++ rest) →
      decodePushPut (after.take count ++ rest) = .ok (some (⟨0, keyExpr, payload⟩, count))) := by
  refine ⟨decodePushPut_append, ?_, ?_⟩
  · intro keyExpr encodingId payload buf after rest count key data room success fits
    have encodes := encodes_encodePushPut encodingId key data
    rw [encodes.take_eq room success, ← PushPut.bytes_inline] at fits ⊢
    rw [decodePushPut_append _ rest fits, encodes.count_eq room success, PushPut.bytes_inline]
    rfl
  · intro keyExpr payload seqNum timestampNs gid buf after rest count key data room success fits
    have encodes := encodes_encodePushPutWithAttachment seqNum timestampNs gid key data
    rw [encodes.take_eq room success, ← PushPut.bytes_publication] at fits ⊢
    rw [decodePushPut_append _ rest fits, encodes.count_eq room success, PushPut.bytes_publication]
    rfl

theorem decodePushPut_inverts_grammar_all_parts :
    let message : PushPut :=
      ⟨300, true, some "a/b", [⟨1, .unit⟩, ⟨2, .z64 7⟩], some (5, [9, 9]), some 4, [⟨3, .zbuf [1, 2]⟩], [6, 7, 8]⟩
    let written : Bytes := [0x3d, 0, 1, 0x61, 0x41, 8, 1, 6]
    let published : Bytes := [0x3d, 0, 1, 0x61, 0x81, 0x43, 33, 2, 0, 0, 0, 0, 0, 0, 0, 1, 0, 0, 0, 0, 0, 0, 0,
      16, 7, 0, 0, 0, 0, 0, 0, 0, 0, 0, 0, 0, 0, 0, 0, 0, 1, 6]
    decodePushPut (message.bytes ++ [0xFF]) = .ok (some (⟨300, "a/b", [6, 7, 8]⟩, message.bytes.length)) ∧
      decodePushPut (written ++ [0xFF]) = .ok (some (⟨0, "a", [6]⟩, 8)) ∧
      decodePushPut (published ++ [0xFF]) = .ok (some (⟨0, "a", [6]⟩, 42)) := by
  intro message written published
  obtain ⟨grammar, plain, attached⟩ := decodePushPut_inverts_grammar
  have small {buf : Bytes} (short : buf.length < 2 ^ 31) : Addressable buf := le_isizeMax short
  have key : Addressable (utf8 "a") := small (by decide +kernel)
  have data : Addressable ([6] : Bytes) := small (by decide)
  have room : Addressable (List.replicate 64 (0 : UInt8)) := small (by decide)
  refine ⟨grammar message [0xFF] (small (by decide +kernel)), ?_, ?_⟩
  · have bytes : pushPutBytes "a" 4 [6] = written := by decide +kernel
    have success := (encodes_encodePushPut 4 key data).eq_ok room (by rw [bytes]; decide)
    rw [bytes] at success
    exact plain "a" 4 [6] _ _ [0xFF] 8 key data room success (small (by decide))
  · have bytes : publicationBytes "a" [6] 2 1 (ZenohId.fromBytes [7]) = published := by decide +kernel
    have success := (encodes_encodePushPutWithAttachment 2 1 (ZenohId.fromBytes [7]) key data).eq_ok room
      (by rw [bytes]; decide)
    rw [bytes] at success
    exact attached "a" [6] 2 1 _ _ _ [0xFF] 42 key data room success (small (by decide))

end Decode
end ZenohRos2
