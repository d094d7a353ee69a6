import ZenohRos2.Transport.PushPut

/-! Frames, and the messages in their bodies.

`received` takes a frame apart as a receiver of all its messages does: it
decodes the body with `decode_push_put` again and again, and reads the
attachment of each message out of its extension.
-/

set_option autoImplicit false

namespace ZenohRos2
open Rust

structure FrameHead where
  sn : UInt64
  reliable : Bool
  extensions : List Extension
  deriving DecidableEq

namespace FrameHead

def headerByte (head : FrameHead) : UInt8 :=
  header transportId.frame head.reliable false (!head.extensions.isEmpty)

def bytes (head : FrameHead) : Bytes :=
  [head.headerByte] ++ (vbyte head.sn ++ Extension.chain head.extensions)

theorem messageId_headerByte (head : FrameHead) : messageId head.headerByte = transportId.frame :=
  messageId_header _ _ _ _

theorem hasFlag_headerByte_r (head : FrameHead) : hasFlag head.headerByte frameFlag.r = head.reliable :=
  hasFlag_header_bit5 _ _ _ _ (by decide)

theorem hasFlag_headerByte_z (head : FrameHead) :
    hasFlag head.headerByte frameFlag.z = !head.extensions.isEmpty :=
  hasFlag_header_bit7 _ _ _ _ (by decide)

end FrameHead

/-- A Frame whose body holds the given messages one after the other. -/
def frameOf (head : FrameHead) (messages : List PushPut) : Bytes :=
  head.bytes ++ messages.flatMap PushPut.bytes

theorem FrameHead.bytes_plain (sn : UInt64) (reliable : Bool) :
    (FrameHead.mk sn reliable []).bytes = frameHeaderBytes sn reliable := by
  have plain : header transportId.frame reliable false false = transportId.frame ||| flagIf reliable frameFlag.r := by
    cases reliable <;> decide
  simp [FrameHead.bytes, FrameHead.headerByte, frameHeaderBytes, Extension.chain, ← plain]

structure Received where
  keyExpr : String
  attachment : Option Bytes
  payload : Bytes
  deriving DecidableEq

def attachedInt (attachment : Bytes) (pos : Nat) : Int64 :=
  (UInt64.ofNat (LittleEndian.value ((attachment.drop pos).take 8))).toInt64

section Decode
variable [Target]

theorem decodeFrameHeader_of_part {head : FrameHead} {buf : Bytes} (addressable : Addressable buf)
    (part : PartAt buf 0 head.bytes) :
    decodeFrameHeader buf = .ok (head.sn, head.reliable, head.bytes.length) := by
  have length := part.fits (by simp [FrameHead.bytes])
  unfold FrameHead.bytes at part
  obtain ⟨first, part⟩ := PartAt.append_iff.mp part
  obtain ⟨sn, extensions⟩ := PartAt.append_iff.mp part
  simp only [List.length_singleton, Nat.zero_add] at sn extensions
  have nonempty : ¬(buf.isEmpty = true) := by
    rw [List.isEmpty_iff_length_eq_zero]
    simp only [FrameHead.bytes, List.length_append, List.length_singleton] at length
    omega
  rw [decodeFrameHeader, if_neg nonempty, index_of_part first, Outcome.ok_bind, head.messageId_headerByte,
    if_neg (by simp), readVbyte_of_part addressable sn, Outcome.ok_bind]
  simp only [head.hasFlag_headerByte_z, head.hasFlag_headerByte_r]
  rw [skipExtensionsIf_of_part addressable extensions, Outcome.ok_bind]
  simp only [FrameHead.bytes, List.length_append, List.length_singleton, Nat.add_assoc]

/-- The body of the attachment extension of a Push with a Put body. -/
def readAttachment (message : Bytes) : Decode Bytes := do
  let pushHeader ← index message 0
  let (_, pos) ← readVbyte message 1
  let (_, pos) ← readSuffix (hasFlag pushHeader pushFlag.n) message pos
  let pos ← skipExtensionsIf (hasFlag pushHeader pushFlag.z) message pos
  let putHeader ← index message pos
  let pos ← readTimestamp (hasFlag putHeader putFlag.t) message (pos + 1)
  let pos ← skipVbyteIf (hasFlag putHeader putFlag.e) message pos
  let extension ← index message pos
  if extension ≠ attachmentExtHeader then .err .invalidEncoding
  else do
    let (attachment, _) ← readSlice message (pos + 1)
    .ok attachment

def attachmentOf (message : Bytes) : Option Bytes :=
  match readAttachment message with
  | .ok attachment => some attachment
  | _ => none

/-- Messages are decoded one after the other, until one does not decode. -/
def decodeMessages : Nat → Bytes → List Received
  | 0, _ => []
  | turns + 1, body =>
    match decodePushPut body with
    | .ok (some (put, consumed)) =>
      ⟨put.keySuffix, attachmentOf (body.take consumed), put.payload⟩ ::
        decodeMessages turns (body.drop consumed)
    | _ => []

def received (frame : Bytes) : List Received :=
  match decodeFrameHeader frame with
  | .ok (_, _, pos) => decodeMessages frame.length (frame.drop pos)
  | _ => []

def frameSn (frame : Bytes) : Option UInt64 :=
  match decodeFrameHeader frame with
  | .ok (sn, _, _) => some sn
  | _ => none

def PushPut.received (message : PushPut) : Received :=
  ⟨message.suffix.getD "", attachmentOf message.bytes, message.payload⟩

theorem decodeMessages_flatMap {turns : Nat} {messages : List PushPut} (enough : messages.length ≤ turns)
    (addressable : Addressable (messages.flatMap PushPut.bytes)) :
    decodeMessages turns (messages.flatMap PushPut.bytes) = messages.map PushPut.received := by
  induction turns generalizing messages with
  | zero =>
    rw [List.eq_nil_of_length_eq_zero (Nat.le_zero.mp enough)]
    rfl
  | succ turns ih =>
    cases messages with
    | nil => rfl
    | cons message rest =>
      rw [List.flatMap_cons] at addressable ⊢
      rw [decodeMessages, decodePushPut_append message _ addressable]
      simp only [List.take_left, List.drop_left, List.map_cons, PushPut.received, PushPut.incoming]
      rw [ih (Nat.le_of_succ_le_succ enough) (addressable.of_length_le (by simp))]

omit [Target] in
theorem length_le_flatMap_bytes (messages : List PushPut) :
    messages.length ≤ (messages.flatMap PushPut.bytes).length := by
  induction messages with
  | nil => exact Nat.zero_le _
  | cons message rest ih =>
    have positive := message.bytes_length_pos
    rw [List.flatMap_cons, List.length_append, List.length_cons]
    omega

omit [Target] in
theorem bytes_length_le_flatMap {message : PushPut} {messages : List PushPut} (member : message ∈ messages) :
    message.bytes.length ≤ (messages.flatMap PushPut.bytes).length := by
  obtain ⟨before, after, rfl⟩ := List.append_of_mem member
  simp only [List.flatMap_append, List.flatMap_cons, List.length_append]
  omega

theorem received_frameOf {head : FrameHead} {messages : List PushPut}
    (addressable : Addressable (frameOf head messages)) :
    received (frameOf head messages) = messages.map PushPut.received := by
  have part : PartAt (frameOf head messages) 0 head.bytes := ⟨_, rfl⟩
  unfold received
  rw [decodeFrameHeader_of_part addressable part]
  simp only [frameOf, List.drop_left]
  refine decodeMessages_flatMap ?_ (addressable.of_length_le (by simp [frameOf]))
  rw [List.length_append]
  exact Nat.le_trans (length_le_flatMap_bytes messages) (Nat.le_add_left _ _)

theorem frameSn_append {head : FrameHead} {body : Bytes} (addressable : Addressable (head.bytes ++ body)) :
    frameSn (head.bytes ++ body) = some head.sn := by
  have part : PartAt (head.bytes ++ body) 0 head.bytes := ⟨_, rfl⟩
  unfold frameSn
  rw [decodeFrameHeader_of_part addressable part]

theorem frameSn_frameOf {head : FrameHead} {messages : List PushPut}
    (addressable : Addressable (frameOf head messages)) : frameSn (frameOf head messages) = some head.sn :=
  frameSn_append addressable

theorem readAttachment_of_part {buf : Bytes} {keyExpr : String} {payload : Bytes} {seqNum timestampNs : Int64}
    {gid : ZenohId} (addressable : Addressable buf)
    (part : PartAt buf 0 (PushPut.publication keyExpr payload seqNum timestampNs gid).bytes) :
    readAttachment buf = .ok (attachment seqNum timestampNs gid) := by
  have chain : (PushPut.publication keyExpr payload seqNum timestampNs gid).putExtensions =
      [⟨3, .zbuf (attachment seqNum timestampNs gid)⟩] := rfl
  generalize PushPut.publication keyExpr payload seqNum timestampNs gid = message at part chain
  have parts := message.partsAt part
  have extensions := parts.putExtensions
  rw [chain] at extensions
  -- The attachment is the only extension: its header byte stands where the chain starts.
  obtain ⟨extension, body⟩ := PartAt.append_iff.mp (show PartAt buf _
    ([Extension.headerByte ⟨3, .zbuf (attachment seqNum timestampNs gid)⟩ false] ++
      lengthPrefixed (attachment seqNum timestampNs gid)) from (PartAt.append_iff.mp extensions).1)
  rw [List.length_singleton] at body
  rw [readAttachment, index_of_part parts.pushHeader, Outcome.ok_bind, readVbyte_of_part addressable parts.scope,
    Outcome.ok_bind]
  simp only [message.hasFlag_pushHeader_n, message.hasFlag_pushHeader_z]
  rw [readSuffix_of_part addressable parts.suffix, Outcome.ok_bind]
  simp only
  rw [skipExtensionsIf_of_part addressable parts.pushExtensions, Outcome.ok_bind, index_of_part parts.putHeader,
    Outcome.ok_bind, message.hasFlag_putHeader_t, message.hasFlag_putHeader_e,
    readTimestamp_of_part addressable parts.timestamp, Outcome.ok_bind,
    skipVbyteIf_of_part addressable parts.encoding, Outcome.ok_bind, index_of_part extension, Outcome.ok_bind,
    if_neg (not_not_intro (headerByte_attachment _)), readSlice_of_part addressable body, Outcome.ok_bind]

theorem received_publication {keyExpr : String} {payload : Bytes} {seqNum timestampNs : Int64} {gid : ZenohId}
    (addressable : Addressable (PushPut.publication keyExpr payload seqNum timestampNs gid).bytes) :
    (PushPut.publication keyExpr payload seqNum timestampNs gid).received =
      ⟨keyExpr, some (attachment seqNum timestampNs gid), payload⟩ := by
  have part : PartAt (PushPut.publication keyExpr payload seqNum timestampNs gid).bytes 0
      (PushPut.publication keyExpr payload seqNum timestampNs gid).bytes := ⟨[], by simp⟩
  unfold PushPut.received attachmentOf
  rw [readAttachment_of_part addressable part]
  rfl

end Decode

theorem attachedInt_seqNum (seqNum timestampNs : Int64) (gid : ZenohId) :
    attachedInt (attachment seqNum timestampNs gid) 0 = seqNum := by
  unfold attachedInt attachment
  rw [List.drop_zero, List.take_left' (i64ToLe_length seqNum), i64ToLe, LittleEndian.value_encode_of_lt,
    UInt64.ofNat_toNat]
  · rfl
  · exact seqNum.toUInt64.toNat_lt

theorem attachedInt_timestampNs (seqNum timestampNs : Int64) (gid : ZenohId) :
    attachedInt (attachment seqNum timestampNs gid) 8 = timestampNs := by
  unfold attachedInt attachment
  rw [List.drop_left' (i64ToLe_length seqNum), List.take_left' (i64ToLe_length timestampNs), i64ToLe,
    LittleEndian.value_encode_of_lt, UInt64.ofNat_toNat]
  · rfl
  · exact timestampNs.toUInt64.toNat_lt

end ZenohRos2
