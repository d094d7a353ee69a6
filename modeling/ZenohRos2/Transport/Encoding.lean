import ZenohRos2.Transport.Codec

/-! What each encoder writes. -/

set_option autoImplicit false

namespace ZenohRos2
open Rust

def vbyte (value : UInt64) : Bytes := Leb128.encode value.toNat

def lengthPrefixed (data : Bytes) : Bytes := vbyte (UInt64.ofNat data.length) ++ data

theorem vbyte_length_pos (value : UInt64) : 0 < (vbyte value).length := Leb128.encode_length_pos _

theorem vbyte_length_le (value : UInt64) : (vbyte value).length ≤ 10 :=
  Leb128.encode_uint64_length_le value

theorem vbyte_length_le_of_lt {value : UInt64} {groups : Nat} (small : value.toNat < 128 ^ (groups + 1)) :
    (vbyte value).length ≤ groups + 1 := Leb128.encode_length_le groups _ small

@[simp] theorem i64ToLe_length (value : Int64) : (i64ToLe value).length = 8 :=
  LittleEndian.encode_length 8 _

theorem gidBytes_length (gid : ZenohId) : (gidBytes gid).length = 16 := by
  have bound := gid.asBytes_length_le
  simp only [gidBytes, List.length_append, List.length_take, List.length_replicate]
  omega

def attachment (seqNum timestampNs : Int64) (gid : ZenohId) : Bytes :=
  i64ToLe seqNum ++ (i64ToLe timestampNs ++ ([16] ++ gidBytes gid))

theorem attachment_length (seqNum timestampNs : Int64) (gid : ZenohId) :
    (attachment seqNum timestampNs gid).length = attachmentLen := by
  simp [attachment, gidBytes_length, attachmentLen]

def pushPutBytes (keyExpr : String) (encodingId : UInt64) (payload : Bytes) : Bytes :=
  [networkId.push ||| pushFlag.n] ++ (vbyte 0 ++ (lengthPrefixed (utf8 keyExpr) ++
    ([zenohId.put ||| flagIf (encodingId != 0) putFlag.e] ++
      ((if encodingId != 0 then vbyte (encodingId <<< 1) else []) ++ lengthPrefixed payload))))

def publicationBytes (keyExpr : String) (payload : Bytes) (seqNum timestampNs : Int64)
    (gid : ZenohId) : Bytes :=
  [networkId.push ||| pushFlag.n] ++ (vbyte 0 ++ (lengthPrefixed (utf8 keyExpr) ++
    ([zenohId.put ||| putFlag.z] ++ ([attachmentExtHeader] ++ (vbyte (UInt64.ofNat attachmentLen) ++
      (attachment seqNum timestampNs gid ++ lengthPrefixed payload))))))

def requestQueryBytes (requestId : UInt32) (keyExpr : String) (payload : Bytes) (seqNum timestampNs : Int64)
    (gid : ZenohId) : Bytes :=
  [networkId.request ||| requestFlag.n ||| requestFlag.z] ++ (vbyte requestId.toUInt64 ++ (vbyte 0 ++
    (lengthPrefixed (utf8 keyExpr) ++ ([targetExtHeader] ++ (vbyte queryTarget.allComplete ++
      ([zenohId.query ||| queryFlag.z] ++ ([queryBodyExtHeader] ++ (vbyte (UInt64.ofNat (1 + payload.length)) ++
        (vbyte 0 ++ (payload ++ ([queryAttachmentExtHeader] ++ (vbyte (UInt64.ofNat attachmentLen) ++
          attachment seqNum timestampNs gid))))))))))))

def frameHeaderBytes (sn : UInt64) (reliable : Bool) : Bytes :=
  [transportId.frame ||| flagIf reliable frameFlag.r] ++ vbyte sn

theorem frameHeaderBytes_length_le (sn : UInt64) (reliable : Bool) : (frameHeaderBytes sn reliable).length ≤ 11 := by
  have size := vbyte_length_le sn
  simp only [frameHeaderBytes, List.length_append, List.length_singleton]
  omega

private theorem group_toUInt8 (value : UInt64) : value.toUInt8 = UInt8.ofNat value.toNat := by
  apply UInt8.toNat_inj.mp
  rw [UInt64.toNat_toUInt8, UInt8.toNat_ofNat']

private theorem continuation (group : UInt8) :
    (group &&& 0x7F) ||| 0x80 = UInt8.ofNat (group.toNat % 128 + 128) := by
  revert group
  apply forall_uint8
  decide +kernel

private theorem continuation_toUInt8 (value : UInt64) :
    (value &&& 0x7F).toUInt8 ||| 0x80 = UInt8.ofNat (value.toNat % 128 + 128) := by
  have low : value.toUInt8.toNat % 128 = value.toNat % 128 := by
    rw [UInt64.toNat_toUInt8]
    omega
  rw [UInt64.toUInt8_and, ← low]
  exact continuation _

private theorem shiftRight_toNat (value : UInt64) : (value >>> 7).toNat = value.toNat / 128 := by
  rw [UInt64.toNat_shiftRight]
  simp [Nat.shiftRight_eq_div_pow]

/-- The suffix of an inline key expression is left out when it is empty. -/
def inlineKeyBytes (keyExpr : String) : Bytes :=
  vbyte 0 ++ if !keyExpr.isEmpty then lengthPrefixed (utf8 keyExpr) else []

def declareKeyexprBytes (keyId : UInt16) (keyExpr : String) : Bytes :=
  [networkId.declare] ++ ([declareId.dKeyexpr ||| flagIf (!keyExpr.isEmpty) declareKeyexprFlag.n] ++
    (vbyte keyId.toUInt64 ++ inlineKeyBytes keyExpr))

def declareSubscriberMappedBytes (subId : UInt32) (keyId : UInt16) : Bytes :=
  [networkId.declare] ++ ([declareId.dSubscriber ||| declareSubscriberFlag.m] ++
    (vbyte subId.toUInt64 ++ vbyte keyId.toUInt64))

def mappedBytes (declaration : UInt8) (id : UInt32) (keyId : UInt16) : Bytes :=
  [networkId.declare] ++ ([declaration] ++ (vbyte id.toUInt64 ++ vbyte keyId.toUInt64))

def declareTokenBytes (tokenId : UInt32) (keyExpr : String) : Bytes :=
  [networkId.declare] ++ ([declareId.dToken ||| flagIf (!keyExpr.isEmpty) declareTokenFlag.n] ++
    (vbyte tokenId.toUInt64 ++ inlineKeyBytes keyExpr))

section Encoders
variable [Target]

theorem puts_putByte (byte : UInt8) : Puts TransportError.frameTooLarge (putByte byte) [byte] :=
  puts_byte byte

theorem puts_putIf (present : Bool) {body : Encode} {bytes : Bytes}
    (puts : Puts TransportError.frameTooLarge body bytes) :
    Puts TransportError.frameTooLarge (putIf present body) (if present then bytes else []) :=
  Puts.cond puts Puts.pure_nil

theorem puts_encodeVbyteLoop (groups : Nat) (value : UInt64) (small : value.toNat < 128 ^ (groups + 1)) :
    Puts TransportError.frameTooLarge (encodeVbyteLoop groups value) (vbyte value) := by
  induction groups generalizing value with
  | zero =>
    have low : value.toNat < 128 := by simpa using small
    rw [encodeVbyteLoop, vbyte, Leb128.encode_of_lt low, group_toUInt8]
    exact puts_putByte _
  -- One group is written for each turn of the loop, as `Leb128.encode` does.
  | succ groups ih =>
    rw [encodeVbyteLoop]
    by_cases low : value < 0x80
    · have small : value.toNat < 128 := by simpa using UInt64.lt_iff_toNat_lt.mp low
      rw [if_pos low, vbyte, Leb128.encode_of_lt small, group_toUInt8]
      exact puts_putByte _
    · have high : 128 ≤ value.toNat := by simpa using UInt64.le_iff_toNat_le.mp (UInt64.not_lt.mp low)
      have next : (value >>> 7).toNat < 128 ^ (groups + 1) := by
        rw [shiftRight_toNat, Nat.div_lt_iff_lt_mul (by decide)]
        rwa [Nat.pow_succ] at small
      rw [if_neg low, vbyte, Leb128.encode_of_le high, continuation_toUInt8, ← shiftRight_toNat]
      exact Puts.seq (puts_putByte _) (ih _ next)

theorem encodes_encodeVbyte (value : UInt64) :
    Encodes TransportError.frameTooLarge (encodeVbyte value) (vbyte value) :=
  encodes_encoder (puts_encodeVbyteLoop 9 value (Nat.lt_of_lt_of_le value.toNat_lt (by decide)))

theorem encodes_encodeSlice {data : Bytes} (addressable : Addressable data) :
    Encodes TransportError.frameTooLarge (encodeSlice data) (lengthPrefixed data) :=
  encodes_encoder (Puts.seq (puts_call (encodes_encodeVbyte _))
    (puts_require (copies_copy data) rfl addressable))

theorem encodes_encodeString {text : String} (addressable : Addressable (utf8 text)) :
    Encodes TransportError.frameTooLarge (encodeString text) (lengthPrefixed (utf8 text)) :=
  encodes_encodeSlice addressable

theorem encodes_encodeKeepalive :
    Encodes TransportError.frameTooLarge encodeKeepalive [transportId.keepAlive] :=
  encodes_encoder (puts_putByte _)

theorem encodes_encodeClose (reason : UInt8) :
    Encodes TransportError.frameTooLarge (encodeClose reason) [transportId.close, reason] :=
  encodes_encoder (puts_require (copies_copy _) rfl (le_isizeMax (show 2 < 2 ^ 31 by decide)))

theorem encodes_encodeFrameHeader (sn : UInt64) (reliable : Bool) :
    Encodes TransportError.frameTooLarge (encodeFrameHeader sn reliable) (frameHeaderBytes sn reliable) :=
  encodes_encoder (Puts.seq (puts_putByte _) (puts_call (encodes_encodeVbyte sn)))

theorem encodes_encodePushPut {keyExpr : String} {payload : Bytes} (encodingId : UInt64)
    (key : Addressable (utf8 keyExpr)) (addressable : Addressable payload) :
    Encodes TransportError.frameTooLarge (encodePushPut keyExpr encodingId payload)
      (pushPutBytes keyExpr encodingId payload) := by
  apply encodes_encoder
  refine Puts.seq (puts_putByte _) (Puts.seq (puts_call (encodes_encodeVbyte 0)) ?_)
  refine Puts.seq (puts_call (encodes_encodeString key)) (Puts.seq (puts_putByte _) ?_)
  exact Puts.seq (puts_putIf _ (puts_call (encodes_encodeVbyte _)))
    (puts_call (encodes_encodeSlice addressable))

theorem puts_attachment (seqNum timestampNs : Int64) (gid : ZenohId) :
    Puts TransportError.frameTooLarge
      (do Put.require .frameTooLarge attachmentLen
          Put.copy (i64ToLe seqNum)
          Put.copy (i64ToLe timestampNs)
          Put.copy [16]
          Put.copy (gidBytes gid))
      (attachment seqNum timestampNs gid) := by
  refine puts_require ?_ (attachment_length seqNum timestampNs gid).symm ?_
  · exact Copies.seq (copies_copy _) (Copies.seq (copies_copy _) (Copies.seq (copies_copy _) (copies_copy _)))
  · exact le_isizeMax (by rw [attachment_length]; decide)

theorem encodes_encodePushPutWithAttachment {keyExpr : String} {payload : Bytes}
    (seqNum timestampNs : Int64) (gid : ZenohId)
    (key : Addressable (utf8 keyExpr)) (addressable : Addressable payload) :
    Encodes TransportError.frameTooLarge
      (encodePushPutWithAttachment keyExpr payload seqNum timestampNs gid)
      (publicationBytes keyExpr payload seqNum timestampNs gid) := by
  apply encodes_encoder
  refine Puts.seq (puts_putByte _) (Puts.seq (puts_call (encodes_encodeVbyte 0)) ?_)
  refine Puts.seq (puts_call (encodes_encodeString key)) (Puts.seq (puts_putByte _) ?_)
  refine Puts.seq (puts_putByte _) (Puts.seq (puts_call (encodes_encodeVbyte _)) ?_)
  have tail := Puts.seq (puts_attachment seqNum timestampNs gid) (puts_call (encodes_encodeSlice addressable))
  simpa only [bind_assoc] using tail

theorem encodes_encodeRequestQuery {keyExpr : String} {payload : Bytes} (requestId : UInt32)
    (seqNum timestampNs : Int64) (gid : ZenohId)
    (key : Addressable (utf8 keyExpr)) (addressable : Addressable payload) :
    Encodes TransportError.frameTooLarge
      (encodeRequestQuery requestId keyExpr payload seqNum timestampNs gid)
      (requestQueryBytes requestId keyExpr payload seqNum timestampNs gid) := by
  have content : Puts TransportError.frameTooLarge
      (do Put.require .frameTooLarge payload.length; Put.copy payload) payload :=
    puts_require (copies_copy payload) rfl addressable
  have tail := Puts.seq content (Puts.seq (puts_putByte queryAttachmentExtHeader)
    (Puts.seq (puts_call (encodes_encodeVbyte (UInt64.ofNat attachmentLen))) (puts_attachment seqNum timestampNs gid)))
  apply encodes_encoder
  refine Puts.seq (puts_putByte _) (Puts.seq (puts_call (encodes_encodeVbyte _)) ?_)
  refine Puts.seq (puts_call (encodes_encodeVbyte 0)) (Puts.seq (puts_call (encodes_encodeString key)) ?_)
  refine Puts.seq (puts_putByte _) (Puts.seq (puts_call (encodes_encodeVbyte _)) ?_)
  refine Puts.seq (puts_putByte _) (Puts.seq (puts_putByte _) ?_)
  refine Puts.seq (puts_call (encodes_encodeVbyte _)) (Puts.seq (puts_call (encodes_encodeVbyte 0)) ?_)
  simpa only [bind_assoc] using tail

theorem puts_putInlineKey {keyExpr : String} (key : Addressable (utf8 keyExpr)) :
    Puts TransportError.frameTooLarge (putInlineKey keyExpr) (inlineKeyBytes keyExpr) :=
  Puts.seq (puts_call (encodes_encodeVbyte 0)) (puts_putIf _ (puts_call (encodes_encodeString key)))

theorem encodes_encodeDeclareKeyexpr {keyExpr : String} (keyId : UInt16) (key : Addressable (utf8 keyExpr)) :
    Encodes TransportError.frameTooLarge (encodeDeclareKeyexpr keyId keyExpr)
      (declareKeyexprBytes keyId keyExpr) := by
  refine encodes_encoder (Puts.seq (puts_putByte _) (Puts.seq (puts_putByte _) ?_))
  exact Puts.seq (puts_call (encodes_encodeVbyte _)) (puts_putInlineKey key)

theorem encodes_encodeMapped (declaration : UInt8) (id : UInt32) (keyId : UInt16) :
    Encodes TransportError.frameTooLarge (encodeMapped declaration id keyId) (mappedBytes declaration id keyId) := by
  refine encodes_encoder (Puts.seq (puts_putByte _) (Puts.seq (puts_putByte _) ?_))
  exact Puts.seq (puts_call (encodes_encodeVbyte _)) (puts_call (encodes_encodeVbyte _))

theorem encodes_encodeDeclareSubscriberMapped (subId : UInt32) (keyId : UInt16) :
    Encodes TransportError.frameTooLarge (encodeDeclareSubscriberMapped subId keyId)
      (declareSubscriberMappedBytes subId keyId) :=
  encodes_encodeMapped (declareId.dSubscriber ||| declareSubscriberFlag.m) subId keyId

theorem encodes_encodeDeclareToken {keyExpr : String} (tokenId : UInt32) (key : Addressable (utf8 keyExpr)) :
    Encodes TransportError.frameTooLarge (encodeDeclareToken tokenId keyExpr) (declareTokenBytes tokenId keyExpr) := by
  refine encodes_encoder (Puts.seq (puts_putByte _) (Puts.seq (puts_putByte _) ?_))
  exact Puts.seq (puts_call (encodes_encodeVbyte _)) (puts_putInlineKey key)

theorem exists_cursor_behind_header {size : Nat} {message : WireEncoder} {bytes : Bytes} (sn : UInt64)
    (encodes : Encodes TransportError.frameTooLarge message bytes) (array : size ≤ isizeMax)
    (room : (frameHeaderBytes sn true).length ≤ size) :
    ∃ cursor : Cursor UInt8, encodeFrameHeader sn true (List.replicate size 0) = .ok (cursor.pos, cursor.buf) ∧
      Put.call message cursor = (if (frameHeaderBytes sn true ++ bytes).length ≤ size then .ok ((), cursor.written bytes)
        else .err .frameTooLarge) ∧
      ((frameHeaderBytes sn true ++ bytes).length ≤ size →
        (sliceRange (cursor.written bytes).buf 0 (cursor.written bytes).pos : Outcome Error Bytes) =
          .ok (frameHeaderBytes sn true ++ bytes)) := by
  have addressable : Addressable (List.replicate size (0 : UInt8)) := by
    unfold Addressable
    rwa [List.length_replicate]
  let buf := frameHeaderBytes sn true ++ (List.replicate size (0 : UInt8)).drop (frameHeaderBytes sn true).length
  have length : buf.length = size := by simp [buf]; omega
  let cursor : Cursor UInt8 := ⟨buf, (frameHeaderBytes sn true).length⟩
  have valid : cursor.Valid := ⟨by simp only [cursor]; omega, show buf.length ≤ _ from length ▸ array⟩
  have same : (frameHeaderBytes sn true ++ bytes).length ≤ size ↔ cursor.pos + bytes.length ≤ cursor.buf.length := by
    rw [List.length_append, ← length]
  refine ⟨cursor, (encodes_encodeFrameHeader sn true).eq_ok addressable (by simpa using room), ?_, fun fits => ?_⟩
  · rw [puts_call encodes cursor valid]
    simp only [same]
  · have short := same.mp fits
    have inside : (cursor.written bytes).pos ≤ (cursor.written bytes).buf.length := by
      rw [Cursor.written_length short, Cursor.written_pos]
      exact short
    rw [sliceRange, if_pos ⟨Nat.zero_le _, inside⟩, List.drop_zero, Cursor.written_pos,
      Cursor.take_written valid.inside, List.take_left]

end Encoders
end ZenohRos2
