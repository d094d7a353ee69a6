import ZenohRos2.Transport.Handshake
import ZenohRos2.Transport.Identifiers

/-! All encoders of the codec at once.

A call of an encoder has one byte string, which its arguments determine. Every
buffer that holds it gets it at its front and is otherwise left alone.
-/

set_option autoImplicit false

namespace ZenohRos2
open Rust

inductive EncoderCall where
  | vbyte (value : UInt64)
  | zenohId (zid : ZenohId)
  | slice (data : Bytes)
  | string (text : String)
  | initSyn (msg : InitSyn)
  | openSyn (msg : OpenSyn)
  | keepalive
  | close (reason : UInt8)
  | frameHeader (sn : UInt64) (reliable : Bool)
  | pushPut (keyExpr : String) (encodingId : UInt64) (payload : Bytes)
  | pushPutWithAttachment (keyExpr : String) (payload : Bytes) (seqNum timestampNs : Int64) (gid : ZenohId)
  | declareKeyexpr (keyId : UInt16) (keyExpr : String)
  | declareSubscriber (subId : UInt32) (keyId : UInt16)
  | declareSubscriberMapped (subId : UInt32) (keyId : UInt16)
  | declareToken (tokenId : UInt32) (keyExpr : String)
  | declareTokenMapped (tokenId : UInt32) (keyId : UInt16)
  | requestQuery (requestId : UInt32) (keyExpr : String) (payload : Bytes) (seqNum timestampNs : Int64) (gid : ZenohId)

namespace EncoderCall

def bytes : EncoderCall → Bytes
  | vbyte value => ZenohRos2.vbyte value
  | zenohId zid => zenohIdBytes zid
  | slice data => lengthPrefixed data
  | string text => lengthPrefixed (utf8 text)
  | initSyn msg => initSynBytes msg
  | openSyn msg => openSynBytes msg
  | keepalive => [transportId.keepAlive]
  | close reason => [transportId.close, reason]
  | frameHeader sn reliable => frameHeaderBytes sn reliable
  | pushPut keyExpr encodingId payload => pushPutBytes keyExpr encodingId payload
  | pushPutWithAttachment keyExpr payload seqNum timestampNs gid =>
    publicationBytes keyExpr payload seqNum timestampNs gid
  | declareKeyexpr keyId keyExpr => declareKeyexprBytes keyId keyExpr
  | declareSubscriber subId keyId => mappedBytes declareId.dSubscriber subId keyId
  | declareSubscriberMapped subId keyId => declareSubscriberMappedBytes subId keyId
  | declareToken tokenId keyExpr => declareTokenBytes tokenId keyExpr
  | declareTokenMapped tokenId keyId => mappedBytes (declareId.dToken ||| declareTokenFlag.m) tokenId keyId
  | requestQuery requestId keyExpr payload seqNum timestampNs gid =>
    requestQueryBytes requestId keyExpr payload seqNum timestampNs gid

variable [Target]

def encoder : EncoderCall → WireEncoder
  | vbyte value => encodeVbyte value
  | zenohId zid => encodeZenohId zid
  | slice data => encodeSlice data
  | string text => encodeString text
  | initSyn msg => encodeInitSyn msg
  | openSyn msg => encodeOpenSyn msg
  | keepalive => encodeKeepalive
  | close reason => encodeClose reason
  | frameHeader sn reliable => encodeFrameHeader sn reliable
  | pushPut keyExpr encodingId payload => encodePushPut keyExpr encodingId payload
  | pushPutWithAttachment keyExpr payload seqNum timestampNs gid =>
    encodePushPutWithAttachment keyExpr payload seqNum timestampNs gid
  | declareKeyexpr keyId keyExpr => encodeDeclareKeyexpr keyId keyExpr
  | declareSubscriber subId keyId => encodeDeclareSubscriber subId keyId
  | declareSubscriberMapped subId keyId => encodeDeclareSubscriberMapped subId keyId
  | declareToken tokenId keyExpr => encodeDeclareToken tokenId keyExpr
  | declareTokenMapped tokenId keyId => encodeDeclareTokenMapped tokenId keyId
  | requestQuery requestId keyExpr payload seqNum timestampNs gid =>
    encodeRequestQuery requestId keyExpr payload seqNum timestampNs gid

/-- The arguments are slices that exist, and the id of an InitSyn is not empty. -/
def Callable : EncoderCall → Prop
  | slice data => Addressable data
  | string text => Addressable (utf8 text)
  | initSyn msg => 0 < msg.zid.asBytes.length
  | openSyn msg => Addressable msg.cookie
  | pushPut keyExpr _ payload => Addressable (utf8 keyExpr) ∧ Addressable payload
  | pushPutWithAttachment keyExpr payload _ _ _ => Addressable (utf8 keyExpr) ∧ Addressable payload
  | declareKeyexpr _ keyExpr => Addressable (utf8 keyExpr)
  | declareToken _ keyExpr => Addressable (utf8 keyExpr)
  | requestQuery _ keyExpr payload _ _ _ => Addressable (utf8 keyExpr) ∧ Addressable payload
  | _ => True

theorem encodes {call : EncoderCall} (callable : call.Callable) :
    Encodes TransportError.frameTooLarge call.encoder call.bytes := by
  cases call with
  | vbyte value => exact encodes_encodeVbyte value
  | zenohId zid => exact encodes_encodeZenohId zid
  | slice data => exact encodes_encodeSlice callable
  | string text => exact encodes_encodeString callable
  | initSyn msg => exact encodes_encodeInitSyn callable
  | openSyn msg => exact encodes_encodeOpenSyn callable
  | keepalive => exact encodes_encodeKeepalive
  | close reason => exact encodes_encodeClose reason
  | frameHeader sn reliable => exact encodes_encodeFrameHeader sn reliable
  | pushPut keyExpr encodingId payload => exact encodes_encodePushPut encodingId callable.1 callable.2
  | pushPutWithAttachment keyExpr payload seqNum timestampNs gid =>
    exact encodes_encodePushPutWithAttachment seqNum timestampNs gid callable.1 callable.2
  | declareKeyexpr keyId keyExpr => exact encodes_encodeDeclareKeyexpr keyId callable
  | declareSubscriber subId keyId => exact encodes_encodeMapped _ subId keyId
  | declareSubscriberMapped subId keyId => exact encodes_encodeDeclareSubscriberMapped subId keyId
  | declareToken tokenId keyExpr => exact encodes_encodeDeclareToken tokenId callable
  | declareTokenMapped tokenId keyId => exact encodes_encodeMapped _ tokenId keyId
  | requestQuery requestId keyExpr payload seqNum timestampNs gid =>
    exact encodes_encodeRequestQuery requestId seqNum timestampNs gid callable.1 callable.2

end EncoderCall

variable [Target]

/-- A call writes the bytes of its arguments at the front of any buffer that they fit in and nothing behind them; for
any other buffer it returns the error. -/
theorem encoders_exact (call : EncoderCall) (callable : call.Callable) (buf : Bytes) (addressable : Addressable buf) :
    (call.bytes.length ≤ buf.length → ∃ after, call.encoder buf = .ok (call.bytes.length, after) ∧
      after.length = buf.length ∧ after.take call.bytes.length = call.bytes ∧
      after.drop call.bytes.length = buf.drop call.bytes.length) ∧
    (buf.length < call.bytes.length → call.encoder buf = .err .frameTooLarge) := by
  rw [EncoderCall.encodes callable buf addressable]
  constructor
  · intro fits
    refine ⟨call.bytes ++ buf.drop call.bytes.length, if_pos fits, ?_, List.take_left, List.drop_left⟩
    rw [List.length_append, List.length_drop]
    omega
  · intro short
    rw [if_neg (by omega)]

omit [Target] in
/-- A key expression that fits exactly, and one byte less of room. -/
theorem encoders_exact_declareKeyexpr :
    letI := target64
    (∃ after, encodeDeclareKeyexpr 300 "ab" (List.replicate 9 0xEE) = .ok (8, after) ∧ after.length = 9 ∧
      after.take 8 = [0x1e, 0x20, 0xAC, 2, 0, 2, 0x61, 0x62] ∧ after.drop 8 = [0xEE]) ∧
      encodeDeclareKeyexpr 300 "ab" (List.replicate 7 0xEE) = .err .frameTooLarge := by
  let := target64
  have key : Addressable (utf8 "ab") := le_isizeMax (by decide +kernel)
  have bytes : declareKeyexprBytes 300 "ab" = [0x1e, 0x20, 0xAC, 2, 0, 2, 0x61, 0x62] := by decide +kernel
  have wide := (encoders_exact (.declareKeyexpr 300 "ab") key (List.replicate 9 0xEE) (le_isizeMax (by decide))).1
  have narrow := (encoders_exact (.declareKeyexpr 300 "ab") key (List.replicate 7 0xEE) (le_isizeMax (by decide))).2
  simp only [EncoderCall.bytes, EncoderCall.encoder, bytes] at wide narrow
  exact ⟨wide (by decide), narrow (by decide)⟩

end ZenohRos2
