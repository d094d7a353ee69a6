import ZenohRos2.Lib.IntegerFormat
import ZenohRos2.Rust.Writer
import ZenohRos2.Transport.Protocol

/-! The wire codec.

A decoder takes a slice and returns what it read with the number of bytes it
consumed. Inside a decoder the readers carry the local `pos`: each one slices
`&buf[pos..]`, decodes there, and adds what was consumed to `pos`.
-/

set_option autoImplicit false

namespace ZenohRos2
open Rust

/-- `str::as_bytes` -/
def utf8 (text : String) : Bytes := text.toUTF8.data.toList

/-- `str::from_utf8` -/
def fromUtf8 (bytes : Bytes) : Option String := String.fromUTF8? ⟨bytes.toArray⟩

theorem utf8_of_fromUtf8 {bytes : Bytes} {text : String} (decoded : fromUtf8 bytes = some text) :
    utf8 text = bytes := by
  unfold fromUtf8 String.fromUTF8? at decoded
  split at decoded
  · cases decoded
    simp [utf8, String.fromUTF8]
  · cases decoded

theorem fromUtf8_utf8 (text : String) : fromUtf8 (utf8 text) = some text := by
  simp [fromUtf8, utf8, String.fromUTF8?, String.fromUTF8, text.isValidUTF8]

variable [Target]

abbrev Decode := Outcome TransportError

abbrev Encode := Put TransportError UInt8 Unit

abbrev WireEncoder := Encoder TransportError UInt8

section Encoders

def putByte (byte : UInt8) : Encode := Put.byte .frameTooLarge byte

def putIf (present : Bool) (body : Encode) : Encode := if present then body else pure ()

/-- The loop of `encode_vbyte`. Ten groups of seven bits hold every `u64`, so
nine continuation bytes are the most it writes. -/
def encodeVbyteLoop : Nat → UInt64 → Encode
  | 0, value => putByte value.toUInt8
  | groups + 1, value =>
    if value < 0x80 then putByte value.toUInt8
    else do
      putByte ((value &&& 0x7F).toUInt8 ||| 0x80)
      encodeVbyteLoop groups (value >>> 7)

def encodeVbyte (value : UInt64) : WireEncoder := Put.encoder (encodeVbyteLoop 9 value)

def encodeSlice (data : Bytes) : WireEncoder := Put.encoder do
  Put.call (encodeVbyte (UInt64.ofNat data.length))
  Put.require .frameTooLarge data.length
  Put.copy data

def encodeString (text : String) : WireEncoder := encodeSlice (utf8 text)

def encodeKeepalive : WireEncoder := Put.encoder (putByte transportId.keepAlive)

/-- Two bytes are checked for at once. -/
def encodeClose (reason : UInt8) : WireEncoder := Put.encoder do
  Put.require .frameTooLarge 2
  Put.copy [transportId.close, reason]

def encodeFrameHeader (sn : UInt64) (reliable : Bool) : WireEncoder := Put.encoder do
  putByte (transportId.frame ||| flagIf reliable frameFlag.r)
  Put.call (encodeVbyte sn)

def encodePushPut (keyExpr : String) (encodingId : UInt64) (payload : Bytes) : WireEncoder :=
  Put.encoder do
    putByte (networkId.push ||| pushFlag.n)
    Put.call (encodeVbyte 0)
    Put.call (encodeString keyExpr)
    putByte (zenohId.put ||| flagIf (encodingId != 0) putFlag.e)
    putIf (encodingId != 0) (Put.call (encodeVbyte (encodingId <<< 1)))
    Put.call (encodeSlice payload)

def i64ToLe (value : Int64) : Bytes := LittleEndian.encode 8 value.toUInt64.toNat

/-- The publisher id, zero-padded to 16 bytes. -/
def gidBytes (gid : ZenohId) : Bytes :=
  gid.asBytes.take (min gid.asBytes.length 16) ++ List.replicate (16 - min gid.asBytes.length 16) 0

def attachmentExtHeader : UInt8 := 0x43

/-- Sequence number, timestamp, GID length and GID. -/
def attachmentLen : Nat := 33

def encodePushPutWithAttachment (keyExpr : String) (payload : Bytes) (seqNum timestampNs : Int64)
    (gid : ZenohId) : WireEncoder :=
  Put.encoder do
    putByte (networkId.push ||| pushFlag.n)
    Put.call (encodeVbyte 0)
    Put.call (encodeString keyExpr)
    putByte (zenohId.put ||| putFlag.z)
    putByte attachmentExtHeader
    Put.call (encodeVbyte (UInt64.ofNat attachmentLen))
    -- This check is for all four copies that follow.
    Put.require .frameTooLarge attachmentLen
    Put.copy (i64ToLe seqNum)
    Put.copy (i64ToLe timestampNs)
    Put.copy [16]
    Put.copy (gidBytes gid)
    Put.call (encodeSlice payload)

def targetExtHeader : UInt8 := 0x24
def queryBodyExtHeader : UInt8 := 0xC3
def queryAttachmentExtHeader : UInt8 := 0x45

def encodeRequestQuery (requestId : UInt32) (keyExpr : String) (payload : Bytes) (seqNum timestampNs : Int64)
    (gid : ZenohId) : WireEncoder := Put.encoder do
  putByte (networkId.request ||| requestFlag.n ||| requestFlag.z)
  Put.call (encodeVbyte requestId.toUInt64)
  Put.call (encodeVbyte 0)
  Put.call (encodeString keyExpr)
  putByte targetExtHeader
  Put.call (encodeVbyte queryTarget.allComplete)
  putByte (zenohId.query ||| queryFlag.z)
  putByte queryBodyExtHeader
  -- The default encoding and the payload. No slice is so long that the sum overflows.
  Put.call (encodeVbyte (UInt64.ofNat (1 + payload.length)))
  Put.call (encodeVbyte 0)
  Put.require .frameTooLarge payload.length
  Put.copy payload
  putByte queryAttachmentExtHeader
  Put.call (encodeVbyte (UInt64.ofNat attachmentLen))
  Put.require .frameTooLarge attachmentLen
  Put.copy (i64ToLe seqNum)
  Put.copy (i64ToLe timestampNs)
  Put.copy [16]
  Put.copy (gidBytes gid)

/-- Scope 0 and, with the N flag, the key expression as its suffix. -/
def putInlineKey (keyExpr : String) : Encode := do
  Put.call (encodeVbyte 0)
  putIf (!keyExpr.isEmpty) (Put.call (encodeString keyExpr))

def encodeDeclareKeyexpr (keyId : UInt16) (keyExpr : String) : WireEncoder := Put.encoder do
  putByte networkId.declare
  putByte (declareId.dKeyexpr ||| flagIf (!keyExpr.isEmpty) declareKeyexprFlag.n)
  Put.call (encodeVbyte keyId.toUInt64)
  putInlineKey keyExpr

def encodeDeclareSubscriberMapped (subId : UInt32) (keyId : UInt16) : WireEncoder := Put.encoder do
  putByte networkId.declare
  putByte (declareId.dSubscriber ||| declareSubscriberFlag.m)
  Put.call (encodeVbyte subId.toUInt64)
  Put.call (encodeVbyte keyId.toUInt64)

/-- A declaration whose key expression is one that was declared before. -/
def encodeMapped (declaration : UInt8) (id : UInt32) (keyId : UInt16) : WireEncoder := Put.encoder do
  putByte networkId.declare
  putByte declaration
  Put.call (encodeVbyte id.toUInt64)
  Put.call (encodeVbyte keyId.toUInt64)

/-- Without the M flag, although its scope is a declared id. -/
def encodeDeclareSubscriber (subId : UInt32) (keyId : UInt16) : WireEncoder :=
  encodeMapped declareId.dSubscriber subId keyId

def encodeDeclareTokenMapped (tokenId : UInt32) (keyId : UInt16) : WireEncoder :=
  encodeMapped (declareId.dToken ||| declareTokenFlag.m) tokenId keyId

def encodeDeclareToken (tokenId : UInt32) (keyExpr : String) : WireEncoder := Put.encoder do
  putByte networkId.declare
  putByte (declareId.dToken ||| flagIf (!keyExpr.isEmpty) declareTokenFlag.n)
  Put.call (encodeVbyte tokenId.toUInt64)
  putInlineKey keyExpr

end Encoders

section Readers

/-- The loop of `decode_vbyte` over the bytes from index `i` on. -/
def decodeVbyteLoop (value : UInt64) (shift i : Nat) : Bytes → Decode (UInt64 × Nat)
  | [] => .err .invalidEncoding
  | byte :: rest => do
    -- At shift 63 all but the lowest bit of the group is shifted out.
    let group ← u64Shl (byte &&& 0x7F).toUInt64 shift
    let value := value ||| group
    if byte &&& 0x80 = 0 then do
      let consumed ← usizeAdd i 1
      .ok (value, consumed)
    else do
      let shift ← u32Add shift 7
      if shift ≥ 64 then .err .invalidEncoding else decodeVbyteLoop value shift (i + 1) rest

def decodeVbyte (buf : Bytes) : Decode (UInt64 × Nat) := decodeVbyteLoop 0 0 0 buf

def decodeSlice (buf : Bytes) : Decode (Bytes × Nat) := do
  let (len, hdr) ← decodeVbyte buf
  -- The length is cut to `usize` and added before anything is compared.
  let stop ← usizeAdd hdr (asUsize len)
  if stop > buf.length then .err .invalidEncoding
  else do
    let data ← sliceRange buf hdr stop
    .ok (data, stop)

def decodeZenohId (buf : Bytes) : Decode (ZenohId × Nat) :=
  if buf.isEmpty then .err .invalidEncoding
  else do
    let first ← index buf 0
    let len ← usizeAdd first.toNat 1
    let stop ← usizeAdd 1 len
    if buf.length < stop then .err .invalidEncoding
    else do
      let data ← sliceRange buf 1 stop
      .ok (ZenohId.fromBytes data, stop)

/-- `let (value, n) = decode_vbyte(&buf[pos..])?; pos += n;` -/
def readVbyte (buf : Bytes) (pos : Nat) : Decode (UInt64 × Nat) := do
  let rest ← sliceFrom buf pos
  let (value, n) ← decodeVbyte rest
  let pos ← usizeAdd pos n
  .ok (value, pos)

/-- `let (data, n) = decode_slice(&buf[pos..])?; pos += n;` -/
def readSlice (buf : Bytes) (pos : Nat) : Decode (Bytes × Nat) := do
  let rest ← sliceFrom buf pos
  let (data, n) ← decodeSlice rest
  let pos ← usizeAdd pos n
  .ok (data, pos)

/-- The bytes after an extension header, by its encoding bits. -/
def skipExtensionBody (buf : Bytes) (pos : Nat) (ext : UInt8) : Decode Nat :=
  let encoding := (ext >>> 5) &&& 0x03
  if encoding = 0 then .ok pos
  else if encoding = 1 then do
    let (_, pos) ← readVbyte buf pos
    .ok pos
  else do
    -- Encodings 2 and 3.
    let (_, pos) ← readSlice buf pos
    .ok pos

/-- The loop of `skip_extensions`. Every turn consumes the header byte, so it
ends within as many turns as there are bytes from `pos` on. -/
def skipExtensionsLoop : Nat → Bytes → Nat → Decode Nat
  | 0, _, pos => .ok pos
  | turns + 1, buf, pos =>
    if pos < buf.length then do
      let ext ← index buf pos
      let pos ← usizeAdd pos 1
      let pos ← skipExtensionBody buf pos ext
      if hasFlag ext 0x80 then skipExtensionsLoop turns buf pos else .ok pos
    else .ok pos

def skipExtensions (buf : Bytes) (pos : Nat) : Decode Nat :=
  skipExtensionsLoop (buf.length - pos) buf pos

def skipExtensionsIf (present : Bool) (buf : Bytes) (pos : Nat) : Decode Nat :=
  if present then skipExtensions buf pos else .ok pos

def readSuffix (present : Bool) (buf : Bytes) (pos : Nat) : Decode (String × Nat) :=
  if present then do
    let (bytes, pos) ← readSlice buf pos
    match fromUtf8 bytes with
    | some text => .ok (text, pos)
    | none => .err .invalidEncoding
  else .ok ("", pos)

/-- NTP64 time and the id of the clock, with the T flag of a Put. -/
def readTimestamp (present : Bool) (buf : Bytes) (pos : Nat) : Decode Nat :=
  if present then do
    let (_, pos) ← readVbyte buf pos
    let (idSize, pos) ← readVbyte buf pos
    -- Like the length of a slice, the size is added before it is compared.
    let stop ← usizeAdd pos (asUsize idSize)
    if stop > buf.length then .err .invalidEncoding else .ok stop
  else .ok pos

/-- A varint whose value is not used, such as the encoding of a Put. -/
def skipVbyteIf (present : Bool) (buf : Bytes) (pos : Nat) : Decode Nat :=
  if present then do
    let (_, pos) ← readVbyte buf pos
    .ok pos
  else .ok pos

end Readers

section Handshake

structure InitAck where
  version : UInt8
  whatami : WhatAmI
  zid : ZenohId
  cookie : Bytes
  batchSize : Option UInt16
  deriving DecidableEq

structure OpenAck where
  leaseMs : UInt64
  initialSn : UInt64
  deriving DecidableEq

def cookieCap : Nat := 256

def whatamiFrom2bit (bits : UInt8) : Decode WhatAmI :=
  if bits &&& 0b11 = 0b00 then .ok .router
  else if bits &&& 0b11 = 0b01 then .ok .peer
  else if bits &&& 0b11 = 0b10 then .ok .client
  else .err .invalidEncoding

def readBatchSize (present : Bool) (buf : Bytes) (pos : Nat) : Decode (Option UInt16 × Nat) :=
  if present then do
    let stop ← usizeAdd pos 3
    if stop > buf.length then .err .invalidEncoding
    else do
      let _ ← index buf pos
      let pos ← usizeAdd pos 1
      let low ← index buf pos
      let next ← usizeAdd pos 1
      let high ← index buf next
      let pos ← usizeAdd pos 2
      .ok (some (UInt16.ofNat (LittleEndian.value [low, high])), pos)
  else .ok (none, pos)

/-- The fields of an InitAck in front of its cookie, and where the cookie starts. -/
structure InitAckHead where
  hasExt : Bool
  version : UInt8
  whatami : WhatAmI
  zid : ZenohId
  batchSize : Option UInt16
  pos : Nat
  deriving DecidableEq

def decodeInitAckHead (buf : Bytes) : Decode InitAckHead :=
  if buf.isEmpty then .err .invalidEncoding
  else do
    let header ← index buf 0
    if messageId header ≠ transportId.init then .err .invalidEncoding
    else if !hasFlag header initFlag.a then .err .invalidEncoding
    else if 1 ≥ buf.length then .err .invalidEncoding
    else do
      let version ← index buf 1
      if 2 ≥ buf.length then .err .invalidEncoding
      else do
        let flags ← index buf 2
        let whatami ← whatamiFrom2bit flags
        let zidLen ← usizeAdd (flags >>> 4).toNat 1
        let stop ← usizeAdd 3 zidLen
        if stop > buf.length then .err .invalidEncoding
        else do
          let data ← sliceRange buf 3 stop
          let (batchSize, pos) ← readBatchSize (hasFlag header initFlag.s) buf stop
          .ok ⟨hasFlag header initFlag.z, version, whatami, ZenohId.fromBytes data, batchSize, pos⟩

/-- The extension loop is written out once more in the source, with the same body. -/
def decodeInitAck (buf : Bytes) : Decode (InitAck × Nat) := do
  let head ← decodeInitAckHead buf
  let (cookie, pos) ← readSlice buf head.pos
  -- The cookie is copied into a vector of fixed capacity.
  if cookie.length > cookieCap then .err .frameTooLarge
  else do
    let pos ← skipExtensionsIf head.hasExt buf pos
    .ok (⟨head.version, head.whatami, head.zid, cookie, head.batchSize⟩, pos)

/-- The lease is sent in seconds with the T flag, else in milliseconds. -/
def decodeOpenAck (buf : Bytes) : Decode (OpenAck × Nat) :=
  if buf.isEmpty then .err .invalidEncoding
  else do
    let header ← index buf 0
    if messageId header ≠ transportId.open_ then .err .invalidEncoding
    else if !hasFlag header openFlag.a then .err .invalidEncoding
    else do
      let (leaseVal, pos) ← readVbyte buf 1
      -- Seconds are multiplied without a check.
      let leaseMs ← if hasFlag header openFlag.t then u64Mul leaseVal 1000 else .ok leaseVal
      let (initialSn, pos) ← readVbyte buf pos
      .ok (⟨leaseMs, initialSn⟩, pos)

end Handshake

section Frames

def decodeFrameHeader (buf : Bytes) : Decode (UInt64 × Bool × Nat) :=
  if buf.isEmpty then .err .invalidEncoding
  else do
    let header ← index buf 0
    if messageId header ≠ transportId.frame then .err .invalidEncoding
    else do
      let (sn, pos) ← readVbyte buf 1
      let pos ← skipExtensionsIf (hasFlag header frameFlag.z) buf pos
      .ok (sn, hasFlag header frameFlag.r, pos)

def decodeFragmentHeader (buf : Bytes) : Decode (UInt64 × Bool × Bool × Nat) :=
  if buf.isEmpty then .err .invalidEncoding
  else do
    let header ← index buf 0
    if messageId header ≠ transportId.fragment then .err .invalidEncoding
    else do
      let (sn, pos) ← readVbyte buf 1
      let pos ← skipExtensionsIf (hasFlag header fragmentFlag.z) buf pos
      .ok (sn, hasFlag header fragmentFlag.r, hasFlag header fragmentFlag.m, pos)

inductive TransportMsgKind where
  | init
  | open_
  | close
  | keepAlive
  | frame
  | fragment
  | other (id : UInt8)
  deriving DecidableEq, Repr

def parseTransportMsgKind (header : UInt8) : TransportMsgKind :=
  let id := messageId header
  if id = transportId.init then .init
  else if id = transportId.open_ then .open_
  else if id = transportId.close then .close
  else if id = transportId.keepAlive then .keepAlive
  else if id = transportId.frame then .frame
  else if id = transportId.fragment then .fragment
  else .other id

omit [Target] in
theorem parseTransportMsgKind_frame {header : UInt8} (kind : messageId header = transportId.frame) :
    parseTransportMsgKind header = .frame := by
  unfold parseTransportMsgKind
  rw [kind]
  rfl

end Frames

section Messages

structure IncomingPut where
  scope : UInt64
  keySuffix : String
  payload : Bytes
  deriving DecidableEq

/-- Scope, suffix and the position of the payload of a Push with a Put body. -/
def decodePushPutHead (buf : Bytes) : Decode (Option (UInt64 × String × Nat)) :=
  if buf.isEmpty then .ok none
  else do
    let pushHeader ← index buf 0
    -- A message of another kind is no error: there is just no Put to return.
    if messageId pushHeader ≠ networkId.push then .ok none
    else do
      let (scope, pos) ← readVbyte buf 1
      -- The M flag is not looked at.
      let (keySuffix, pos) ← readSuffix (hasFlag pushHeader pushFlag.n) buf pos
      let pos ← skipExtensionsIf (hasFlag pushHeader pushFlag.z) buf pos
      if pos ≥ buf.length then .err .invalidEncoding
      else do
        let putHeader ← index buf pos
        let pos ← usizeAdd pos 1
        if messageId putHeader ≠ zenohId.put then .ok none
        else do
          let pos ← readTimestamp (hasFlag putHeader putFlag.t) buf pos
          let pos ← skipVbyteIf (hasFlag putHeader putFlag.e) buf pos
          let pos ← skipExtensionsIf (hasFlag putHeader putFlag.z) buf pos
          .ok (some (scope, keySuffix, pos))

def decodePushPut (buf : Bytes) : Decode (Option (IncomingPut × Nat)) := do
  match ← decodePushPutHead buf with
  | none => .ok none
  | some (scope, keySuffix, pos) => do
    let (payload, pos) ← readSlice buf pos
    .ok (some (⟨scope, keySuffix, payload⟩, pos))

structure IncomingReply where
  requestId : UInt32
  scope : UInt64
  keySuffix : String
  payload : Bytes
  deriving DecidableEq

inductive ResponseMsg where
  | reply (reply : IncomingReply)
  | final (requestId : UInt32)
  deriving DecidableEq

/-- A ResponseFinal is complete; of a Reply the payload is still to be read. -/
inductive ResponseHead where
  | final (requestId : UInt32) (pos : Nat)
  | reply (requestId : UInt32) (scope : UInt64) (keySuffix : String) (pos : Nat)
  deriving DecidableEq

def decodeResponseHead (buf : Bytes) : Decode (Option ResponseHead) :=
  if buf.isEmpty then .ok none
  else do
    let header ← index buf 0
    -- A ResponseFinal has no body: what follows its header belongs to the next message.
    if messageId header = networkId.responseFinal then do
      let (requestId, pos) ← readVbyte buf 1
      let pos ← skipExtensionsIf (hasFlag header responseFinalFlag.z) buf pos
      .ok (some (.final requestId.toUInt32 pos))
    else if messageId header ≠ networkId.response then .ok none
    else do
      let (requestId, pos) ← readVbyte buf 1
      let (scope, pos) ← readVbyte buf pos
      let (keySuffix, pos) ← readSuffix (hasFlag header responseFlag.n) buf pos
      let pos ← skipExtensionsIf (hasFlag header responseFlag.z) buf pos
      if pos ≥ buf.length then .err .invalidEncoding
      else do
        let replyHeader ← index buf pos
        let pos ← usizeAdd pos 1
        if messageId replyHeader ≠ zenohId.reply then .ok none
        else do
          let pos ← skipVbyteIf (hasFlag replyHeader replyFlag.c) buf pos
          let pos ← skipExtensionsIf (hasFlag replyHeader replyFlag.z) buf pos
          if pos ≥ buf.length then .err .invalidEncoding
          else do
            let putHeader ← index buf pos
            let pos ← usizeAdd pos 1
            if messageId putHeader ≠ zenohId.put then .ok none
            else do
              let pos ← readTimestamp (hasFlag putHeader putFlag.t) buf pos
              let pos ← skipVbyteIf (hasFlag putHeader putFlag.e) buf pos
              let pos ← skipExtensionsIf (hasFlag putHeader putFlag.z) buf pos
              .ok (some (.reply requestId.toUInt32 scope keySuffix pos))

def decodeResponse (buf : Bytes) : Decode (Option (ResponseMsg × Nat)) := do
  match ← decodeResponseHead buf with
  | none => .ok none
  | some (.final requestId pos) => .ok (some (.final requestId, pos))
  | some (.reply requestId scope keySuffix pos) => do
    let (payload, pos) ← readSlice buf pos
    .ok (some (.reply ⟨requestId, scope, keySuffix, payload⟩, pos))

end Messages
end ZenohRos2
