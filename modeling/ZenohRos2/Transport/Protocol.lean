import ZenohRos2.Rust.Slice

/-! Message ids, header flags and identifiers of the wire protocol, and the errors. -/

set_option autoImplicit false

namespace ZenohRos2

abbrev Bytes := List UInt8

inductive TransportError where
  | io
  | handshakeFailed
  | versionMismatch
  | frameTooLarge
  | invalidEncoding
  | connectionClosed
  | keepAliveTimeout
  deriving DecidableEq, Repr

inductive CdrError where
  | bufferOverflow
  | bufferUnderflow
  | invalidBool
  | invalidUtf8
  | stringCapacityExceeded
  | unsupportedEncapsulation
  | serializeError
  | deserializeError
  deriving DecidableEq, Repr

inductive Error where
  | cdr (error : CdrError)
  | transport (error : TransportError)
  | io
  | bufferFull
  | notConnected
  | timeout
  | invalidArgument
  | serviceNoReply
  deriving DecidableEq, Repr

def protoVersion : UInt8 := 9

inductive WhatAmI where
  | router
  | peer
  | client
  deriving DecidableEq, Repr

/-- Node identifier of up to 16 bytes. -/
structure ZenohId where
  bytes : Vector UInt8 16
  len : UInt8
  valid : len.toNat ≤ 16
  deriving DecidableEq

namespace ZenohId

def fromBytes (data : Bytes) : ZenohId where
  bytes := Vector.ofFn fun i => (data[i.val]?).getD 0
  len := UInt8.ofNat (min data.length 16)
  valid := by rw [UInt8.toNat_ofNat']; omega

def asBytes (zid : ZenohId) : Bytes := zid.bytes.toList.take zid.len.toNat

theorem asBytes_length (zid : ZenohId) : zid.asBytes.length = zid.len.toNat := by
  simp [asBytes, Nat.min_eq_left zid.valid]

theorem asBytes_length_le (zid : ZenohId) : zid.asBytes.length ≤ 16 :=
  zid.asBytes_length ▸ zid.valid

theorem asBytes_fromBytes (data : Bytes) : (fromBytes data).asBytes = data.take 16 := by
  have len : (fromBytes data).len.toNat = min data.length 16 := by
    change (UInt8.ofNat _).toNat = _
    rw [UInt8.toNat_ofNat']
    omega
  apply List.ext_getElem
  · rw [asBytes_length, len, List.length_take]
    omega
  · intro i left right
    simp only [List.length_take] at right
    simp [asBytes, fromBytes, List.getElem?_eq_getElem (show i < data.length by omega)]

end ZenohId

namespace transportId
def init : UInt8 := 0x01
def open_ : UInt8 := 0x02
def close : UInt8 := 0x03
def keepAlive : UInt8 := 0x04
def frame : UInt8 := 0x05
def fragment : UInt8 := 0x06
end transportId

namespace initFlag
def a : UInt8 := (1 : UInt8) <<< 5
def s : UInt8 := (1 : UInt8) <<< 6
def z : UInt8 := (1 : UInt8) <<< 7
end initFlag

namespace openFlag
def a : UInt8 := (1 : UInt8) <<< 5
def t : UInt8 := (1 : UInt8) <<< 6
end openFlag

namespace frameFlag
def r : UInt8 := (1 : UInt8) <<< 5
def z : UInt8 := (1 : UInt8) <<< 7
end frameFlag

namespace fragmentFlag
def r : UInt8 := (1 : UInt8) <<< 5
def m : UInt8 := (1 : UInt8) <<< 6
def z : UInt8 := (1 : UInt8) <<< 7
end fragmentFlag

namespace networkId
def push : UInt8 := 0x1d
def request : UInt8 := 0x1c
def response : UInt8 := 0x1b
def responseFinal : UInt8 := 0x1a
def declare : UInt8 := 0x1e
end networkId

namespace pushFlag
def n : UInt8 := (1 : UInt8) <<< 5
/-- Set when the scope is an id the sender declared. -/
def m : UInt8 := (1 : UInt8) <<< 6
def z : UInt8 := (1 : UInt8) <<< 7
end pushFlag

namespace requestFlag
def n : UInt8 := (1 : UInt8) <<< 5
def z : UInt8 := (1 : UInt8) <<< 7
end requestFlag

namespace responseFlag
def n : UInt8 := (1 : UInt8) <<< 5
def z : UInt8 := (1 : UInt8) <<< 7
end responseFlag

namespace responseFinalFlag
def z : UInt8 := (1 : UInt8) <<< 7
end responseFinalFlag

namespace zenohId
def put : UInt8 := 0x01
def query : UInt8 := 0x03
def reply : UInt8 := 0x04
end zenohId

namespace putFlag
def t : UInt8 := (1 : UInt8) <<< 5
def e : UInt8 := (1 : UInt8) <<< 6
def z : UInt8 := (1 : UInt8) <<< 7
end putFlag

namespace queryFlag
def z : UInt8 := (1 : UInt8) <<< 7
end queryFlag

namespace queryTarget
/-- All queryables, and all their replies. -/
def allComplete : UInt64 := 2
end queryTarget

namespace replyFlag
def c : UInt8 := (1 : UInt8) <<< 5
def z : UInt8 := (1 : UInt8) <<< 7
end replyFlag

namespace declareId
def dKeyexpr : UInt8 := 0x00
def dSubscriber : UInt8 := 0x02
def dToken : UInt8 := 0x06
end declareId

namespace declareKeyexprFlag
def n : UInt8 := (1 : UInt8) <<< 5
end declareKeyexprFlag

namespace declareSubscriberFlag
def m : UInt8 := (1 : UInt8) <<< 6
end declareSubscriberFlag

namespace declareTokenFlag
def n : UInt8 := (1 : UInt8) <<< 5
def m : UInt8 := (1 : UInt8) <<< 6
end declareTokenFlag

/-- `header & 0x1F`: the message id of a header byte. -/
def messageId (header : UInt8) : UInt8 := header &&& 0x1F

/-- `header & flag != 0` -/
def hasFlag (header flag : UInt8) : Bool := header &&& flag != 0

/-- The optional flag of a header under construction. -/
def flagIf (present : Bool) (flag : UInt8) : UInt8 := if present then flag else 0

def header (id : UInt8) (bit5 bit6 bit7 : Bool) : UInt8 :=
  id ||| flagIf bit5 0x20 ||| flagIf bit6 0x40 ||| flagIf bit7 0x80

-- A byte has 256 values: facts about its bits are checked on all of them.
theorem forall_uint8 {property : UInt8 → Prop}
    (checked : ∀ value : Fin 256, property (UInt8.ofFin value)) (byte : UInt8) : property byte := by
  simpa using checked byte.toFin

section Header
variable (id : UInt8) (bit5 bit6 bit7 : Bool)

theorem hasFlag_header_bit5 : id &&& 0x20 = 0 → hasFlag (header id bit5 bit6 bit7) 0x20 = bit5 := by
  revert id
  apply forall_uint8
  cases bit5 <;> cases bit6 <;> cases bit7 <;> decide +kernel

theorem hasFlag_header_bit6 : id &&& 0x40 = 0 → hasFlag (header id bit5 bit6 bit7) 0x40 = bit6 := by
  revert id
  apply forall_uint8
  cases bit5 <;> cases bit6 <;> cases bit7 <;> decide +kernel

theorem hasFlag_header_bit7 : id &&& 0x80 = 0 → hasFlag (header id bit5 bit6 bit7) 0x80 = bit7 := by
  revert id
  apply forall_uint8
  cases bit5 <;> cases bit6 <;> cases bit7 <;> decide +kernel

theorem messageId_header : messageId (header id bit5 bit6 bit7) = messageId id := by
  revert id
  apply forall_uint8
  cases bit5 <;> cases bit6 <;> cases bit7 <;> decide +kernel

end Header
end ZenohRos2
