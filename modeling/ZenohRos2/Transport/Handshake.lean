import ZenohRos2.Transport.Encoding

/-! What the client sends in the handshake. -/

set_option autoImplicit false

namespace ZenohRos2
open Rust

def defaultLeaseMs : UInt64 := 10000

namespace closeReason
def generic : UInt8 := 0x00
end closeReason

structure InitSyn where
  version : UInt8
  whatami : WhatAmI
  zid : ZenohId
  batchSize : Option UInt16
  deriving DecidableEq

structure OpenSyn where
  leaseMs : UInt64
  initialSn : UInt64
  cookie : Bytes
  deriving DecidableEq

def whatamiTo2bit : WhatAmI → UInt8
  | .router => 0b00
  | .peer => 0b01
  | .client => 0b10

section Encoders
variable [Target]

/-- `((zid_bytes.len() as u8 - 1) << 4) | whatami_2bit`, with overflow checks for the subtraction. -/
def initFlags (zid : ZenohId) (whatami : WhatAmI) : Outcome TransportError UInt8 := do
  let lenMinusOne ← u8Sub (UInt8.ofNat zid.asBytes.length) 1
  .ok ((lenMinusOne <<< 4) ||| whatamiTo2bit whatami)

def putBatchSize : Option UInt16 → Encode
  | none => pure ()
  | some batchSize => do
    Put.require .frameTooLarge 3
    Put.copy [0x00]
    Put.copy (LittleEndian.encode 2 batchSize.toNat)

def encodeInitSyn (msg : InitSyn) : WireEncoder := Put.encoder do
  putByte (transportId.init ||| flagIf msg.batchSize.isSome initFlag.s)
  putByte msg.version
  let flags ← liftM (initFlags msg.zid msg.whatami)
  putByte flags
  Put.require .frameTooLarge msg.zid.asBytes.length
  Put.copy msg.zid.asBytes
  putBatchSize msg.batchSize

/-- Without the T flag the lease is in milliseconds. -/
def encodeOpenSyn (msg : OpenSyn) : WireEncoder := Put.encoder do
  putByte transportId.open_
  Put.call (encodeVbyte msg.leaseMs)
  Put.call (encodeVbyte msg.initialSn)
  Put.call (encodeSlice msg.cookie)

def initFlagsByte (msg : InitSyn) : UInt8 :=
  ((UInt8.ofNat msg.zid.asBytes.length - 1) <<< 4) ||| whatamiTo2bit msg.whatami

def batchSizeBytes : Option UInt16 → Bytes
  | none => []
  | some batchSize => [0x00] ++ LittleEndian.encode 2 batchSize.toNat

def initSynBytes (msg : InitSyn) : Bytes :=
  [transportId.init ||| flagIf msg.batchSize.isSome initFlag.s] ++ ([msg.version] ++ ([initFlagsByte msg] ++
    (msg.zid.asBytes ++ batchSizeBytes msg.batchSize)))

def openSynBytes (msg : OpenSyn) : Bytes :=
  [transportId.open_] ++ (vbyte msg.leaseMs ++ (vbyte msg.initialSn ++ lengthPrefixed msg.cookie))

theorem puts_putBatchSize (batchSize : Option UInt16) :
    Puts TransportError.frameTooLarge (putBatchSize batchSize) (batchSizeBytes batchSize) := by
  cases batchSize with
  | none => exact Puts.pure_nil
  | some batchSize =>
    have length : (batchSizeBytes (some batchSize)).length = 3 := by
      simp only [batchSizeBytes, List.length_append, List.length_singleton, LittleEndian.encode_length]
    refine puts_require (Copies.seq (copies_copy _) (copies_copy _)) length.symm (le_isizeMax ?_)
    rw [length]
    decide

/-- For an empty id the encoder panics instead, at the subtraction. -/
theorem encodes_encodeInitSyn {msg : InitSyn} (nonempty : 0 < msg.zid.asBytes.length) :
    Encodes TransportError.frameTooLarge (encodeInitSyn msg) (initSynBytes msg) := by
  have short := msg.zid.asBytes_length_le
  have flags : initFlags msg.zid msg.whatami = .ok (initFlagsByte msg) := by
    have least : (1 : UInt8) ≤ UInt8.ofNat msg.zid.asBytes.length := by
      rw [UInt8.le_iff_toNat_le, UInt8.toNat_ofNat']
      change 1 ≤ _
      omega
    rw [initFlags, u8Sub, if_pos least]
    rfl
  refine encodes_encoder (Puts.seq (puts_putByte _) (Puts.seq (puts_putByte _) ?_))
  have rest := Puts.seq (puts_putByte (initFlagsByte msg)) (Puts.seq
    (puts_require (copies_copy msg.zid.asBytes) rfl (le_isizeMax (by omega))) (puts_putBatchSize msg.batchSize))
  have lifted : (liftM (initFlags msg.zid msg.whatami) : Put TransportError UInt8 UInt8) = pure (initFlagsByte msg) := by
    rw [flags]
    rfl
  rw [lifted, pure_bind]
  simpa only [bind_assoc] using rest

theorem encodes_encodeOpenSyn {msg : OpenSyn} (addressable : Addressable msg.cookie) :
    Encodes TransportError.frameTooLarge (encodeOpenSyn msg) (openSynBytes msg) := by
  refine encodes_encoder (Puts.seq (puts_putByte _) (Puts.seq (puts_call (encodes_encodeVbyte _)) ?_))
  exact Puts.seq (puts_call (encodes_encodeVbyte _)) (puts_call (encodes_encodeSlice addressable))

end Encoders
end ZenohRos2
