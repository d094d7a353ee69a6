import ZenohRos2.Rust.Async
import ZenohRos2.Transport.Frame
import ZenohRos2.Transport.Handshake

/-! The session on a link, which tasks share.

Every field has a mutex of its own. All but that of the link are locked for a
single access, which is one request here. The link is held while a frame is
written or read, so that other requests come in between.
-/

set_option autoImplicit false

namespace ZenohRos2.Zenoh
open Rust

inductive SessionState where
  | disconnected
  | connecting
  | open_
  | closing
  deriving DecidableEq, Repr

structure SessionConfig where
  zid : ZenohId
  domainId : UInt32

inductive WriteEnd where
  | flushed
  /-- The frame is on the link, but the call fails. -/
  | unflushed
  | brokenOff
  deriving DecidableEq

/-- `T: Read + Write`: the end of each write, and the frame that each read finds unless it fails. -/
structure Transport where
  writes : Nat → WriteEnd
  reads : Nat → Option Bytes

structure Link where
  transport : Transport
  tried : Nat
  asked : Nat
  /-- The frames that were written whole. -/
  written : List Bytes
  locked : Bool

structure Session where
  link : Link
  config : SessionConfig
  state : SessionState
  snReliable : UInt64
  snBestEffort : UInt64
  nextKeyId : UInt16
  leaseMs : UInt64

namespace Link

def Takes (link : Link) (frame : Bytes) : Prop :=
  frame.length ≤ 65535 ∧ link.transport.writes link.tried ≠ .brokenOff

instance (link : Link) (frame : Bytes) : Decidable (link.Takes frame) := inferInstanceAs (Decidable (_ ∧ _))

/-- `frame::write_frame` -/
def write (link : Link) (frame : Bytes) : Outcome TransportError Unit × Link :=
  (writeFrame frame (link.transport.writes link.tried = .flushed),
    { link with
      tried := link.tried + 1
      written := if link.Takes frame then link.written ++ [frame] else link.written })

/-- `frame::read_frame` into a buffer of `cap` bytes; the frame is what it leaves in `buf[..n]`. -/
def read (link : Link) (cap : Nat) : Outcome TransportError Bytes × Link :=
  (match link.transport.reads link.asked with
    | none => .err .io
    | some payload => if payload.length > cap then .err .frameTooLarge else .ok payload,
    { link with asked := link.asked + 1 })

end Link

/-- What a method asks of the session, one await at a time. -/
inductive Request where
  | nextKeyId
  | nextSnReliable
  | setState (state : SessionState)
  | lockLink
  | unlockLink
  | write (frame : Bytes)
  | read (cap : Nat)

@[reducible] def Request.Reply : Request → Type
  | .nextKeyId => UInt16
  | .nextSnReliable => UInt64
  | .setState _ => Unit
  | .lockLink => Unit
  | .unlockLink => Unit
  | .write _ => Outcome TransportError Unit
  | .read _ => Outcome TransportError Bytes

/-- A lock that is held makes the request wait. -/
def perform : (request : Request) → Session → Option (request.Reply × Session)
  | .nextKeyId, session => some (session.nextKeyId, { session with nextKeyId := session.nextKeyId + 1 })
  | .nextSnReliable, session => some (session.snReliable, { session with snReliable := session.snReliable + 1 })
  | .setState state, session => some ((), { session with state := state })
  | .lockLink, session =>
    if session.link.locked then none else some ((), { session with link := { session.link with locked := true } })
  | .unlockLink, session => some ((), { session with link := { session.link with locked := false } })
  | .write frame, session => some ((session.link.write frame).1, { session with link := (session.link.write frame).2 })
  | .read cap, session => some ((session.link.read cap).1, { session with link := (session.link.read cap).2 })

abbrev Call := Async Request.Reply Error

section Requests

def ask (request : Request) : Call request.Reply := Async.request request

def nextSnReliable : Call UInt64 := ask .nextSnReliable

/-- `let mut link = self.link.lock().await;` -/
def withLink {α : Type} (body : Call α) : Call α := Async.guarded .lockLink .unlockLink body

def writeFrame (frame : Bytes) : Call Unit := do
  let result : Outcome TransportError Unit ← ask (.write frame)
  Async.lift (result.mapErr .transport)

def readFrame (cap : Nat) : Call Bytes := do
  let result : Outcome TransportError Bytes ← ask (.read cap)
  Async.lift (result.mapErr .transport)

end Requests

section Methods
variable [Target]

/-- The sizes `TX_BUF` and `RX_BUF` of a session's buffers, which are arrays. -/
structure Buffers where
  txBuf : Nat
  rxBuf : Nat
  arrays : txBuf ≤ isizeMax ∧ rxBuf ≤ isizeMax

/-- A message that stands alone, at the front of the buffer. -/
def encodeAlone (message : WireEncoder) (buf : Bytes) : Outcome Error (Bytes × Bytes) := do
  let (n, buf) ← (message buf).mapErr .transport
  let frame ← sliceRange buf 0 n
  .ok (frame, buf)

/-- A Frame with one network message. -/
def encodeMessage (size : Nat) (sn : UInt64) (message : WireEncoder) : Outcome Error Bytes := do
  let (pos, buf) ← (encodeFrameHeader sn true (List.replicate size 0)).mapErr .transport
  let (_, cursor) ← (Put.call message ⟨buf, pos⟩).mapErr .transport
  sliceRange cursor.buf 0 cursor.pos

structure HandshakeResult where
  routerZid : ZenohId
  leaseMs : UInt64
  ourLeaseMs : UInt64
  initialSn : UInt64
  routerInitialSn : UInt64

variable (buffers : Buffers)

def clientHandshake (ourZid : ZenohId) : Call HandshakeResult := do
  let (initSyn, txBuf) ← Async.lift
    (encodeAlone (encodeInitSyn ⟨protoVersion, .client, ourZid, none⟩) (List.replicate buffers.txBuf 0))
  writeFrame initSyn
  let received ← readFrame buffers.rxBuf
  let (initAck, _) ← Async.lift ((decodeInitAck received).mapErr .transport)
  if initAck.version ≠ protoVersion then Async.lift (.err (.transport .versionMismatch))
  else do
    let (openSyn, _) ← Async.lift (encodeAlone (encodeOpenSyn ⟨defaultLeaseMs, 0, initAck.cookie⟩) txBuf)
    writeFrame openSyn
    let received ← readFrame buffers.rxBuf
    let (openAck, _) ← Async.lift ((decodeOpenAck received).mapErr .transport)
    return ⟨initAck.zid, openAck.leaseMs, defaultLeaseMs, 0, openAck.initialSn⟩

def doHandshake (config : SessionConfig) : Call HandshakeResult := do
  ask (.setState .connecting)
  let result ← withLink (clientHandshake buffers config.zid)
  ask (.setState .open_)
  return result

/-- The session that `open` starts with. The lease of the router is not kept. -/
def Session.new (transport : Transport) (config : SessionConfig) : Session where
  link := ⟨transport, 0, 0, [], false⟩
  config := config
  state := .disconnected
  snReliable := 0
  snBestEffort := 0
  nextKeyId := 1
  leaseMs := 0

/-- `Session::open`: a session whose handshake fails is dropped. -/
def Session.opened (transport : Transport) (config : SessionConfig) : Option (Outcome Error Session) :=
  ((doHandshake buffers config).run perform (.new transport config)).map fun (result, session) => do
    let _ ← result
    .ok session

/-- The number is taken first, the frame encoded behind it, and the link locked last. -/
def sendMessage (message : WireEncoder) : Call Unit := do
  let sn ← nextSnReliable
  let frame ← Async.lift (encodeMessage buffers.txBuf sn message)
  withLink (writeFrame frame)

def declareKeyExpr (keyExpr : String) : Call UInt16 := do
  let keyId ← ask .nextKeyId
  sendMessage buffers (encodeDeclareKeyexpr keyId keyExpr)
  return keyId

def putWithAttachment (keyExpr : String) (payload : Bytes) (seqNum timestampNs : Int64) (gid : ZenohId) : Call Unit :=
  sendMessage buffers (encodePushPutWithAttachment keyExpr payload seqNum timestampNs gid)

def put (keyExpr : String) (payload : Bytes) : Call Unit := sendMessage buffers (encodePushPut keyExpr 0 payload)

/-- The link is locked before the message is encoded. -/
def keepalive : Call Unit :=
  withLink do
    let (frame, _) ← Async.lift (encodeAlone encodeKeepalive (List.replicate 8 0))
    writeFrame frame

def subscribe (keyExpr : String) : Call UInt16 := do
  let keyId ← declareKeyExpr buffers keyExpr
  sendMessage buffers (encodeDeclareSubscriberMapped keyId.toUInt32 keyId)
  return keyId

/-- What `recv_once` makes of a frame. Of an empty one it asks for the first byte all the same. -/
def readMessage (msgBuf : Bytes) : Outcome Error (Option (String × Bytes)) := do
  let header ← index msgBuf 0
  match parseTransportMsgKind header with
  | .frame =>
    let (_, _, bodyPos) ← (decodeFrameHeader msgBuf).mapErr .transport
    let body ← sliceFrom msgBuf bodyPos
    match ← (decodePushPut body).mapErr .transport with
    | some (put, _) => .ok (some (put.keySuffix, put.payload))
    | none => .ok none
  | .keepAlive => .ok none
  | .close => .err (.transport .connectionClosed)
  | _ => .ok none

def recvOnce (cap : Nat) : Call (Option (String × Bytes)) := do
  let msgBuf ← withLink (readFrame cap)
  Async.lift (readMessage msgBuf)

/-- The link stays locked until the state is set. -/
def close : Call Unit := do
  ask (.setState .closing)
  let (frame, _) ← Async.lift (encodeAlone (encodeClose closeReason.generic) (List.replicate 8 0))
  withLink do
    writeFrame frame
    ask (.setState .disconnected)

inductive Operation where
  | put (keyExpr : String) (payload : Bytes)
  | putWithAttachment (keyExpr : String) (payload : Bytes) (seqNum timestampNs : Int64) (gid : ZenohId)
  | declareKeyExpr (keyExpr : String)
  | subscribe (keyExpr : String)
  | keepalive
  | recvOnce (cap : Nat)
  | close
  deriving DecidableEq

def Operation.call : Operation → Call Unit
  | .put keyExpr payload => Zenoh.put buffers keyExpr payload
  | .putWithAttachment keyExpr payload seqNum timestampNs gid =>
    Zenoh.putWithAttachment buffers keyExpr payload seqNum timestampNs gid
  | .declareKeyExpr keyExpr => do
    let _ ← Zenoh.declareKeyExpr buffers keyExpr
  | .subscribe keyExpr => do
    let _ ← Zenoh.subscribe buffers keyExpr
  | .keepalive => Zenoh.keepalive
  | .recvOnce cap => do
    let _ ← Zenoh.recvOnce cap
  | .close => Zenoh.close

end Methods

section Runs
variable {α : Type} {session : Session}

def Session.holding (locked : Bool) (session : Session) : Session :=
  { session with link := { session.link with locked := locked } }

theorem Session.holding_self (session : Session) {locked : Bool} (same : session.link.locked = locked) :
    session.holding locked = session := by
  subst same
  rfl

def Session.wrote (session : Session) (frame : Bytes) : Session :=
  { session with link := (session.link.write frame).2 }

theorem run_withLink (body : Call α) (free : session.link.locked = false) :
    Async.run perform (withLink body) session =
      (Async.run perform body (session.holding true)).map fun left => (left.1, left.2.holding false) := by
  have entered : perform .lockLink session = some ((), session.holding true) := by
    simp only [perform, free, Bool.false_eq_true, if_false]
    rfl
  rw [withLink, Async.run_guarded, entered, Option.bind_some]
  cases Async.run perform body (session.holding true) <;> rfl

theorem run_writeFrame (frame : Bytes) (session : Session) :
    Async.run perform (writeFrame frame) session =
      some ((session.link.write frame).1.mapErr .transport, session.wrote frame) := rfl

theorem run_readFrame (cap : Nat) (session : Session) :
    Async.run perform (readFrame cap) session =
      some ((session.link.read cap).1.mapErr .transport, { session with link := (session.link.read cap).2 }) := rfl

theorem Link.write_eq_ok {link : Link} {frame : Bytes} (ok : (link.write frame).1 = .ok ()) :
    (link.write frame).2.written = link.written ++ [frame] := by
  simp only [Link.write, ZenohRos2.writeFrame] at ok ⊢
  split at ok
  · cases ok
  · rename_i short
    split at ok
    · rename_i flushed
      have takes : link.Takes frame := by
        refine ⟨by omega, ?_⟩
        rw [of_decide_eq_true flushed]
        decide
      rw [if_pos takes]
    · cases ok

end Runs

section Alone
variable [Target]

theorem encodeAlone_eq {message : WireEncoder} {bytes buf : Bytes}
    (encodes : Encodes TransportError.frameTooLarge message bytes) (addressable : Addressable buf)
    (fits : bytes.length ≤ buf.length) :
    encodeAlone message buf = .ok (bytes, bytes ++ buf.drop bytes.length) := by
  have inside : 0 ≤ bytes.length ∧ bytes.length ≤ (bytes ++ buf.drop bytes.length).length := by simp
  rw [encodeAlone, encodes.eq_ok addressable fits]
  change (sliceRange (bytes ++ buf.drop bytes.length) 0 bytes.length >>= fun frame =>
    Outcome.ok (frame, bytes ++ buf.drop bytes.length)) = _
  rw [sliceRange, if_pos inside, List.take_left]
  rfl

theorem encodeMessage_eq {size : Nat} {sn : UInt64} {message : WireEncoder} {bytes : Bytes}
    (encodes : Encodes TransportError.frameTooLarge message bytes) (array : size ≤ isizeMax)
    (fits : (frameHeaderBytes sn true ++ bytes).length ≤ size) :
    encodeMessage size sn message = .ok (frameHeaderBytes sn true ++ bytes) := by
  have room : (frameHeaderBytes sn true).length ≤ size := by
    rw [List.length_append] at fits
    omega
  obtain ⟨cursor, begun, called, slice⟩ := exists_cursor_behind_header sn encodes array room
  unfold encodeMessage
  rw [begun]
  change ((Put.call message cursor).mapErr Error.transport >>= fun called =>
    sliceRange called.2.buf 0 called.2.pos) = _
  rw [called, if_pos fits]
  exact slice fits

def keepaliveFrame : Bytes := [transportId.keepAlive]

def closeFrame : Bytes := [transportId.close, closeReason.generic]

theorem keepalive_eq : keepalive = withLink (writeFrame keepaliveFrame) := by
  rw [keepalive, encodeAlone_eq encodes_encodeKeepalive (le_isizeMax (by decide)) (by decide)]
  rfl

theorem close_eq : close = ask (.setState .closing) >>= fun _ =>
    withLink (writeFrame closeFrame >>= fun _ => ask (.setState .disconnected)) := by
  rw [close, encodeAlone_eq (encodes_encodeClose _) (le_isizeMax (by decide)) (by decide)]
  rfl

end Alone
end ZenohRos2.Zenoh
