import ZenohRos2.Ros2.Publication
import ZenohRos2.Session.Opening

/-! What the handshake makes of the frames of the router.

The client writes its two frames one after the other, and reads a frame of the
router behind each. What it does is a function of these two frames.
-/

set_option autoImplicit false

namespace ZenohRos2.Zenoh
open Rust

/-- The bytes on the link: each frame behind its length. -/
def Link.wire (link : Link) : Bytes := link.written.flatMap framed

structure Link.Answers (link : Link) (first second : Bytes) : Prop where
  writes : ∀ n, link.transport.writes n = .flushed
  first : link.transport.reads link.asked = some first
  second : link.transport.reads (link.asked + 1) = some second

def Session.exchanged (session : Session) (frame : Bytes) : Session :=
  { session with link := { session.link with
      tried := session.link.tried + 1
      asked := session.link.asked + 1
      written := session.link.written ++ [frame] } }

theorem Session.exchanged_wire (session : Session) (frame : Bytes) :
    (session.exchanged frame).link.wire = session.link.wire ++ framed frame := by
  simp [exchanged, Link.wire]

section Exchange
variable {α : Type} {session : Session} {frame received : Bytes} {next : Bytes → Call α}

theorem run_lift_bind {β : Type} (result : Outcome Error β) (next : β → Call α) (session : Session) :
    Async.run perform (Async.lift result >>= next) session =
      Async.resume perform next (result, session) := by
  rw [Async.run_bind, Async.run_lift, Option.bind_some]

theorem run_exchange {cap : Nat} (short : frame.length ≤ 65535)
    (flushed : session.link.transport.writes session.link.tried = .flushed)
    (found : session.link.transport.reads session.link.asked = some received) (fits : received.length ≤ cap) :
    Async.run perform (writeFrame frame >>= fun _ => readFrame cap >>= next) session =
      Async.run perform (next received) (session.exchanged frame) := by
  have takes : session.link.Takes frame := ⟨short, by rw [flushed]; decide⟩
  have wrote : (session.link.write frame).1 = .ok () := by
    simp only [Link.write, writeFrame_eq short, flushed, decide_true, if_true]
  have read : ((session.wrote frame).link.read cap).1 = .ok received := by
    simp only [Session.wrote, Link.write, Link.read, found]
    exact if_neg (Nat.not_lt.mpr fits)
  have after : { session.wrote frame with link := ((session.wrote frame).link.read cap).2 } =
      session.exchanged frame := by
    simp only [Session.wrote, Session.exchanged, Link.write, Link.read, if_pos takes]
  rw [Async.run_bind, run_writeFrame, wrote]
  change Async.run perform (readFrame cap >>= next) (session.wrote frame) = _
  rw [Async.run_bind, run_readFrame, read, after]
  rfl

end Exchange

section Handshake
variable [Target] {buffers : Buffers} {session : Session} {zid : ZenohId} {first second : Bytes}

def initSynFrame (zid : ZenohId) : Bytes := initSynBytes ⟨protoVersion, .client, zid, none⟩

def openSynFrame (cookie : Bytes) : Bytes := openSynBytes ⟨defaultLeaseMs, 0, cookie⟩

omit [Target] in
theorem initSynFrame_length_le (zid : ZenohId) : (initSynFrame zid).length ≤ 19 := by
  have short := zid.asBytes_length_le
  simp only [initSynFrame, initSynBytes, batchSizeBytes, List.length_append, List.length_singleton, List.length_nil]
  omega

omit [Target] in
theorem openSynFrame_length_le {cookie : Bytes} (short : cookie.length ≤ cookieCap) :
    (openSynFrame cookie).length ≤ 262 := by
  have most : cookieCap = 256 := rfl
  have lease : (vbyte defaultLeaseMs).length = 2 := by decide +kernel
  have initialSn : (vbyte 0).length = 1 := by decide +kernel
  have prefixed := lengthPrefixed_length_le cookie (by omega)
  simp only [openSynFrame, openSynBytes, List.length_append, List.length_singleton, lease, initialSn]
  omega

/-- What is left of the handshake once the router has sent its first frame. -/
def proceed (session : Session) (second : Bytes) (initAck : InitAck) : Outcome Error HandshakeResult × Session :=
  if initAck.version ≠ protoVersion then (.err (.transport .versionMismatch), session)
  else
    (do
      let (openAck, _) ← (decodeOpenAck second).mapErr .transport
      .ok ⟨initAck.zid, openAck.leaseMs, defaultLeaseMs, 0, openAck.initialSn⟩,
      session.exchanged (openSynFrame initAck.cookie))

theorem clientHandshake_run (txRoom : 262 ≤ buffers.txBuf) (named : 0 < zid.asBytes.length)
    (answers : session.link.Answers first second) (firstFits : first.length ≤ buffers.rxBuf)
    (secondFits : second.length ≤ buffers.rxBuf) :
    Async.run perform (clientHandshake buffers zid) session =
      some (match (decodeInitAck first).mapErr Error.transport with
        | .ok (initAck, _) => proceed (session.exchanged (initSynFrame zid)) second initAck
        | .err error => (.err error, session.exchanged (initSynFrame zid))
        | .panic fault => (.panic fault, session.exchanged (initSynFrame zid))) := by
  have array : Addressable (List.replicate buffers.txBuf (0 : UInt8)) := by
    unfold Addressable
    rw [List.length_replicate]
    exact buffers.arrays.1
  have synShort := initSynFrame_length_le zid
  have room : (initSynFrame zid).length ≤ (List.replicate buffers.txBuf (0 : UInt8)).length := by
    rw [List.length_replicate]
    omega
  -- The same buffer is written twice, and its length stays.
  let txBuf := initSynFrame zid ++ (List.replicate buffers.txBuf (0 : UInt8)).drop (initSynFrame zid).length
  have kept : txBuf.length = buffers.txBuf := by
    simp only [txBuf, List.length_append, List.length_drop, List.length_replicate]
    omega
  have syn : encodeAlone (encodeInitSyn ⟨protoVersion, .client, zid, none⟩) (List.replicate buffers.txBuf 0) =
      .ok (initSynFrame zid, txBuf) := encodeAlone_eq (encodes_encodeInitSyn named) array room
  unfold clientHandshake
  rw [run_lift_bind, syn]
  change Async.run perform (writeFrame (initSynFrame zid) >>= fun _ => readFrame buffers.rxBuf >>= _) session = _
  rw [run_exchange (by omega) (answers.writes _) answers.first firstFits, run_lift_bind]
  cases decoded : decodeInitAck first with
  | err error => rfl
  | panic fault => rfl
  | ok read =>
    obtain ⟨initAck, consumed⟩ := read
    have short := decodeInitAck_cookie decoded
    have most : cookieCap = 256 := rfl
    have openShort := openSynFrame_length_le short
    have cookie : Addressable initAck.cookie := le_isizeMax (by omega)
    have again : Addressable txBuf := by
      unfold Addressable
      rw [kept]
      exact buffers.arrays.1
    have openSyn : encodeAlone (encodeOpenSyn ⟨defaultLeaseMs, 0, initAck.cookie⟩) txBuf =
        .ok (openSynFrame initAck.cookie, openSynFrame initAck.cookie ++ txBuf.drop (openSynFrame initAck.cookie).length) :=
      encodeAlone_eq (encodes_encodeOpenSyn cookie) again (by rw [kept]; exact Nat.le_trans openShort txRoom)
    simp only [Outcome.mapErr, Async.resume, proceed]
    by_cases other : initAck.version ≠ protoVersion
    · rw [if_pos other, if_pos other]
      rfl
    let between := session.exchanged (initSynFrame zid)
    have flushed : between.link.transport.writes between.link.tried = .flushed := answers.writes _
    have reply : between.link.transport.reads between.link.asked = some second := answers.second
    rw [if_neg other, if_neg other, run_lift_bind, openSyn]
    change Async.run perform (writeFrame (openSynFrame initAck.cookie) >>= fun _ =>
      readFrame buffers.rxBuf >>= _) (session.exchanged (initSynFrame zid)) = _
    rw [run_exchange (by omega) flushed reply secondFits, run_lift_bind]
    cases decodeOpenAck second <;> rfl

def handshakeBuffers : Buffers := ⟨512, 4096, le_isizeMax (by decide), le_isizeMax (by decide)⟩

/-- The frame is an InitAck of version 9. -/
def Acknowledges (frame : Bytes) (initAck : InitAck) : Prop :=
  ∃ consumed, decodeInitAck frame = .ok (initAck, consumed) ∧ initAck.version = 9

def Opens (frame : Bytes) (openAck : OpenAck) : Prop := ∃ consumed, decodeOpenAck frame = .ok (openAck, consumed)

/-- What the handshake returns, and what it leaves on the link. -/
structure Negotiated (session : Session) (zid : ZenohId) (first second : Bytes) (result : Outcome Error HandshakeResult)
    (after : Session) : Prop where
  ok_iff : (∃ value, result = .ok value) ↔
    (∃ initAck, Acknowledges first initAck) ∧ ∃ openAck, Opens second openAck
  opened : ∀ initAck openAck, Acknowledges first initAck → Opens second openAck →
    result = .ok ⟨initAck.zid, openAck.leaseMs, 10000, 0, openAck.initialSn⟩ ∧
    after.link.wire = session.link.wire ++ framed (initSynBytes ⟨9, .client, zid, none⟩) ++
      framed (openSynBytes ⟨10000, 0, initAck.cookie⟩)
  refused : (¬∃ initAck, Acknowledges first initAck) →
    after.link.wire = session.link.wire ++ framed (initSynBytes ⟨9, .client, zid, none⟩)

theorem Negotiated.of_refused {result : Outcome Error HandshakeResult} (failed : ∀ value, result ≠ .ok value)
    (missing : ¬∃ initAck, Acknowledges first initAck) :
    Negotiated session zid first second result (session.exchanged (initSynFrame zid)) where
  ok_iff := by
    apply iff_of_false
    · rintro ⟨value, same⟩
      exact failed value same
    · exact fun both => missing both.1
  opened initAck _ acknowledges := absurd ⟨initAck, acknowledges⟩ missing
  refused _ := session.exchanged_wire (initSynFrame zid)

/-- The handshake succeeds if and only if the router acknowledges and opens. An
OpenSyn is sent to a router that acknowledges, with its cookie. -/
theorem clientHandshake_negotiates (named : 1 ≤ zid.asBytes.length) (answers : session.link.Answers first second)
    (firstFits : first.length ≤ 4096) (secondFits : second.length ≤ 4096) :
    ∃ result after, Async.run perform (clientHandshake handshakeBuffers zid) session = some (result, after) ∧
      Negotiated session zid first second result after := by
  have ran := clientHandshake_run (show 262 ≤ handshakeBuffers.txBuf by change 262 ≤ 512; decide) named answers
    firstFits secondFits
  cases decoded : decodeInitAck first with
  | err error =>
    rw [decoded] at ran
    exact ⟨_, _, ran, .of_refused (by simp) (by simp [Acknowledges, decoded])⟩
  | panic fault =>
    rw [decoded] at ran
    exact ⟨_, _, ran, .of_refused (by simp) (by simp [Acknowledges, decoded])⟩
  | ok read =>
    obtain ⟨initAck, consumed⟩ := read
    -- The first frame is decoded once, so there is one acknowledgement to speak of.
    have only {other : InitAck} (acknowledges : Acknowledges first other) : other = initAck := by
      obtain ⟨_, same, -⟩ := acknowledges
      rw [decoded] at same
      cases same
      rfl
    rw [decoded] at ran
    simp only [Outcome.mapErr, proceed] at ran
    by_cases version : initAck.version = protoVersion
    · have acknowledges : Acknowledges first initAck := ⟨consumed, decoded, version⟩
      rw [if_neg (fun other => other version)] at ran
      refine ⟨_, _, ran, ?_, ?_, fun missing => absurd ⟨initAck, acknowledges⟩ missing⟩
      · rw [and_iff_right ⟨initAck, acknowledges⟩]
        unfold Opens
        cases decodeOpenAck second with
        | ok opened => exact iff_of_true ⟨_, rfl⟩ ⟨opened.1, opened.2, rfl⟩
        | err error => simp
        | panic fault => simp
      · rintro other openAck same ⟨_, opens⟩
        rw [only same, opens]
        refine ⟨rfl, ?_⟩
        rw [Session.exchanged_wire, Session.exchanged_wire]
        rfl
    · rw [if_pos version] at ran
      refine ⟨_, _, ran, .of_refused (by simp) ?_⟩
      rintro ⟨other, acknowledges⟩
      obtain rfl := only acknowledges
      obtain ⟨_, -, same⟩ := acknowledges
      exact version same

omit [Target] in
theorem clientHandshake_negotiates_cookie :
    letI := target64
    let zid := ZenohId.fromBytes [7, 8]
    let first : Bytes := [0x21, 9, 0x00, 5, 3, 0xA, 0xB, 0xC]
    let second : Bytes := [0x22, 10, 1]
    let transport : Transport := ⟨fun _ => .flushed, fun n => [first, second][n]?⟩
    ∃ after, Async.run perform (clientHandshake handshakeBuffers zid) (.new transport ⟨zid, 0⟩) =
        some (.ok ⟨ZenohId.fromBytes [5], 10, 10000, 0, 1⟩, after) ∧
      after.link.wire = [5, 0, 1, 9, 0x12, 7, 8, 8, 0, 2, 0x90, 0x4E, 0, 3, 0xA, 0xB, 0xC] := by
  let := target64
  intro zid first second transport
  have acknowledges : Acknowledges first ⟨9, .router, ZenohId.fromBytes [5], [0xA, 0xB, 0xC], none⟩ :=
    ⟨8, by decide +kernel, rfl⟩
  obtain ⟨result, after, ran, negotiated⟩ := clientHandshake_negotiates (show 1 ≤ zid.asBytes.length by decide +kernel)
    (show (Session.new transport ⟨zid, 0⟩).link.Answers first second from ⟨fun _ => rfl, rfl, rfl⟩)
    (by decide) (by decide)
  obtain ⟨rfl, wire⟩ := negotiated.opened _ ⟨10, 1⟩ acknowledges ⟨3, by decide +kernel⟩
  refine ⟨after, ran, ?_⟩
  rw [wire]
  decide +kernel

end Handshake
end ZenohRos2.Zenoh
