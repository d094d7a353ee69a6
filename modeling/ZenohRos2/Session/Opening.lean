import ZenohRos2.Session.Session
import ZenohRos2.Transport.Body

/-! What a session has done when it is open. -/

set_option autoImplicit false

namespace ZenohRos2.Zenoh
open Rust

section Frames
variable [Target]

theorem frameSn_of_other {first : UInt8} (other : messageId first ≠ transportId.frame) (tail : Bytes) :
    frameSn (first :: tail) = none := by
  have header : (index (first :: tail) 0 : Outcome TransportError UInt8) = .ok first := rfl
  unfold frameSn decodeFrameHeader
  rw [if_neg (by simp), header, Outcome.ok_bind, if_pos other]

theorem encodeInitSyn_empty {msg : InitSyn} (empty : msg.zid.asBytes.length = 0) (buf : Bytes)
    (encoded : Nat × Bytes) : encodeInitSyn msg buf ≠ .ok encoded := by
  intro ran
  obtain ⟨⟨_, cursor⟩, body, -⟩ := Outcome.bind_eq_ok.mp ran
  obtain ⟨⟨_, _⟩, -, body⟩ := Outcome.bind_eq_ok.mp body
  obtain ⟨⟨_, _⟩, -, body⟩ := Outcome.bind_eq_ok.mp body
  obtain ⟨⟨flags, _⟩, flagged, -⟩ := Outcome.bind_eq_ok.mp body
  obtain ⟨_, counted, -⟩ := Outcome.bind_eq_ok.mp flagged
  rw [initFlags, empty] at counted
  cases counted

theorem decodeInitAck_cookie {buf : Bytes} {initAck : InitAck} {consumed : Nat}
    (decoded : decodeInitAck buf = .ok (initAck, consumed)) : initAck.cookie.length ≤ cookieCap := by
  obtain ⟨head, -, decoded⟩ := Outcome.bind_eq_ok.mp decoded
  obtain ⟨⟨cookie, pos⟩, -, decoded⟩ := Outcome.bind_eq_ok.mp decoded
  simp only at decoded
  split at decoded
  · cases decoded
  · rename_i short
    obtain ⟨stop, -, decoded⟩ := Outcome.bind_eq_ok.mp decoded
    cases decoded
    exact Nat.le_of_not_lt short

theorem encodeAlone_eq_ok {message : WireEncoder} {bytes buf frame after : Bytes}
    (encodes : Encodes TransportError.frameTooLarge message bytes) (addressable : Addressable buf)
    (encoded : encodeAlone message buf = .ok (frame, after)) : frame = bytes ∧ Addressable after := by
  by_cases fits : bytes.length ≤ buf.length
  · rw [encodeAlone_eq encodes addressable fits] at encoded
    cases encoded
    refine ⟨rfl, addressable.of_length_le ?_⟩
    simp only [List.length_append, List.length_drop]
    omega
  · rw [encodeAlone, encodes buf addressable, if_neg fits] at encoded
    cases encoded

end Frames

section Opened
variable [Target] {buffers : Buffers} {session after : Session}

def Ran {α : Type} (call : Call α) (session : Session) (value : α) (after : Session) : Prop :=
  Async.run perform call session = some (.ok value, after)

section Steps
variable {α β : Type} {value : β}

omit [Target] in
theorem Ran.bind {first : Call α} {next : α → Call β} (ran : Ran (first >>= next) session value after) :
    ∃ middle between, Ran first session middle between ∧ Ran (next middle) between value after :=
  Async.run_bind_eq_ok.mp ran

omit [Target] in
theorem Ran.lift {result : Outcome Error α} {next : α → Call β}
    (ran : Ran (Async.lift result >>= next) session value after) :
    ∃ middle, result = .ok middle ∧ Ran (next middle) session value after := by
  obtain ⟨middle, between, first, rest⟩ := ran.bind
  cases first
  exact ⟨middle, rfl, rest⟩

omit [Target] in
theorem Ran.write {frame : Bytes} {next : Unit → Call β}
    (ran : Ran (writeFrame frame >>= next) session value after) :
    (session.wrote frame).link.written = session.link.written ++ [frame] ∧
      Ran (next ()) (session.wrote frame) value after := by
  obtain ⟨middle, between, first, rest⟩ := ran.bind
  rw [Ran, run_writeFrame] at first
  obtain ⟨result, same⟩ := Prod.mk.inj (Option.some.inj first)
  rw [← same] at rest
  exact ⟨Link.write_eq_ok (Outcome.mapErr_eq_ok.mp result), rest⟩

omit [Target] in
theorem Ran.read {cap : Nat} {next : Bytes → Call β} (ran : Ran (readFrame cap >>= next) session value after) :
    ∃ received, Ran (next received) { session with link := (session.link.read cap).2 } value after := by
  obtain ⟨received, between, first, rest⟩ := ran.bind
  rw [Ran, run_readFrame] at first
  obtain ⟨-, same⟩ := Prod.mk.inj (Option.some.inj first)
  rw [← same] at rest
  exact ⟨received, rest⟩

end Steps

theorem Ran.clientHandshake {zid : ZenohId} {result : HandshakeResult}
    (ran : Ran (clientHandshake buffers zid) session result after) :
    ∃ cookie, after.link.written = session.link.written ++ [initSynBytes ⟨protoVersion, .client, zid, none⟩] ++
        [openSynBytes ⟨defaultLeaseMs, 0, cookie⟩] ∧
      after = { session with link := after.link } ∧ result.ourLeaseMs = defaultLeaseMs := by
  have array : Addressable (List.replicate buffers.txBuf (0 : UInt8)) := by
    unfold Addressable
    rw [List.length_replicate]
    exact buffers.arrays.1
  obtain ⟨⟨initSyn, txBuf⟩, encoded, ran⟩ := ran.lift
  obtain ⟨first, ran⟩ := ran.write
  obtain ⟨received, ran⟩ := ran.read
  obtain ⟨⟨initAck, _⟩, decoded, ran⟩ := ran.lift
  by_cases version : initAck.version = protoVersion
  · simp only [version, ne_eq, not_true_eq_false, if_false] at ran
    obtain ⟨⟨openSyn, _⟩, encoded', ran⟩ := ran.lift
    obtain ⟨second, ran⟩ := ran.write
    obtain ⟨_, ran⟩ := ran.read
    obtain ⟨_, -, ran⟩ := ran.lift
    cases ran
    have nonempty : 0 < zid.asBytes.length := by
      apply Nat.pos_of_ne_zero
      intro empty
      obtain ⟨result, ran, -⟩ := Outcome.bind_eq_ok.mp encoded
      exact encodeInitSyn_empty empty _ result (Outcome.mapErr_eq_ok.mp ran)
    obtain ⟨rfl, kept⟩ := encodeAlone_eq_ok (encodes_encodeInitSyn nonempty) array encoded
    have cookie : Addressable initAck.cookie :=
      le_isizeMax (Nat.lt_of_le_of_lt (decodeInitAck_cookie (Outcome.mapErr_eq_ok.mp decoded)) (by decide))
    obtain ⟨rfl, -⟩ := encodeAlone_eq_ok (encodes_encodeOpenSyn cookie) kept encoded'
    refine ⟨initAck.cookie, ?_, rfl, rfl⟩
    change (Session.wrote _ _).link.written = _
    rw [second, ← first]
    rfl
  · simp only [version, ne_eq, not_false_eq_true, if_true] at ran
    cases ran

theorem Ran.doHandshake {config : SessionConfig} {result : HandshakeResult}
    (ran : Ran (doHandshake buffers config) session result after) (free : session.link.locked = false) :
    ∃ cookie, after.link.written = session.link.written ++
        [initSynBytes ⟨protoVersion, .client, config.zid, none⟩] ++ [openSynBytes ⟨defaultLeaseMs, 0, cookie⟩] ∧
      after = { session with link := after.link, state := .open_ } ∧ after.link.locked = false ∧
      result.ourLeaseMs = defaultLeaseMs := by
  obtain ⟨_, connecting, first, ran⟩ := ran.bind
  cases first
  obtain ⟨result, between, locked, ran⟩ := ran.bind
  rw [Ran, run_withLink _ (show ({ session with state := .connecting } : Session).link.locked = false from free)] at locked
  obtain ⟨⟨_, inner⟩, handshake, left⟩ := Option.map_eq_some_iff.mp locked
  cases left
  cases ran
  obtain ⟨cookie, written, same, offered⟩ := Ran.clientHandshake handshake
  -- Nothing but the link has changed between the two states.
  have left := congrArg (fun middle : Session => { Session.holding false middle with state := .open_ }) same
  exact ⟨cookie, written, left, rfl, offered⟩

/-- A session as `open` returns it: no Frame is on the link yet. -/
structure Session.Fresh (session : Session) : Prop where
  state : session.state = .open_
  free : session.link.locked = false
  snReliable : session.snReliable = 0
  numbers : session.link.written.filterMap frameSn = []

theorem Session.fresh_of_opened {transport : Transport} {config : SessionConfig}
    (opened : Session.opened buffers transport config = some (.ok session)) : session.Fresh := by
  obtain ⟨⟨result, after⟩, ran, same⟩ := Option.map_eq_some_iff.mp opened
  cases result with
  | err error => cases same
  | panic fault => cases same
  | ok result =>
    cases same
    obtain ⟨cookie, written, same, free, -⟩ :=
      Ran.doHandshake (show Ran (doHandshake buffers config) _ result session from ran) rfl
    refine ⟨?_, free, ?_, ?_⟩
    · rw [same]
    · rw [same]
      rfl
    · rw [written]
      have initSyn : frameSn (initSynBytes ⟨protoVersion, .client, config.zid, none⟩) = none :=
        frameSn_of_other (show messageId (transportId.init ||| flagIf false initFlag.s) ≠ _ by decide) _
      have openSyn : frameSn (openSynBytes ⟨defaultLeaseMs, 0, cookie⟩) = none := frameSn_of_other (by decide) _
      rw [List.filterMap_append, List.filterMap_append, List.filterMap_cons_none initSyn,
        List.filterMap_cons_none openSyn]
      rfl

-- As for runs of a machine: a closed computation, for `decide` to evaluate.
theorem Session.exists_opened {transport : Transport} {config : SessionConfig} {holds : Session → Prop}
    [DecidablePred holds] (found : ((Session.opened buffers transport config).any fun
      | .ok session => decide (holds session)
      | _ => false) = true) :
    ∃ session, Session.opened buffers transport config = some (.ok session) ∧ holds session := by
  obtain ⟨result, opened, holds⟩ := (Option.any_eq_true _ _).mp found
  cases result with
  | ok session => exact ⟨session, opened, of_decide_eq_true holds⟩
  | err error => cases holds
  | panic fault => cases holds

def Transport.accepting : Transport where
  writes _ := .flushed
  reads i := [[0x21, 9, 0, 1, 1, 5], [0x22, 10, 0]][i]?

end Opened
end ZenohRos2.Zenoh
