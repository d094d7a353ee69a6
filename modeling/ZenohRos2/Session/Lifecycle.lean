import ZenohRos2.Session.Opening

/-! What is left of a session after a Close.

The state of a session is set by the handshake and by `close`, and no method
asks for it. So a closed session goes on as before, as far as its link lets it.
-/

set_option autoImplicit false

namespace ZenohRos2.Zenoh
open Rust

section Calls
variable {session : Session}

/-- The call fails without a frame on the link: it does not encode, or the link breaks it off. -/
def Session.Refuses (session : Session) (encoded : Outcome Error Bytes) : Prop :=
  encoded.Returns fun frame => ¬session.link.Takes frame

def failed {α : Type} : Outcome Error α → Bool
  | .err _ => true
  | _ => false

/-- How a call leaves a session: free again, in the same state, and with no frame less on the link. -/
structure Leaves (session after : Session) : Prop where
  free : after.link.locked = false
  state : after.state = session.state
  grows : session.link.written.length ≤ after.link.written.length

theorem Leaves.trans {between after : Session} (one : Leaves session between) (two : Leaves between after) :
    Leaves session after :=
  ⟨two.free, two.state.trans one.state, Nat.le_trans one.grows two.grows⟩

def Ends {α : Type} (call : Call α) : Prop :=
  ∀ session : Session, session.link.locked = false →
    ∃ result after, Async.run perform call session = some (result, after) ∧ Leaves session after

/-- A call that sends: it fails and leaves the link alone just when its first frame is refused. -/
structure Sends {α : Type} (call : Call α) (session : Session) (encoded : Outcome Error Bytes)
    (result : Outcome Error α) (after : Session) : Prop where
  ran : Async.run perform call session = some (result, after)
  leaves : Leaves session after
  refused : after.link.written.length ≤ session.link.written.length ∧ failed result = true ↔ session.Refuses encoded
  wrote : ∀ value, result = .ok value → session.link.written.length < after.link.written.length

section Write
variable {frame : Bytes}

theorem run_withLink_writeFrame (frame : Bytes) (free : session.link.locked = false) :
    Async.run perform (withLink (writeFrame frame)) session =
      some ((session.link.write frame).1.mapErr .transport, session.wrote frame) := by
  have released : ((session.holding true).wrote frame).holding false = session.wrote frame :=
    Session.holding_self (session.wrote frame) free
  rw [run_withLink _ free, run_writeFrame, Option.map_some, released]
  rfl

theorem Link.written_write (link : Link) (frame : Bytes) :
    (link.write frame).2.written = if link.Takes frame then link.written ++ [frame] else link.written := rfl

theorem leaves_wrote (frame : Bytes) (free : session.link.locked = false) : Leaves session (session.wrote frame) where
  free := free
  state := rfl
  grows := by
    change _ ≤ (session.link.write frame).2.written.length
    rw [Link.written_write]
    split <;> simp

theorem failed_of_not_takes {link : Link} (broken : ¬link.Takes frame) :
    failed ((link.write frame).1.mapErr Error.transport) = true := by
  simp only [Link.write, ZenohRos2.writeFrame]
  split
  · rfl
  · rename_i short
    split
    · rename_i flushed
      refine absurd ⟨by omega, ?_⟩ broken
      rw [of_decide_eq_true flushed]
      decide
    · rfl

theorem sends_writeFrame (session : Session) (frame : Bytes) (free : session.link.locked = false) :
    Sends (withLink (writeFrame frame)) session (.ok frame) ((session.link.write frame).1.mapErr .transport)
      (session.wrote frame) where
  ran := run_withLink_writeFrame frame free
  leaves := leaves_wrote frame free
  refused := by
    change (session.link.write frame).2.written.length ≤ _ ∧ _ ↔ ¬session.link.Takes frame
    rw [Link.written_write]
    by_cases takes : session.link.Takes frame
    · rw [if_pos takes, List.length_append, List.length_singleton]
      exact iff_of_false (fun both => Nat.not_succ_le_self _ both.1) (not_not_intro takes)
    · rw [if_neg takes]
      exact iff_of_true ⟨Nat.le_refl _, failed_of_not_takes takes⟩ takes
  wrote := by
    intro value ok
    change _ < (session.link.write frame).2.written.length
    rw [Link.write_eq_ok (Outcome.mapErr_eq_ok.mp ok)]
    simp

end Write

section Sequence
variable {α β : Type} {encoded : Outcome Error Bytes}

theorem ends_pure (value : α) : Ends (pure value) := fun session free => ⟨_, session, rfl, free, rfl, Nat.le_refl _⟩

theorem Sends.andThen {first : Call α} {result : Outcome Error α} {after : Session}
    (sends : Sends first session encoded result after) {next : α → Call β} (ends : ∀ value, Ends (next value)) :
    ∃ result after, Sends (first >>= next) session encoded result after := by
  have ran := Async.run_bind perform first next session
  rw [sends.ran, Option.bind_some] at ran
  cases result with
  | ok value =>
    have wrote := sends.wrote value rfl
    obtain ⟨result, last, rest, leaves⟩ := ends value after sends.leaves.free
    have grown := Nat.lt_of_lt_of_le wrote leaves.grows
    refine ⟨result, last, ran.trans rest, sends.leaves.trans leaves, ?_, fun _ _ => grown⟩
    have accepted : ¬session.Refuses encoded := fun refuses => nomatch (sends.refused.mpr refuses).2
    exact iff_of_false (fun both => absurd both.1 (Nat.not_le_of_lt grown)) accepted
  | err error => exact ⟨.err error, after, ran, sends.leaves, sends.refused, nofun⟩
  | panic fault => exact ⟨.panic fault, after, ran, sends.leaves, sends.refused, nofun⟩

theorem Ends.andThen {first : Call α} {next : α → Call β} (one : Ends first) (two : ∀ value, Ends (next value)) :
    Ends (first >>= next) := by
  intro session free
  obtain ⟨result, after, first_ran, leaves⟩ := one session free
  have ran := Async.run_bind perform first next session
  rw [first_ran, Option.bind_some] at ran
  cases result with
  | ok value =>
    obtain ⟨result, last, rest, further⟩ := two value after leaves.free
    exact ⟨result, last, ran.trans rest, leaves.trans further⟩
  | err error => exact ⟨.err error, after, ran, leaves⟩
  | panic fault => exact ⟨.panic fault, after, ran, leaves⟩

end Sequence
end Calls

section Methods
variable [Target] {buffers : Buffers} {session : Session}

/-- The first frame that a method writes, if it is one that sends. -/
def Operation.firstFrame (buffers : Buffers) (session : Session) : Operation → Option (Outcome Error Bytes)
  | .put keyExpr payload => some (encodeMessage buffers.txBuf session.snReliable (encodePushPut keyExpr 0 payload))
  | .putWithAttachment keyExpr payload seqNum timestampNs gid =>
    some (encodeMessage buffers.txBuf session.snReliable
      (encodePushPutWithAttachment keyExpr payload seqNum timestampNs gid))
  | .declareKeyExpr keyExpr =>
    some (encodeMessage buffers.txBuf session.snReliable (encodeDeclareKeyexpr session.nextKeyId keyExpr))
  | .subscribe keyExpr =>
    some (encodeMessage buffers.txBuf session.snReliable (encodeDeclareKeyexpr session.nextKeyId keyExpr))
  | .keepalive => some (.ok keepaliveFrame)
  | .recvOnce _ => none
  | .close => some (.ok closeFrame)

theorem sends_sendMessage (buffers : Buffers) (session : Session) (message : WireEncoder)
    (free : session.link.locked = false) :
    ∃ result after, Sends (sendMessage buffers message) session
      (encodeMessage buffers.txBuf session.snReliable message) result after := by
  let numbered : Session := { session with snReliable := session.snReliable + 1 }
  have begun : Async.run perform (sendMessage buffers message) session =
      Async.run perform (Async.lift (encodeMessage buffers.txBuf session.snReliable message) >>= fun frame =>
        withLink (writeFrame frame)) numbered := rfl
  cases encoded : encodeMessage buffers.txBuf session.snReliable message with
  | ok frame =>
    rw [encoded] at begun
    have sends := sends_writeFrame numbered frame free
    exact ⟨_, _, begun.trans sends.ran, ⟨sends.leaves.free, sends.leaves.state, sends.leaves.grows⟩, sends.refused,
      sends.wrote⟩
  | err error =>
    rw [encoded] at begun
    exact ⟨.err error, numbered, begun, ⟨free, rfl, Nat.le_refl _⟩, iff_of_true ⟨Nat.le_refl _, rfl⟩ trivial, nofun⟩
  | panic fault =>
    rw [encoded] at begun
    exact ⟨.panic fault, numbered, begun, ⟨free, rfl, Nat.le_refl _⟩, iff_of_false (fun both => nomatch both.2) id,
      nofun⟩

theorem ends_sendMessage (buffers : Buffers) (message : WireEncoder) : Ends (sendMessage buffers message) :=
  fun session free =>
  have ⟨result, after, sends⟩ := sends_sendMessage buffers session message free
  ⟨result, after, sends.ran, sends.leaves⟩

theorem sends_declareKeyExpr (buffers : Buffers) (keyExpr : String) (free : session.link.locked = false) :
    ∃ result after, Sends (declareKeyExpr buffers keyExpr) session
      (encodeMessage buffers.txBuf session.snReliable (encodeDeclareKeyexpr session.nextKeyId keyExpr))
      result after := by
  let declared : Session := { session with nextKeyId := session.nextKeyId + 1 }
  obtain ⟨_, _, sends⟩ := sends_sendMessage buffers declared (encodeDeclareKeyexpr session.nextKeyId keyExpr) free
  obtain ⟨result, after, sends⟩ := sends.andThen fun _ => ends_pure session.nextKeyId
  exact ⟨result, after, sends.ran, ⟨sends.leaves.free, sends.leaves.state, sends.leaves.grows⟩, sends.refused,
    sends.wrote⟩

theorem Operation.sends_of_free {operation : Operation} {encoded : Outcome Error Bytes}
    (free : session.link.locked = false) (sending : operation.firstFrame buffers session = some encoded)
    (other : operation ≠ .close) : ∃ result after, Sends (operation.call buffers) session encoded result after := by
  cases operation with
  | put keyExpr payload =>
    cases sending
    exact sends_sendMessage buffers session _ free
  | putWithAttachment keyExpr payload seqNum timestampNs gid =>
    cases sending
    exact sends_sendMessage buffers session _ free
  | declareKeyExpr keyExpr =>
    cases sending
    obtain ⟨_, _, sends⟩ := sends_declareKeyExpr buffers keyExpr free
    exact sends.andThen fun _ => ends_pure ()
  | subscribe keyExpr =>
    cases sending
    obtain ⟨_, _, sends⟩ := sends_declareKeyExpr buffers keyExpr free
    obtain ⟨_, _, sends⟩ := sends.andThen fun keyId =>
      (ends_sendMessage buffers (encodeDeclareSubscriberMapped keyId.toUInt32 keyId)).andThen fun _ =>
        ends_pure keyId
    exact sends.andThen fun _ => ends_pure ()
  | keepalive =>
    cases sending
    change ∃ result after, Sends Zenoh.keepalive session (.ok keepaliveFrame) result after
    rw [keepalive_eq]
    exact ⟨_, _, sends_writeFrame session keepaliveFrame free⟩
  | recvOnce cap => cases sending
  | close => exact absurd rfl other

theorem run_recvOnce (buffers : Buffers) (cap : Nat) (free : session.link.locked = false) :
    ∃ result, Async.run perform ((Operation.recvOnce cap).call buffers) session =
      some (result, { session with link := (session.link.read cap).2 }) := by
  have read : Async.run perform (withLink (readFrame cap)) session =
      some ((session.link.read cap).1.mapErr .transport, { session with link := (session.link.read cap).2 }) := by
    have released := Session.holding_self { session with link := (session.link.read cap).2 } free
    rw [run_withLink _ free, run_readFrame, Option.map_some]
    exact congrArg (fun after => some (_, after)) released
  change ∃ result, Async.run perform ((withLink (readFrame cap) >>= fun msgBuf => Async.lift (readMessage msgBuf)) >>=
    fun _ => pure ()) session = _
  rw [Async.run_bind, Async.run_bind, read, Option.bind_some]
  cases (session.link.read cap).1.mapErr Error.transport with
  | ok msgBuf =>
    simp only [Async.resume, Async.run_lift, Option.bind_some]
    cases readMessage msgBuf with
    | ok _ => exact ⟨_, rfl⟩
    | err error => exact ⟨_, rfl⟩
    | panic fault => exact ⟨_, rfl⟩
  | err error => exact ⟨_, rfl⟩
  | panic fault => exact ⟨_, rfl⟩

/-- `close` succeeds if the link is flushed; else the session stays behind in the state `Closing`. -/
theorem run_close (free : session.link.locked = false) :
    Async.run perform (Operation.close.call buffers) session =
      some (if session.link.transport.writes session.link.tried = .flushed
        then (.ok (), { session.wrote closeFrame with state := .disconnected })
        else (.err (.transport .io), { session.wrote closeFrame with state := .closing })) := by
  let closing : Session := { session with state := .closing }
  have begun : Async.run perform close session =
      Async.run perform (withLink (writeFrame closeFrame >>= fun _ => ask (.setState .disconnected))) closing := by
    rw [close_eq]
    rfl
  have short : closeFrame.length ≤ 65535 := by decide
  have wrote : ((closing.holding true).link.write closeFrame).1 =
      if decide (session.link.transport.writes session.link.tried = .flushed) then .ok () else .err .io :=
    writeFrame_eq short _
  have released (state : SessionState) := Session.holding_self { session.wrote closeFrame with state := state } free
  apply begun.trans
  have unlocked : closing.link.locked = false := free
  rw [run_withLink _ unlocked, Async.run_bind, run_writeFrame, Option.bind_some, wrote]
  by_cases flushed : session.link.transport.writes session.link.tried = .flushed
  · simp only [flushed, decide_true, if_true]
    exact congrArg (fun after => some (_, after)) (released .disconnected)
  · simp only [flushed, decide_false, Bool.false_eq_true, if_false]
    exact congrArg (fun after => some (_, after)) (released .closing)

end Methods

section Lifecycle
variable [Target]

structure Called where
  operation : Operation
  /-- It came after a Close. -/
  late : Bool
  failed : Bool
  frames : List Bytes
  deriving DecidableEq

structure Lifecycle where
  session : Option Session
  /-- A Close was written or received. -/
  closed : Bool
  last : Option Called

inductive Event where
  | opening (transport : Transport) (config : SessionConfig)
  | call (operation : Operation)

def Session.receivesClose (session : Session) (cap : Nat) : Bool :=
  match (session.link.read cap).1 with
  | .ok payload => payload.head?.map parseTransportMsgKind == some .close
  | _ => false

/-- The call has put a Close on the link, or received one. -/
def Operation.closes (session after : Session) : Operation → Bool
  | .close => after.link.written = session.link.written ++ [closeFrame]
  | .recvOnce cap => session.receivesClose cap
  | _ => false

def Operation.sends : Operation → Bool
  | .recvOnce _ => false
  | _ => true

namespace Lifecycle

def start : Lifecycle := ⟨none, false, none⟩

variable (buffers : Buffers)

/-- `open` makes a session, so it comes first; a session whose handshake fails is dropped. -/
def step (life : Lifecycle) : Event → Option Lifecycle
  | .opening transport config =>
    match life.session with
    | some _ => none
    | none => (Session.opened buffers transport config).map fun
      | .ok session => ⟨some session, false, none⟩
      | _ => start
  | .call operation => life.session.bind fun session =>
    (Async.run perform (operation.call buffers) session).map fun (result, after) =>
      ⟨some after, life.closed || operation.closes session after,
        some ⟨operation, life.closed, failed result, after.link.written.drop session.link.written.length⟩⟩

/-- After a Close the state is not `Open`, no call writes a frame, and those that send fail. A `close`
that fails leaves the state `Closing` on a broken link only. -/
def Obeys (life : Lifecycle) : Prop :=
  (life.closed → ∀ session ∈ life.session, session.state ≠ .open_) ∧
  (∀ called ∈ life.last, called.late → called.frames = [] ∧ (called.operation.sends → called.failed)) ∧
  ∀ called ∈ life.last, called.operation = .close → called.failed →
    ∀ session ∈ life.session, session.state = .closing →
      session.link.transport.writes session.link.tried = .brokenOff

instance : DecidablePred Obeys := fun _ => inferInstanceAs (Decidable (_ ∧ _ ∧ _))

/-- After a Close the link breaks off what is written. A Close is received after a `close` only. And of
a `close` either the frame is flushed, or the link breaks off the next write. -/
def Allowed (life : Lifecycle) : Event → Prop
  | .opening _ _ => True
  | .call operation => ∀ session ∈ life.session,
    (life.closed → ∀ encoded ∈ operation.firstFrame buffers session, session.Refuses encoded) ∧
    match operation with
    | .recvOnce cap => session.receivesClose cap → session.state ≠ .open_
    | .close => session.link.transport.writes session.link.tried = .flushed ∨
        session.link.transport.writes (session.link.tried + 1) = .brokenOff
    | _ => True

def Sound (life : Lifecycle) : Prop := ∀ session ∈ life.session, session.link.locked = false

variable {buffers} {life next : Lifecycle}

def called (life : Lifecycle) (operation : Operation) (session : Session) (result : Outcome Error Unit)
    (after : Session) : Lifecycle :=
  ⟨some after, life.closed || operation.closes session after,
    some ⟨operation, life.closed, failed result, after.link.written.drop session.link.written.length⟩⟩

theorem step_call {operation : Operation} (stepped : life.step buffers (.call operation) = some next) :
    ∃ session result after, life.session = some session ∧
      Async.run perform (operation.call buffers) session = some (result, after) ∧
      next = life.called operation session result after := by
  obtain ⟨session, here, stepped⟩ := Option.bind_eq_some_iff.mp stepped
  obtain ⟨⟨result, after⟩, ran, rfl⟩ := Option.map_eq_some_iff.mp stepped
  exact ⟨session, result, after, here, ran, rfl⟩

theorem free_of_run {operation : Operation} {session after : Session} {result : Outcome Error Unit}
    (free : session.link.locked = false)
    (ran : Async.run perform (operation.call buffers) session = some (result, after)) :
    after.link.locked = false := by
  cases sending : operation.firstFrame buffers session with
  | none =>
    cases operation with
    | recvOnce cap =>
      obtain ⟨_, received⟩ := run_recvOnce buffers cap free
      rw [received] at ran
      cases ran
      exact free
    | _ => cases sending
  | some encoded =>
    by_cases close : operation = .close
    · subst close
      rw [run_close free] at ran
      split at ran <;> (cases ran; exact free)
    · obtain ⟨_, _, sends⟩ := Operation.sends_of_free free sending close
      rw [sends.ran] at ran
      cases ran
      exact sends.leaves.free

theorem Sound.step {event : Event} (sound : life.Sound) (stepped : life.step buffers event = some next) :
    next.Sound := by
  cases event with
  | opening transport config =>
    simp only [Lifecycle.step] at stepped
    split at stepped
    · cases stepped
    · obtain ⟨result, opened, rfl⟩ := Option.map_eq_some_iff.mp stepped
      cases result with
      | ok session =>
        intro _ here
        cases here
        exact (Session.fresh_of_opened opened).free
      | err error => exact nofun
      | panic fault => exact nofun
  | call operation =>
    obtain ⟨session, result, after, here, ran, rfl⟩ := step_call stepped
    intro _ same
    cases same
    exact free_of_run (sound session here) ran

omit [Target] in
theorem obeys_called_iff {operation : Operation} {session after : Session} {result : Outcome Error Unit} :
    (life.called operation session result after).Obeys ↔
      ((life.closed || operation.closes session after) → after.state ≠ .open_) ∧
      (life.closed → after.link.written.drop session.link.written.length = [] ∧ (operation.sends → failed result)) ∧
      (operation = .close → failed result → after.state = .closing →
        after.link.transport.writes after.link.tried = .brokenOff) := by
  unfold Obeys called
  simp only [Option.mem_some_iff, forall_eq']

theorem Obeys.sent_iff {operation : Operation} {session after : Session} {result : Outcome Error Unit}
    {encoded : Outcome Error Bytes} (obeys : life.Obeys) (here : life.session = some session)
    (other : operation ≠ .close) (quiet : operation.closes session after = false)
    (sending : operation.firstFrame buffers session = some encoded) (sends : operation.sends = true)
    (sent : Sends (operation.call buffers) session encoded result after) :
    (life.called operation session result after).Obeys ↔
      (life.closed → ∀ encoded ∈ operation.firstFrame buffers session, session.Refuses encoded) := by
  rw [obeys_called_iff, quiet, Bool.or_false, sending]
  constructor
  · rintro ⟨-, late, -⟩ closed _ same
    cases same
    obtain ⟨silent, fails⟩ := late closed
    exact sent.refused.mp ⟨List.drop_eq_nil_iff.mp silent, fails sends⟩
  · intro refuses
    refine ⟨?_, ?_, ?_⟩
    · intro closed
      rw [sent.leaves.state]
      exact obeys.1 closed session here
    · intro closed
      obtain ⟨silent, fails⟩ := sent.refused.mpr (refuses closed encoded rfl)
      exact ⟨List.drop_eq_nil_iff.mpr silent, fun _ => fails⟩
    · intro close
      exact absurd close other

omit [Target] in
theorem Obeys.received_iff {session : Session} {result : Outcome Error Unit} (obeys : life.Obeys)
    (here : life.session = some session) (cap : Nat) :
    (life.called (.recvOnce cap) session result { session with link := (session.link.read cap).2 }).Obeys ↔
      (session.receivesClose cap → session.state ≠ .open_) := by
  rw [obeys_called_iff]
  constructor
  · rintro ⟨state, -, -⟩ received
    exact state ((Bool.or_eq_true _ _).mpr (.inr received))
  · intro state
    refine ⟨?_, ?_, nofun⟩
    · intro closed
      rcases (Bool.or_eq_true _ _).mp closed with before | now
      · exact obeys.1 before session here
      · exact state now
    · intro _
      exact ⟨List.drop_length, nofun⟩

omit [Target] in
theorem silent_close_iff (session : Session) :
    (session.wrote closeFrame).link.written.drop session.link.written.length = [] ↔
      ¬session.link.Takes closeFrame := by
  change (if session.link.Takes closeFrame then session.link.written ++ [closeFrame]
    else session.link.written).drop _ = [] ↔ _
  by_cases takes : session.link.Takes closeFrame
  · rw [if_pos takes, List.drop_left]
    exact iff_of_false nofun (not_not_intro takes)
  · rw [if_neg takes, List.drop_length]
    exact iff_of_true rfl takes

theorem Obeys.closed_iff {session after : Session} {result : Outcome Error Unit}
    (ran : (if session.link.transport.writes session.link.tried = .flushed
      then (.ok (), { session.wrote closeFrame with state := .disconnected })
      else (.err (.transport .io), { session.wrote closeFrame with state := .closing })) = (result, after)) :
    (life.called .close session result after).Obeys ↔
      (life.closed → ∀ encoded ∈ Operation.close.firstFrame buffers session, session.Refuses encoded) ∧
        (session.link.transport.writes session.link.tried = .flushed ∨
          session.link.transport.writes (session.link.tried + 1) = .brokenOff) := by
  have silent := silent_close_iff session
  have refuses_iff : (∀ encoded ∈ Operation.close.firstFrame buffers session, session.Refuses encoded) ↔
      ¬session.link.Takes closeFrame := by
    simp only [Operation.firstFrame, Option.mem_some_iff, forall_eq']
    rfl
  rw [obeys_called_iff, refuses_iff]
  by_cases flushed : session.link.transport.writes session.link.tried = .flushed
  · rw [if_pos flushed] at ran
    cases ran
    have takes : session.link.Takes closeFrame := ⟨by decide, by rw [flushed]; decide⟩
    constructor
    · rintro ⟨-, late, -⟩
      exact ⟨fun closed => silent.mp (late closed).1, .inl flushed⟩
    · rintro ⟨refuses, -⟩
      exact ⟨fun _ => nofun, fun closed => absurd takes (refuses closed), fun _ => nofun⟩
  · rw [if_neg flushed] at ran
    cases ran
    constructor
    · rintro ⟨-, late, broken⟩
      exact ⟨fun closed => silent.mp (late closed).1, .inr (broken rfl rfl rfl)⟩
    · rintro ⟨refuses, next⟩
      exact ⟨fun _ => nofun, fun closed => ⟨silent.mpr (refuses closed), fun _ => rfl⟩,
        fun _ _ _ => next.resolve_left flushed⟩

theorem Obeys.step_iff {event : Event} (sound : life.Sound) (obeys : life.Obeys)
    (stepped : life.step buffers event = some next) : next.Obeys ↔ life.Allowed buffers event := by
  cases event with
  | opening transport config =>
    refine iff_of_true ?_ trivial
    simp only [Lifecycle.step] at stepped
    split at stepped
    · cases stepped
    · obtain ⟨result, -, rfl⟩ := Option.map_eq_some_iff.mp stepped
      cases result <;> exact ⟨nofun, nofun, nofun⟩
  | call operation =>
    obtain ⟨session, result, after, here, ran, rfl⟩ := step_call stepped
    have free := sound session here
    -- All that send, other than `close`, are alike here.
    have sent {encoded : Outcome Error Bytes} (sending : operation.firstFrame buffers session = some encoded)
        (other : operation ≠ .close) (quiet : operation.closes session after = false) (sends : operation.sends = true) :
        (life.called operation session result after).Obeys ↔
          (life.closed → ∀ encoded ∈ operation.firstFrame buffers session, session.Refuses encoded) := by
      obtain ⟨_, _, sent⟩ := Operation.sends_of_free free sending other
      have same := sent.ran
      rw [ran] at same
      cases same
      exact obeys.sent_iff here other quiet sending sends sent
    unfold Allowed
    simp only [here, Option.mem_some_iff, forall_eq']
    cases operation with
    | recvOnce cap =>
      obtain ⟨_, received⟩ := run_recvOnce buffers cap free
      rw [received] at ran
      cases ran
      exact (obeys.received_iff here cap).trans (and_iff_right nofun).symm
    | close =>
      rw [run_close free] at ran
      exact closed_iff (Option.some.inj ran)
    | put keyExpr payload => exact (sent rfl nofun rfl rfl).trans (and_iff_left trivial).symm
    | putWithAttachment keyExpr payload seqNum timestampNs gid =>
      exact (sent rfl nofun rfl rfl).trans (and_iff_left trivial).symm
    | declareKeyExpr keyExpr => exact (sent rfl nofun rfl rfl).trans (and_iff_left trivial).symm
    | subscribe keyExpr => exact (sent rfl nofun rfl rfl).trans (and_iff_left trivial).symm
    | keepalive => exact (sent rfl nofun rfl rfl).trans (and_iff_left trivial).symm

/-- In any run, failing reads and writes among it, a session that was closed stays closed just when its
link breaks off whatever is written behind the Close, and no Close is received while it is open. -/
theorem obeys_iff_allowed (buffers : Buffers) (events : List Event) :
    Machine.Always (step buffers) Obeys start events ↔ Machine.Meets (step buffers) (Allowed buffers) start events :=
  Machine.always_iff_meets Sound Sound.step Obeys.step_iff nofun ⟨nofun, nofun, nofun⟩

omit [Target] in
/-- Behind its Close a session goes on to write, and it is still `Open` after the Close of the router. And a
`close` that fails leaves it `Closing`, with a link that takes the next frame. -/
theorem goes_on_after_close :
    letI := target64
    let buffers : Buffers := ⟨512, 4096, le_isizeMax (by decide), le_isizeMax (by decide)⟩
    let config : SessionConfig := ⟨ZenohId.fromBytes [7], 0⟩
    let acks : List Bytes := [[0x21, 9, 0, 1, 1, 5], [0x22, 10, 0], [3, 0]]
    let broken : Transport := ⟨fun i => if i = 2 then .brokenOff else .flushed, fun i => acks[i]?⟩
    let written : List Event := [.opening .accepting config, .call .close, .call (.put "a" [])]
    let received : List Event := [.opening ⟨fun _ => .flushed, fun i => acks[i]?⟩ config, .call (.recvOnce 64)]
    let failing : List Event := [.opening broken config, .call .close]
    let ended (events : List Event) : Option Lifecycle :=
      Machine.execute (step buffers) (fun _ _ => True) events start
    ((ended written).bind (·.last)).map (fun called => (called.late, called.failed, called.frames.length)) =
        some (true, false, 1) ∧
      ((ended received).bind (·.session)).map Session.state = some .open_ ∧
      ((ended failing).bind (·.session)).map Session.state = some .closing ∧
      ∀ events ∈ [written, received, failing], ¬Machine.Always (step buffers) Obeys start events := by
  decide +kernel

end Lifecycle
end Lifecycle
end ZenohRos2.Zenoh
