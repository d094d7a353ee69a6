import ZenohRos2.Sdk.Incoming
import ZenohRos2.Session.Session
import ZenohRos2.Transport.Readable

/-! The two receive paths: `recv_once` of a session, and `dispatch_frame` of a node.

Both decode the first message of a Frame's body. The session asks for the first
byte of every payload, and has no assembler; the node leaves empty payloads
alone and puts Fragments together.
-/

set_option autoImplicit false

namespace ZenohRos2
open Rust

namespace Zenoh
variable [Target] {payload : Bytes}

omit [Target] in
theorem returns_mapErr {ε δ α : Type} (convert : ε → δ) (result : Outcome ε α) (post : α → Prop) :
    (result.mapErr convert).Returns post ↔ result.Returns post := by
  cases result <;> rfl

omit [Target] in
theorem parseTransportMsgKind_eq_frame {header : UInt8} :
    parseTransportMsgKind header = .frame ↔ messageId header = transportId.frame := by
  refine ⟨fun kind => ?_, parseTransportMsgKind_frame⟩
  by_contra other
  simp only [parseTransportMsgKind, if_neg other] at kind
  split_ifs at kind

theorem returns_readMessage_iff (addressable : Addressable payload) :
    ((readMessage payload).Returns fun _ => True) ↔ payload ≠ [] ∧ FrameReadable payload := by
  cases payload with
  | nil => exact iff_of_false (fun returns => returns) fun both => both.1 rfl
  | cons header rest =>
    have read : (index (header :: rest) 0 : Outcome Error UInt8) = .ok header := rfl
    have first : (header :: rest)[0]? = some header := rfl
    rw [readMessage, read, Outcome.ok_bind, and_iff_right (List.cons_ne_nil _ _)]
    by_cases kind : messageId header = transportId.frame
    · rw [parseTransportMsgKind_frame kind]
      refine (Outcome.returns_bind _ _ _).trans ((returns_mapErr _ _ _).trans
        (returns_decodeFrameHeader_iff addressable fun sn reliable stop inside => ?_))
      simp only [sliceFrom_eq inside, Outcome.ok_bind]
      refine (Outcome.returns_bind _ _ _).trans ((returns_mapErr _ _ _).trans ?_)
      rw [← returns_decodePushPut_iff (addressable.drop stop)]
      exact Outcome.returns_congr fun found _ => by cases found <;> simp
    · have readable : FrameReadable (header :: rest) := by
        intro other found same
        cases first.symm.trans found
        exact absurd same kind
      refine iff_of_true ?_ readable
      cases other : parseTransportMsgKind header with
      | frame => exact absurd (parseTransportMsgKind_eq_frame.mp other) kind
      | _ => trivial

end Zenoh

section Paths
variable [Target] {payload : Bytes}

def IncomingPut.message (put : IncomingPut) : String × Bytes := (put.keySuffix, put.payload)

def foundMessage : Outcome Error (Option (String × Bytes)) → Option (String × Bytes)
  | .ok message => message
  | _ => none

def panics {ε α : Type} : Outcome ε α → Bool
  | .panic _ => true
  | _ => false

omit [Target] in
theorem panics_eq_false_iff {ε α : Type} (result : Outcome ε α) :
    panics result = false ↔ result.Returns fun _ => True := by
  cases result <;> simp [panics, Outcome.Returns]

/-- In place of `route_to_subscribers`: the Put that is passed to it is noted. -/
def noteMessage (put : IncomingPut) : Handled := ⟨[], [put.message]⟩

/-- What `dispatch_frame` passes on, and its assembler unless it panics. A Close leaves it as it is. -/
def passedMessages (fragAsm : FragmentAssembler) :
    Outcome Error (Handled × FragmentAssembler) → List (String × Bytes) × Option FragmentAssembler
  | .ok (handled, fragAsm) => (handled.messages, some fragAsm)
  | .err _ => ([], some fragAsm)
  | .panic _ => ([], none)

theorem foundMessage_readMessage (payload : Bytes) :
    foundMessage (Zenoh.readMessage payload) = ((incomingFrame payload).bind bodyPut).map IncomingPut.message := by
  cases payload with
  | nil => rfl
  | cons header rest =>
    have read : (index (header :: rest) 0 : Outcome Error UInt8) = .ok header := rfl
    unfold Zenoh.readMessage incomingFrame
    rw [read, Outcome.ok_bind, List.head?_cons, Option.map_some]
    cases kind : parseTransportMsgKind header with
    | frame =>
      simp only
      cases decoded : decodeFrameHeader (header :: rest) with
      | ok read =>
        obtain ⟨sn, reliable, bodyPos⟩ := read
        simp only [Outcome.mapErr, Outcome.ok_bind]
        by_cases inside : bodyPos ≤ (header :: rest).length
        · rw [sliceFrom_eq inside, Outcome.ok_bind, if_pos inside, Option.bind_some, bodyPut]
          cases decodePushPut ((header :: rest).drop bodyPos) with
          | ok found => cases found <;> rfl
          | err error => rfl
          | panic fault => rfl
        · rw [sliceFrom, if_neg inside, if_neg inside]
          rfl
      | err error => rfl
      | panic fault => rfl
    | _ => rfl

theorem passedMessages_dispatchWith (payload : Bytes) (fragAsm : FragmentAssembler) :
    (passedMessages fragAsm (dispatchWith noteMessage payload fragAsm)).1 =
      ((incomingPut payload fragAsm).map IncomingPut.message).toList := by
  cases found : incomingPut payload fragAsm with
  | some put =>
    rw [dispatchWith_of_put found]
    rfl
  | none =>
    cases ran : dispatchWith noteMessage payload fragAsm with
    | ok result =>
      obtain ⟨handled, after⟩ := result
      have same := (dispatchWith_ok ran).1
      rw [found] at same
      rw [same]
      rfl
    | err error => rfl
    | panic fault => rfl

theorem message_eq_iff (payload : Bytes) (fragAsm : FragmentAssembler) :
    ((incomingFrame payload).bind bodyPut).map IncomingPut.message =
        (incomingPut payload fragAsm).map IncomingPut.message ↔
      (assembled payload fragAsm).bind bodyPut = none := by
  unfold incomingPut
  cases incoming : incomingFrame payload with
  | some body =>
    have whole : assembled payload fragAsm = none := by
      rw [assembled, incomingFragment_of_frame incoming, Option.bind_none]
    simp [whole]
  | none =>
    simp only [Option.bind_none, Option.none_or, Option.map_none]
    rw [eq_comm, Option.map_eq_none_iff]

end Paths

namespace Zenoh
variable [Target] {cap : Nat}

abbrev Received (cap : Nat) := { payload : Bytes // payload.length ≤ cap ∧ payload.length ≤ 65535 }

def Session.facing (session : Session) (payload : Bytes) : Session :=
  { session with
    link := { session.link with
      transport := { session.link.transport with reads := fun _ => some payload }
      locked := false } }

structure Receivers where
  session : Session
  /-- What `recv_once` has returned. -/
  returned : List (String × Bytes)
  panicked : Bool
  /-- The assembler of the node, until its loop panics. -/
  fragAsm : Option FragmentAssembler
  /-- What `dispatch_frame` has passed to `route_to_subscribers`. -/
  passed : List (String × Bytes)

def Receivers.start (session : Session) (fragAsm : FragmentAssembler) : Receivers :=
  ⟨session, [], false, some fragAsm, []⟩

def Receivers.step (cap : Nat) (receivers : Receivers) (received : Received cap) : Option Receivers :=
  (Async.run perform (recvOnce cap) (receivers.session.facing received.val)).map fun (result, session) =>
    let passed := match receivers.fragAsm with
      | some fragAsm => passedMessages fragAsm (dispatchWith noteMessage received.val fragAsm)
      | none => ([], none)
    { session := session
      returned := receivers.returned ++ (foundMessage result).toList
      panicked := receivers.panicked || panics result
      fragAsm := passed.2
      passed := receivers.passed ++ passed.1 }

/-- `recv_once` has not panicked, and has returned what was passed on. -/
def Receivers.Agree (receivers : Receivers) : Prop :=
  receivers.panicked = false ∧ receivers.returned = receivers.passed

instance : DecidablePred Receivers.Agree := fun _ => inferInstanceAs (Decidable (_ ∧ _))

/-- The payload is not empty, no length in it overflows, and only Frames of a live node hand over a Put. -/
def Receivers.Plain (receivers : Receivers) (received : Received cap) : Prop :=
  received.val ≠ [] ∧ FrameReadable received.val ∧
    match receivers.fragAsm with
    | some fragAsm => (assembled received.val fragAsm).bind bodyPut = none
    | none => (incomingFrame received.val).bind bodyPut = none

def Session.readOnce (session : Session) : Session :=
  { session with link := { session.link with asked := session.link.asked + 1 } }

theorem run_recvOnce_facing (session : Session) (received : Received cap) :
    Async.run perform (recvOnce cap) (session.facing received.val) =
      some (readMessage received.val, (session.facing received.val).readOnce) := by
  have found : (((session.facing received.val).holding true).link.read cap).1 = .ok received.val :=
    if_neg (Nat.not_lt.mpr received.property.1)
  rw [recvOnce, Async.run_bind, run_withLink _ rfl, run_readFrame, found]
  rfl

theorem Receivers.step_eq (receivers : Receivers) (received : Received cap) :
    receivers.step cap received = some
      (let passed := match receivers.fragAsm with
        | some fragAsm => passedMessages fragAsm (dispatchWith noteMessage received.val fragAsm)
        | none => ([], none)
      { session := (receivers.session.facing received.val).readOnce
        returned := receivers.returned ++ (foundMessage (readMessage received.val)).toList
        panicked := receivers.panicked || panics (readMessage received.val)
        fragAsm := passed.2
        passed := receivers.passed ++ passed.1 }) := by
  rw [step, run_recvOnce_facing, Option.map_some]

theorem readMessage_plain (received : Received cap) :
    panics (readMessage received.val) = false ↔ received.val ≠ [] ∧ FrameReadable received.val := by
  have addressable : Addressable received.val := le_isizeMax (by have := received.property.2; omega)
  rw [panics_eq_false_iff, returns_readMessage_iff addressable]

omit [Target] in
theorem toList_eq_iff {α : Type} {one other : Option α} : one.toList = other.toList ↔ one = other := by
  cases one <;> cases other <;> simp

theorem Receivers.agree_step {receivers next : Receivers} {received : Received cap} (agree : receivers.Agree)
    (stepped : receivers.step cap received = some next) : next.Agree ↔ receivers.Plain received := by
  rw [step_eq, Option.some.injEq] at stepped
  subst stepped
  obtain ⟨calm, same⟩ := agree
  simp only [Agree, Plain, calm, same, Bool.false_or, readMessage_plain, List.append_cancel_left_eq,
    foundMessage_readMessage, and_assoc]
  refine and_congr_right fun _ => and_congr_right fun _ => ?_
  cases receivers.fragAsm with
  | none => simp
  | some fragAsm =>
    simp only [passedMessages_dispatchWith]
    exact toList_eq_iff.trans (message_eq_iff received.val fragAsm)

/-- `recv_once` goes through a sequence of payloads like `dispatch_frame` just if all of them are plain. -/
theorem recvOnce_agrees_dispatchFrame_iff (session : Session) (fragAsm : FragmentAssembler)
    (frames : List (Received cap)) :
    Machine.Always (Receivers.step cap) Receivers.Agree (.start session fragAsm) frames ↔
      Machine.Meets (Receivers.step cap) Receivers.Plain (.start session fragAsm) frames :=
  Machine.always_iff_meets (fun _ => True) (fun _ _ => trivial)
    (fun _ agree stepped => Receivers.agree_step agree stepped) trivial ⟨rfl, rfl⟩

omit [Target] in
/-- `recv_once` panics on an empty payload and on a length that overflows, and loses a Put that a Fragment carries. -/
theorem recvOnce_differs :
    letI := target64
    let start : Receivers := .start (.new ⟨fun _ => .flushed, fun _ => none⟩ ⟨ZenohId.fromBytes [7], 0⟩) .new
    ¬Machine.Always (Receivers.step 4096) Receivers.Agree start [⟨[], by decide⟩] ∧
      ¬Machine.Always (Receivers.step 4096) Receivers.Agree start
        [⟨[0x85, 0, 0x40, 0xff, 0xff, 0xff, 0xff, 0xff, 0xff, 0xff, 0xff, 0xff, 0x01], by decide⟩] ∧
      ¬Machine.Always (Receivers.step 4096) Receivers.Agree start [⟨[0x06, 0, 0x1d, 1, 0x01, 1, 7], by decide⟩] := by
  let := target64
  refine ⟨?_, ?_, ?_⟩ <;> decide +kernel

end Zenoh
end ZenohRos2
