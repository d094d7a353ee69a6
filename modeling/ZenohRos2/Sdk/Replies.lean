import ZenohRos2.Lib.Scan
import ZenohRos2.Sdk.Routing
import ZenohRos2.Sdk.Service
import ZenohRos2.Transport.Response

/-! Which message of the stream decides a service call.

The loop looks at the first message of a frame only, and compares request ids
in their low 32 bits. What is asked for is the first message of the stream that
has the request id in full.
-/

set_option autoImplicit false

namespace ZenohRos2
open Rust Cdr

inductive NetworkMessage where
  | push (message : PushPut)
  | reply (reply : Reply)
  | final (final : ResponseFinal)
  deriving DecidableEq

def NetworkMessage.bytes : NetworkMessage → Bytes
  | .push message => message.bytes
  | .reply response => response.bytes
  | .final response => response.bytes

/-- A Frame whose body holds the given messages one after the other. -/
structure ServiceFrame where
  head : FrameHead
  messages : List NetworkMessage
  deriving DecidableEq

namespace ServiceFrame

def body (frame : ServiceFrame) : Bytes := frame.messages.flatMap NetworkMessage.bytes

def bytes (frame : ServiceFrame) : Bytes := frame.head.bytes ++ frame.body

end ServiceFrame

section Answers
variable [Target] (ty : Ty) (requestId : UInt32)

/-- How a message answers the call, if its request id is taken for that of the call. -/
def NetworkMessage.answer (same : UInt64 → Bool) : NetworkMessage → Option (Outcome Error ty.Val)
  | .push _ => none
  | .reply response => if same response.requestId then some (readReply ty response.payload) else none
  | .final response => if same response.requestId then some (.err .serviceNoReply) else none

/-- The answer of the first message of the frame that has the request id, in full. -/
def ServiceFrame.awaited (frame : ServiceFrame) : Option (Outcome Error ty.Val) :=
  frame.messages.findSome? (NetworkMessage.answer ty (· == requestId.toUInt64))

/-- The answer of the message at the front, by the low bits of its request id. -/
def ServiceFrame.leading (frame : ServiceFrame) : Option (Outcome Error ty.Val) :=
  frame.messages.head?.bind (NetworkMessage.answer ty (·.toUInt32 == requestId))

variable {ty} {requestId}

/-- What the loop makes of an answer, before it looks for a publication. -/
def asMatch : Option (Outcome Error ty.Val) → Outcome Error (Option ty.Val)
  | none => .ok none
  | some result => do
    let resp ← result
    .ok (some resp)

theorem matchResponse_body (frame : ServiceFrame) (addressable : Addressable frame.body) :
    matchResponse ty requestId frame.body = asMatch (frame.leading ty requestId) := by
  obtain ⟨head, messages⟩ := frame
  unfold ServiceFrame.leading ServiceFrame.body matchResponse at *
  cases messages with
  | nil => rfl
  | cons message messages =>
    rw [List.flatMap_cons] at *
    cases message with
    | push message =>
      have other : decodeResponse (message.bytes ++ messages.flatMap NetworkMessage.bytes) = .ok none := by
        apply decodeResponse_other
        · rw [message.messageId_pushHeader]
          decide
        · rw [message.messageId_pushHeader]
          decide
      simp only [NetworkMessage.bytes, other]
      rfl
    | reply response =>
      simp only [NetworkMessage.bytes, decodeResponse_reply response _ addressable]
      by_cases same : response.requestId.toUInt32 = requestId
      · simp [ifOk, asMatch, NetworkMessage.answer, Reply.incoming, same]
      · simp [ifOk, asMatch, NetworkMessage.answer, Reply.incoming, same]
    | final response =>
      simp only [NetworkMessage.bytes, decodeResponse_final response _ addressable]
      by_cases same : response.requestId.toUInt32 = requestId
      · simp [ifOk, asMatch, NetworkMessage.answer, same]
      · simp [ifOk, asMatch, NetworkMessage.answer, same]

theorem decodePushPut_body (frame : ServiceFrame) (addressable : Addressable frame.body) :
    ∃ put, decodePushPut frame.body = .ok put := by
  obtain ⟨head, messages⟩ := frame
  unfold ServiceFrame.body at *
  cases messages with
  | nil => exact ⟨none, rfl⟩
  | cons message messages =>
    rw [List.flatMap_cons] at *
    cases message with
    | push message => exact ⟨_, decodePushPut_append message _ addressable⟩
    | reply response =>
      exact ⟨none, decodePushPut_other (by rw [response.messageId_responseHeader]; decide)⟩
    | final response =>
      exact ⟨none, decodePushPut_other (by rw [response.messageId_headerByte]; decide)⟩

end Answers

section Turns
variable [Target] {ty : Ty} {requestId : UInt32} {node : Node}

theorem ServiceFrame.decodeFrameHeader_bytes (frame : ServiceFrame) (addressable : Addressable frame.bytes) :
    decodeFrameHeader frame.bytes = .ok (frame.head.sn, frame.head.reliable, frame.head.bytes.length) :=
  decodeFrameHeader_of_part addressable ⟨_, rfl⟩

theorem ServiceFrame.body_addressable {frame : ServiceFrame} (addressable : Addressable frame.bytes) :
    Addressable frame.body := addressable.of_length_le (by simp [bytes])

theorem dispatchFrame_service (node : Node) (frame : ServiceFrame) (addressable : Addressable frame.bytes)
    (fragAsm : FragmentAssembler) : ∃ handled, dispatchFrame node frame.bytes fragAsm = .ok (handled, fragAsm) := by
  obtain ⟨put, decoded⟩ := decodePushPut_body frame (ServiceFrame.body_addressable addressable)
  rw [dispatchFrame, ServiceFrame.bytes, dispatchWith_frame _ _ _ _ addressable, handleBody, decoded]
  cases put with
  | some _ => exact ⟨_, rfl⟩
  | none => exact ⟨_, rfl⟩

theorem handle_service (waiting : Waiting) (frame : ServiceFrame) (addressable : Addressable frame.bytes) :
    waiting.handle ty requestId node frame.bytes =
      match frame.leading ty requestId with
      | some result => do
        let resp ← result
        .ok (some resp, waiting)
      | none => .ok (none, waiting) := by
  have body : (sliceFrom frame.bytes frame.head.bytes.length : Outcome Error Bytes) = .ok frame.body := by
    rw [sliceFrom_eq (by simp [ServiceFrame.bytes]), ServiceFrame.bytes, List.drop_left]
  unfold Waiting.handle
  simp only [frame.decodeFrameHeader_bytes addressable, ifOk, body, Outcome.ok_bind,
    matchResponse_body frame (ServiceFrame.body_addressable addressable)]
  cases frame.leading ty requestId with
  | some result => cases result <;> rfl
  | none =>
    obtain ⟨handled, dispatched⟩ := dispatchFrame_service node frame addressable waiting.fragAsm
    simp only [asMatch, Outcome.ok_bind, dispatched]

theorem take_cons (waiting : Waiting) (first : UInt8) (tail : Bytes) :
    let read : Waiting := { waiting with rxBuf := first :: tail ++ waiting.rxBuf.drop (first :: tail).length }
    waiting.take ty requestId node (first :: tail) =
      if messageId first = transportId.frame then read.handle ty requestId node (first :: tail)
      else if messageId first = transportId.close then .err (.transport .connectionClosed)
      else .ok (none, read) := by
  intro read
  have same : (index read.rxBuf 0 : Outcome Error UInt8) = .ok first := rfl
  have front : read.rxBuf.take (first :: tail).length = first :: tail := List.take_left
  change (index read.rxBuf 0 >>= fun first => if messageId first = transportId.frame then
    read.handle ty requestId node (read.rxBuf.take (first :: tail).length) else _) = _
  rw [same, Outcome.ok_bind, front]

theorem awaitReply_frame (ty : Ty) (requestId : UInt32) (node : Node) {frame : ServiceFrame}
    (fits : frame.bytes.length ≤ rxBufSize) (waiting : Waiting) (arrivals : List Arrival) :
    ∃ next, awaitReply ty requestId node waiting (.frame frame.bytes :: arrivals) =
      match frame.leading ty requestId with
      | some result => some (result, arrivals)
      | none => awaitReply ty requestId node next arrivals := by
  let next : Waiting := { waiting with rxBuf := frame.bytes ++ waiting.rxBuf.drop frame.bytes.length }
  have addressable : Addressable frame.bytes := le_isizeMax (Nat.lt_of_le_of_lt fits (by decide))
  have taken : waiting.take ty requestId node frame.bytes = next.handle ty requestId node frame.bytes :=
    (take_cons waiting frame.head.headerByte _).trans (if_pos frame.head.messageId_headerByte)
  refine ⟨next, ?_⟩
  rw [awaitReply, Waiting.turn, taken, handle_service next frame addressable]
  cases frame.leading ty requestId with
  | some result => cases result <;> rfl
  | none => rfl

theorem awaitReply_frames {frames : List ServiceFrame} (fit : ∀ frame ∈ frames, frame.bytes.length ≤ rxBufSize)
    (waiting : Waiting) :
    awaitReply ty requestId node waiting (frames.map fun frame => .frame frame.bytes) =
      Scan.seen (fun frame => .frame frame.bytes) (Scan.firstOf (·.leading ty requestId) frames) := by
  induction frames generalizing waiting with
  | nil => rfl
  | cons frame frames ih =>
    obtain ⟨next, ran⟩ := awaitReply_frame ty requestId node (fit frame List.mem_cons_self) waiting
      (frames.map fun frame => .frame frame.bytes)
    rw [List.map_cons, ran]
    cases lead : frame.leading ty requestId with
    | some result => rw [Scan.firstOf_some lead]; rfl
    | none =>
      rw [Scan.firstOf_none lead]
      exact ih (fun other member => fit other (List.mem_cons_of_mem _ member)) next

/-- A call is decided by the first message of the stream with its request id,
just when in every frame up to that one the first message answers as the first
message with the request id does. -/
theorem awaitReply_first_iff (node : Node) (ty : Ty) (requestId : UInt32) (frames : List ServiceFrame)
    (fit : ∀ frame ∈ frames, frame.bytes.length ≤ rxBufSize) :
    (awaitReply ty requestId node .start (frames.map fun frame => .frame frame.bytes) =
        Scan.seen (fun frame => .frame frame.bytes) (Scan.firstOf (·.awaited ty requestId) frames) ↔
      Scan.AgreeUpTo (·.leading ty requestId) (·.awaited ty requestId) frames) ∧
    (Scan.firstOf (·.awaited ty requestId) frames).map (·.1) =
      (frames.flatMap ServiceFrame.messages).findSome? (NetworkMessage.answer ty (· == requestId.toUInt64)) := by
  rw [awaitReply_frames fit]
  exact ⟨Scan.firstOf_eq_iff _, Scan.firstOf_flatMap frames⟩

end Turns

instance : DecidableEq (Ty.Val (.prim .u8)) := inferInstanceAs (DecidableEq UInt8)

def octetReply (requestId : UInt64) (octet : UInt8) : NetworkMessage :=
  .reply ⟨requestId, 0, false, some "add", [], none, [], none, none, [], cdrLeHeader ++ [octet]⟩

/-- The reply comes behind another one, which stands alone in its frame. -/
theorem awaitReply_first_iff_octet :
    let node := Node.built "client" "" 0 (ZenohId.fromBytes [7]) 10000 10000
    let frames : List ServiceFrame := [⟨⟨3, true, []⟩, [octetReply 2 9]⟩, ⟨⟨4, true, []⟩, [octetReply 1 5]⟩]
    letI := target64
    awaitReply (.prim .u8) 1 node .start (frames.map fun frame => .frame frame.bytes) =
      Scan.seen (fun frame => .frame frame.bytes) (Scan.firstOf (·.awaited (.prim .u8) 1) frames) := by
  intro node frames
  let := target64
  refine (awaitReply_first_iff node (.prim .u8) 1 frames (by decide +kernel)).1.mpr ⟨?_, fun _ => ⟨?_, nofun⟩⟩
  · rfl
  · rfl

/-- Behind a ResponseFinal of another call, the reply is not seen. And a reply
whose request id agrees in the low 32 bits is taken for the one of this call. -/
theorem awaitReply_not_first :
    let node := Node.built "client" "" 0 (ZenohId.fromBytes [7]) 10000 10000
    let hidden : List ServiceFrame := [⟨⟨3, true, []⟩, [.final ⟨9, []⟩, octetReply 1 5]⟩]
    let foreign : List ServiceFrame := [⟨⟨3, true, []⟩, [octetReply 0x100000001 5]⟩]
    let five : Ty.Val (.prim .u8) := (5 : UInt8)
    letI := target64
    (Scan.firstOf (·.awaited (.prim .u8) 1) hidden = some (.ok five, []) ∧
      awaitReply (.prim .u8) 1 node .start (hidden.map fun frame => .frame frame.bytes) = none) ∧
    Scan.firstOf (·.awaited (.prim .u8) 1) foreign = none ∧
      awaitReply (.prim .u8) 1 node .start (foreign.map fun frame => .frame frame.bytes) = some (.ok five, []) := by
  intro node hidden foreign five
  exact ⟨⟨by decide +kernel, by decide +kernel⟩, by decide +kernel, by decide +kernel⟩

end ZenohRos2
