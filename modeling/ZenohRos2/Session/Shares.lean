import ZenohRos2.Lib.Attribution
import ZenohRos2.Ros2.Publication
import ZenohRos2.Session.Opening

/-! The frames that a task puts on the link of a session, whatever the other tasks do. -/

set_option autoImplicit false

namespace ZenohRos2.Zenoh
open Rust Tasks

/-- A write that returns `Ok` has put its frame on the link. One that fails may have. -/
def WritesFrames : (request : Request) → request.Reply → List Bytes → Prop
  | .write frame, reply, frames => frames = [frame] ∨ frames = [] ∧ reply ≠ .ok ()
  | _, _, frames => frames = []

theorem grows_written : Grows perform WritesFrames fun session => session.link.written := by
  intro request session reply next answered
  cases request with
  | write frame =>
    cases answered
    by_cases takes : session.link.Takes frame
    · exact ⟨[frame], .inl rfl, by simp only [Link.write, if_pos takes]⟩
    · refine ⟨[], .inr ⟨rfl, fun ok => takes ?_⟩, by simp only [Link.write, if_neg takes, List.append_nil]⟩
      by_contra
      have written := Link.write_eq_ok ok
      simp only [Link.write, if_neg takes, List.self_eq_append_right] at written
      cases written
  | lockLink =>
    simp only [perform] at answered
    split at answered
    · cases answered
    · cases answered
      exact ⟨[], rfl, (List.append_nil _).symm⟩
  | _ =>
    cases answered
    exact ⟨[], rfl, (List.append_nil _).symm⟩

/-- What a task has put on the link, and what it has left to do. -/
abbrev Leads {α : Type} (first : Program Request.Reply α) (frames : List Bytes) (left : Program Request.Reply α) : Prop :=
  first.Leads WritesFrames frames left

section Sending
variable [Target] {frames : List Bytes}

/-- The frame is on the link, or not: it is there if the write returned `Ok`. -/
structure Sent (frame : Bytes) (frames : List Bytes) (left : Call Unit) : Prop where
  once : frames = [] ∨ frames = [frame]
  ok : left = .done (.ok ()) → frames = [frame]

omit [Target] in
theorem leads_withLink {frame : Bytes} {left : Call Unit} (leads : Leads (withLink (writeFrame frame)) frames left) :
    Sent frame frames left := by
  rcases leads.of_call with ⟨rfl, rfl⟩ | ⟨_, _, later, rfl, leads, rfl⟩
  · exact ⟨.inl rfl, nofun⟩
  rcases leads.of_call with ⟨rfl, rfl⟩ | ⟨result, more, later, added, leads, rfl⟩
  · exact ⟨.inl rfl, nofun⟩
  -- Behind the write there is only the guard to drop.
  obtain ⟨rfl, left_⟩ : later = [] ∧ (left = .done (.ok ()) → result = .ok ()) := by
    cases result with
    | ok value =>
      rcases leads.of_call with ⟨rfl, rfl⟩ | ⟨_, _, later, rfl, leads, rfl⟩
      · exact ⟨rfl, fun _ => rfl⟩
      · exact ⟨leads.of_done.1, fun _ => rfl⟩
    | err error =>
      rcases leads.of_call with ⟨rfl, rfl⟩ | ⟨_, _, later, rfl, leads, rfl⟩
      · exact ⟨rfl, nofun⟩
      · refine ⟨leads.of_done.1, fun same => ?_⟩
        cases leads.of_done.2.symm.trans same
    | panic fault =>
      rcases leads.of_call with ⟨rfl, rfl⟩ | ⟨_, _, later, rfl, leads, rfl⟩
      · exact ⟨rfl, nofun⟩
      · refine ⟨leads.of_done.1, fun same => ?_⟩
        cases leads.of_done.2.symm.trans same
  rcases added with rfl | ⟨rfl, failed⟩
  · exact ⟨.inr rfl, fun _ => rfl⟩
  · exact ⟨.inl rfl, fun same => absurd (left_ same) failed⟩

theorem encodeMessage_large {size : Nat} (sn : UInt64) {message : WireEncoder} {bytes : Bytes}
    (encodes : Encodes TransportError.frameTooLarge message bytes) (array : size ≤ isizeMax)
    (large : size < (frameHeaderBytes sn true ++ bytes).length) :
    ∃ error, encodeMessage size sn message = .err error := by
  unfold encodeMessage
  by_cases room : (frameHeaderBytes sn true).length ≤ size
  · obtain ⟨cursor, begun, called, -⟩ := exists_cursor_behind_header sn encodes array room
    rw [if_neg (Nat.not_le_of_lt large)] at called
    refine ⟨.transport .frameTooLarge, ?_⟩
    rw [begun]
    change ((Put.call message cursor).mapErr Error.transport >>= fun called =>
      sliceRange called.2.buf 0 called.2.pos) = _
    rw [called]
    rfl
  · have addressable : Addressable (List.replicate size (0 : UInt8)) := by
      unfold Addressable
      rwa [List.length_replicate]
    have header := encodes_encodeFrameHeader sn true (List.replicate size 0) addressable
    rw [List.length_replicate, if_neg room] at header
    rw [header]
    exact ⟨_, rfl⟩

theorem leads_sendMessage {buffers : Buffers} {message : WireEncoder} {bytes : Bytes} {left : Call Unit}
    (encodes : Encodes TransportError.frameTooLarge message bytes)
    (leads : Leads (sendMessage buffers message) frames left) :
    (frames = [] ∧ left ≠ .done (.ok ())) ∨
      ∃ sn, (frameHeaderBytes sn true ++ bytes).length ≤ buffers.txBuf ∧ Sent (frameHeaderBytes sn true ++ bytes) frames left := by
  rcases leads.of_call with ⟨rfl, rfl⟩ | ⟨sn, _, later, rfl, leads, rfl⟩
  · exact .inl ⟨rfl, nofun⟩
  change Leads (Async.lift (encodeMessage buffers.txBuf sn message) >>= fun frame => withLink (writeFrame frame) : Call Unit)
    _ _ at leads
  by_cases fits : (frameHeaderBytes sn true ++ bytes).length ≤ buffers.txBuf
  · rw [encodeMessage_eq encodes buffers.arrays.1 fits] at leads
    exact .inr ⟨sn, fits, leads_withLink leads⟩
  · obtain ⟨error, failed⟩ := encodeMessage_large sn encodes buffers.arrays.1 (Nat.lt_of_not_le fits)
    rw [failed] at leads
    obtain ⟨rfl, rfl⟩ := leads.of_done
    exact .inl ⟨rfl, nofun⟩

end Sending

section Others
variable {α β : Type} {holds : Bytes → Prop}

abbrev Writes (holds : Bytes → Prop) (ends : α → Prop) (program : Program Request.Reply α) : Prop :=
  program.Asks (fun request => ∀ frame, request = .write frame → holds frame) ends

theorem Writes.all {ends : α → Prop} {first left : Program Request.Reply α} {frames : List Bytes}
    (writes : Writes holds ends first) (leads : Leads first frames left) : ∀ frame ∈ frames, holds frame := by
  refine (leads.all (fun request reply more may added frame member => ?_) writes).2
  cases request with
  | write written =>
    rcases added with rfl | ⟨rfl, -⟩
    · rw [List.mem_singleton.mp member]
      exact may written rfl
    · cases member
  | _ =>
    cases added
    cases member

abbrev CallWrites (holds : Bytes → Prop) (call : Call α) : Prop := Writes holds (fun _ => True) call

theorem CallWrites.bind {first : Call α} {next : α → Call β} (one : CallWrites holds first)
    (two : ∀ value, CallWrites holds (next value)) : CallWrites holds (first >>= next) := by
  refine Program.Asks.bind one fun result _ => ?_
  cases result with
  | ok value => exact two value
  | err error => trivial
  | panic fault => trivial

theorem callWrites_lift (result : Outcome Error α) : CallWrites holds (Async.lift result) := trivial

theorem callWrites_ask {request : Request} (other : ∀ frame, request ≠ .write frame) :
    CallWrites holds (ask request) :=
  ⟨fun frame same => absurd same (other frame), fun _ => trivial⟩

theorem callWrites_writeFrame {frame : Bytes} (good : holds frame) : CallWrites holds (writeFrame frame) := by
  refine CallWrites.bind ⟨fun other same => ?_, fun _ => trivial⟩ fun result => callWrites_lift _
  cases same
  exact good

theorem CallWrites.withLink {body : Call α} (writes : CallWrites holds body) : CallWrites holds (withLink body) := by
  refine ⟨nofun, fun _ => Program.Asks.bind writes fun result _ => ?_⟩
  exact ⟨nofun, fun _ => trivial⟩

variable [Target]

theorem callWrites_sendMessage {buffers : Buffers} {message : WireEncoder} {bytes : Bytes}
    (encodes : Encodes TransportError.frameTooLarge message bytes)
    (good : ∀ sn, (frameHeaderBytes sn true ++ bytes).length ≤ buffers.txBuf → holds (frameHeaderBytes sn true ++ bytes)) :
    CallWrites holds (sendMessage buffers message) := by
  refine CallWrites.bind (callWrites_ask nofun) fun (sn : UInt64) => ?_
  by_cases fits : (frameHeaderBytes sn true ++ bytes).length ≤ buffers.txBuf
  · rw [encodeMessage_eq encodes buffers.arrays.1 fits]
    exact (callWrites_writeFrame (good sn fits)).withLink
  · obtain ⟨error, failed⟩ := encodeMessage_large sn encodes buffers.arrays.1 (Nat.lt_of_not_le fits)
    rw [failed]
    trivial

end Others

section Keys
variable [Target] {key : String}

theorem receivedOn_other {sn : UInt64} {first : UInt8} {rest : Bytes} (other : messageId first ≠ networkId.push)
    (addressable : Addressable (frameHeaderBytes sn true ++ (first :: rest))) :
    receivedOn key (frameHeaderBytes sn true ++ (first :: rest)) = [] := by
  rw [← FrameHead.bytes_plain] at addressable ⊢
  have header := decodeFrameHeader_of_part addressable ⟨_, rfl⟩
  have none : decodePushPut (first :: rest) = .ok none := by
    have begun : (index (first :: rest) 0 : Decode UInt8) = .ok first := rfl
    unfold decodePushPut decodePushPutHead
    rw [if_neg (by simp), begun, Outcome.ok_bind, if_pos other]
    rfl
  unfold receivedOn received
  rw [header]
  simp only [List.drop_left]
  rw [List.length_append, List.length_cons, ← Nat.add_assoc, decodeMessages, none]
  rfl

theorem receivedOn_alone {first : UInt8} {rest : Bytes} (other : messageId first ≠ transportId.frame) :
    receivedOn key (first :: rest) = [] := by
  have header : (index (first :: rest) 0 : Decode UInt8) = .ok first := rfl
  unfold receivedOn received decodeFrameHeader
  rw [if_neg (by simp), header, Outcome.ok_bind, if_pos other]
  rfl

theorem receivedOn_elsewhere {sn : UInt64} {message : PushPut} (other : message.suffix.getD "" ≠ key)
    (addressable : Addressable (frameHeaderBytes sn true ++ message.bytes)) :
    receivedOn key (frameHeaderBytes sn true ++ message.bytes) = [] := by
  have whole : frameHeaderBytes sn true ++ message.bytes = frameOf ⟨sn, true, []⟩ [message] := by
    rw [frameOf, FrameHead.bytes_plain, List.flatMap_singleton]
  rw [whole] at addressable ⊢
  rw [receivedOn, received_frameOf addressable, List.map_singleton, List.filter_singleton]
  simp only [PushPut.received, other, decide_false, cond_false]

end Keys
end ZenohRos2.Zenoh
