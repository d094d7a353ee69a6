import ZenohRos2.Sdk.Dispatch
import ZenohRos2.Transport.Body

/-! What a received frame delivers.

A frame is taken apart at the level of the grammar: its header, then its
messages. The first message is decoded and routed; the bytes behind it are not
looked at.
-/

set_option autoImplicit false

namespace ZenohRos2
open Rust

section Dispatch
variable [Target]

theorem dispatchWith_frame (handle : IncomingPut → Handled) (head : FrameHead) (body : Bytes)
    (fragAsm : FragmentAssembler) (addressable : Addressable (head.bytes ++ body)) :
    dispatchWith handle (head.bytes ++ body) fragAsm =
      (handleBody handle body >>= fun handled => .ok (handled, fragAsm)) := by
  have part : PartAt (head.bytes ++ body) 0 head.bytes := ⟨body, rfl⟩
  have kind := parseTransportMsgKind_frame head.messageId_headerByte
  unfold dispatchWith
  rw [if_neg (by simp [FrameHead.bytes])]
  have first : (index (head.bytes ++ body) 0 : Outcome Error UInt8) = .ok head.headerByte := rfl
  rw [first, Outcome.ok_bind, kind, decodeFrameHeader_of_part addressable part]
  simp only [ifOk]
  rw [sliceFrom_eq (by simp), Outcome.ok_bind, List.drop_left]

theorem handleBody_append (handle : IncomingPut → Handled) (message : PushPut) (rest : Bytes)
    (addressable : Addressable (message.bytes ++ rest)) :
    handleBody handle (message.bytes ++ rest) = .ok (handle message.incoming) := by
  unfold handleBody
  rw [decodePushPut_append message rest addressable]
  rfl

theorem handleBody_nil (handle : IncomingPut → Handled) : handleBody handle [] = .ok .nothing := rfl

end Dispatch

/-- The pushes hand out the messages in order, each to the network entry whose
key id is the message's scope. -/
def DeliversAll (subscribers : List SubscriberEntry) (messages : List PushPut) (pushes : List Delivery) : Prop :=
  pushes.map (fun push => (push.entry.keyId.toUInt64, push.payload)) =
    messages.map (fun message => (message.scope, message.payload)) ∧
  ∀ push ∈ pushes, push.entry ∈ subscribers ∧ push.entry.network

instance (subscribers : List SubscriberEntry) (messages : List PushPut) (pushes : List Delivery) :
    Decidable (DeliversAll subscribers messages pushes) :=
  inferInstanceAs (Decidable (_ ∧ _))

theorem routedEntry_of_scope {subscribers : List SubscriberEntry} {scope : UInt64}
    (registered : ∃ entry ∈ subscribers, entry.network ∧ scope = entry.keyId.toUInt64) :
    ∃ entry ∈ subscribers, routedEntry subscribers scope = some entry ∧ entry.network ∧
      entry.keyId.toUInt64 = scope := by
  obtain ⟨target, member, network, rfl⟩ := registered
  have cut : target.keyId.toUInt64.toUInt16 = target.keyId := UInt16.toUInt16_toUInt64 _
  cases found : routedEntry subscribers target.keyId.toUInt64 with
  | none =>
    have skipped := List.find?_eq_none.mp found target member
    simp [network, cut] at skipped
  | some entry =>
    have holds := List.find?_some found
    simp only [Bool.and_eq_true, beq_iff_eq, cut] at holds
    exact ⟨entry, List.mem_of_find?_eq_some found, rfl, holds.1, by rw [← holds.2]⟩

variable [Target]

/-- Every message of a frame is delivered if and only if the frame holds at
most one. -/
theorem dispatchFrame_delivers_all_iff (node : Node) (head : FrameHead) (messages : List PushPut)
    (fragAsm : FragmentAssembler) (addressable : Addressable (frameOf head messages))
    (known : ∀ message ∈ messages, ∃ entry ∈ node.subscribers, entry.network ∧
      message.scope = entry.keyId.toUInt64) :
    (∃ handled, dispatchFrame node (frameOf head messages) fragAsm = .ok (handled, fragAsm) ∧
      DeliversAll node.subscribers messages handled.pushes) ↔ messages.length ≤ 1 := by
  unfold dispatchFrame
  rw [frameOf] at addressable ⊢
  rw [dispatchWith_frame _ head _ fragAsm addressable]
  cases messages with
  | nil => simp [handleBody_nil, DeliversAll, Handled.nothing]
  | cons message rest =>
    have room : Addressable (message.bytes ++ rest.flatMap PushPut.bytes) :=
      addressable.of_length_le (by simp)
    rw [List.flatMap_cons, handleBody_append _ message _ room, Outcome.ok_bind]
    obtain ⟨entry, member, found, network, scope⟩ := routedEntry_of_scope (known message (List.mem_cons_self ..))
    have pushed : routeToSubscribers node.subscribers message.incoming = [⟨entry, message.payload⟩] := by
      rw [routeToSubscribers, PushPut.incoming, found]
      rfl
    rw [pushed]
    constructor
    -- One message is pushed, so delivering all of them means that there is only one.
    · rintro ⟨handled, same, delivered, -⟩
      cases same
      have lengths := congrArg List.length delivered
      simp only [List.length_map, List.length_cons, List.length_nil] at lengths ⊢
      omega
    · intro single
      have last : rest = [] := by
        rw [← List.length_eq_zero_iff]
        simp only [List.length_cons] at single
        omega
      subst last
      exact ⟨_, rfl, by simp [scope], by simp [member, network]⟩

omit [Target] in
theorem dispatchFrame_delivers_all_iff_one :
    let entry : SubscriberEntry := ⟨1, .any, ⟨0, "chatter", "String", "hash"⟩, 0⟩
    let node := { Node.built "listener" "" 0 (ZenohId.fromBytes [7]) 10000 10000 with subscribers := [entry] }
    let message : PushPut := ⟨1, false, none, [], none, none, [], [5, 6]⟩
    letI := target64
    ∃ handled, dispatchFrame node (frameOf ⟨3, true, []⟩ [message]) .new = .ok (handled, .new) ∧
      DeliversAll node.subscribers [message] handled.pushes := by
  intro entry node message
  let := target64
  exact (dispatchFrame_delivers_all_iff node ⟨3, true, []⟩ [message] .new (le_isizeMax (by decide +kernel))
    (by decide)).mpr (by decide)

omit [Target] in
/-- Of two messages in one frame the second is not delivered. -/
theorem dispatchFrame_drops_second :
    let entry : SubscriberEntry := ⟨1, .any, ⟨0, "chatter", "String", "hash"⟩, 0⟩
    let node := { Node.built "listener" "" 0 (ZenohId.fromBytes [7]) 10000 10000 with subscribers := [entry] }
    let first : PushPut := ⟨1, false, none, [], none, none, [], [5]⟩
    let second : PushPut := ⟨1, false, none, [], none, none, [], [6]⟩
    letI := target64
    dispatchFrame node (frameOf ⟨3, true, []⟩ [first, second]) .new = .ok (⟨[⟨entry, [5]⟩], []⟩, .new) ∧
      ¬∃ handled, dispatchFrame node (frameOf ⟨3, true, []⟩ [first, second]) .new = .ok (handled, .new) ∧
        DeliversAll node.subscribers [first, second] handled.pushes := by
  intro entry node first second
  let := target64
  have only : dispatchFrame node (frameOf ⟨3, true, []⟩ [first, second]) .new =
      .ok (⟨[⟨entry, [5]⟩], []⟩, .new) := by decide +kernel
  refine ⟨only, ?_⟩
  rintro ⟨handled, same, delivered⟩
  rw [only] at same
  cases same
  revert delivered
  decide

end ZenohRos2
