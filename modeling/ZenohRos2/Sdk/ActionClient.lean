import ZenohRos2.Ros2.Messages
import ZenohRos2.Sdk.RemoteCalls

/-! Services as functions, and the client of an action, which is three services.

A server keeps to its offer if it replies to what it can read with the value of
its handler. Then a call is a call of the handler.
-/

set_option autoImplicit false

namespace ZenohRos2
open Rust Cdr

/-- What a server offers under a key expression. -/
structure Offer where
  keyExpr : String
  request : Ty
  response : Ty
  handler : request.Val → response.Val

section Offers
variable [Target]

/-- The replies hold what the handler gives for the requests. -/
def Offer.Kept (offer : Offer) (answered : List (Request × NetworkMessage)) : Prop :=
  ∀ request response, (request, .reply response) ∈ answered → request.keyExpr = offer.keyExpr →
    ∀ value n, deserializeWithHeader offer.request request.payload = .ok (value, n) →
      offer.response.Within (offer.handler value) ∧
        response.payload = cdrLeHeader ++ offer.response.body (offer.handler value)

theorem ServiceCall.read_asked {call : ServiceCall} {requestId : UInt32} {request : Request}
    (asked : call.asked requestId = some request) (within : call.ty.Within call.request) :
    ∃ n, deserializeWithHeader call.ty request.payload = .ok (call.request, n) := by
  unfold ServiceCall.asked at asked
  split at asked
  · rename_i ke n raw named serialized
    cases asked
    obtain ⟨count, front, length, fits⟩ := serializeWithHeader_written within serialized
    have addressable : Addressable (cdrLeHeader ++ call.ty.body call.request ++ []) := by
      have bound := call.array
      rw [List.append_nil, Addressable, ← count]
      rw [List.length_replicate] at fits
      omega
    have read := deserializeWithHeader_append within addressable
    rw [List.append_nil, ← front] at read
    exact ⟨_, read⟩
  · cases asked

theorem ServiceCall.keyExpr_asked {call : ServiceCall} {requestId : UInt32} {request : Request}
    (asked : call.asked requestId = some request) {ke : HeaplessString maxKeyExprLen}
    (named : call.serviceKe.toKeyExpr = some ke) : request.keyExpr = ke.text := by
  unfold ServiceCall.asked at asked
  rw [named] at asked
  cases serialized : call.cdr with
  | ok result =>
    rw [serialized] at asked
    cases asked
    rfl
  | err error =>
    rw [serialized] at asked
    cases asked
  | panic fault =>
    rw [serialized] at asked
    cases asked

omit [Target] in
theorem Reply.length_payload_le (reply : Reply) : reply.payload.length ≤ reply.bytes.length := by
  simp only [Reply.bytes, lengthPrefixed, List.length_append]
  omega

theorem readReply_written {ty : Ty} {value : ty.Val} (within : ty.Within value)
    (addressable : Addressable (cdrLeHeader ++ ty.body value)) :
    readReply ty (cdrLeHeader ++ ty.body value) = .ok value := by
  have read := @deserializeWithHeader_append _ _ _ within [] (by rwa [List.append_nil])
  rw [List.append_nil] at read
  rw [readReply, read]
  rfl

end Offers

namespace RemoteCalls

section Handled
variable [Target] {start : UInt32} {calls : RemoteCalls}

/-- A call of the offered service that has returned a value has that of the handler. -/
def Handles (offer : Offer) (done : FinishedCall) : Prop :=
  ∀ cdrReq array (request : offer.request.Val) serviceKe requestId (resp : offer.response.Val),
    done = ⟨⟨cdrReq, array, offer.request, request, serviceKe⟩, offer.response, requestId, .ok resp⟩ →
    offer.request.Within request → (serviceKe.toKeyExpr.map HeaplessString.text) = some offer.keyExpr →
    resp = offer.handler request

theorem Sound.handles (sound : Sound start calls) {offer : Offer} (kept : offer.Kept calls.answered)
    {done : FinishedCall} (finished : done ∈ calls.finished) : Handles offer done := by
  intro cdrReq array request serviceKe requestId resp returned within offered
  subst returned
  obtain ⟨ke, named, text⟩ := Option.map_eq_some_iff.mp offered
  obtain ⟨sent, response, asked, pair, read⟩ := (sound.finished _ finished).ok resp rfl
  have key : sent.keyExpr = offer.keyExpr := (ServiceCall.keyExpr_asked asked named).trans text
  obtain ⟨n, decoded⟩ := ServiceCall.read_asked asked within
  obtain ⟨valid, payload⟩ := kept sent response pair key request n decoded
  have short : response.payload.length ≤ rxBufSize := Nat.le_trans response.length_payload_le (sound.short _ pair)
  have addressable : Addressable (cdrLeHeader ++ offer.response.body (offer.handler request)) := by
    rw [← payload]
    exact le_isizeMax (Nat.lt_of_le_of_lt short (by decide))
  rw [payload, readReply_written valid addressable] at read
  cases read
  rfl

section Actions
open ActionMsgs
variable {GoalReq : Type} [Serde GoalReq]

/-- `send_goal`, which returns a `SendGoalResponse`. -/
def sendGoal {cdrReq : Nat} (array : cdrReq ≤ isizeMax) (sendGoalKe : TopicKeyExpr) (request : GoalReq) : ServiceCall :=
  ⟨cdrReq, array, Serde.ty GoalReq, Serde.val request, sendGoalKe⟩

def getResult (getResultKe : TopicKeyExpr) (goalId : GoalId) : ServiceCall :=
  ⟨getResultReqCdrCap, le_isizeMax (by decide), Serde.ty GetResultRequest, Serde.val (⟨goalId⟩ : GetResultRequest),
    getResultKe⟩

def cancelGoal (cancelGoalKe : TopicKeyExpr) (goalId : GoalId) (stamp : Stamp) : ServiceCall :=
  ⟨cancelGoalReqCdrCap, le_isizeMax (by decide), Serde.ty CancelGoalRequest,
    Serde.val (⟨⟨goalId, stamp⟩⟩ : CancelGoalRequest), cancelGoalKe⟩

/-- The calls of an action client that are finished have returned what the three handlers
of the action give, each for its own goal. -/
def ActionsHandled (GoalReq : Type) [Serde GoalReq] (ke : TopicKeyExpr) (key : String) (calls : RemoteCalls) : Prop :=
  (∀ accept : (Serde.ty GoalReq).Val → (Serde.ty SendGoalResponse).Val, Offer.Kept ⟨key, _, _, accept⟩ calls.answered →
    ∀ (cdrReq : Nat) (array : cdrReq ≤ isizeMax) (request : GoalReq), (Serde.ty GoalReq).Within (Serde.val request) →
    ∀ requestId resp, ⟨sendGoal array ke request, _, requestId, .ok resp⟩ ∈ calls.finished →
      resp = accept (Serde.val request)) ∧
  (∀ (ty : Ty) (result : (Serde.ty GetResultRequest).Val → ty.Val), Offer.Kept ⟨key, _, _, result⟩ calls.answered →
    ∀ goalId requestId resp, ⟨getResult ke goalId, _, requestId, .ok resp⟩ ∈ calls.finished →
      resp = result (Serde.val (⟨goalId⟩ : GetResultRequest))) ∧
  ∀ (ty : Ty) (cancel : (Serde.ty CancelGoalRequest).Val → ty.Val), Offer.Kept ⟨key, _, _, cancel⟩ calls.answered →
    ∀ goalId stamp requestId resp, ⟨cancelGoal ke goalId stamp, _, requestId, .ok resp⟩ ∈ calls.finished →
      resp = cancel (Serde.val (⟨⟨goalId, stamp⟩⟩ : CancelGoalRequest))

theorem Sound.actions_handled (sound : Sound start calls) {ke : TopicKeyExpr} {key : HeaplessString maxKeyExprLen}
    (named : ke.toKeyExpr = some key) : ActionsHandled GoalReq ke key.text calls := by
  have text : ke.toKeyExpr.map HeaplessString.text = some key.text := by rw [named]; rfl
  refine ⟨?_, ?_, ?_⟩
  · intro accept kept cdrReq array request within requestId resp finished
    exact sound.handles kept finished _ _ _ _ _ _ rfl within text
  · intro ty result kept goalId requestId resp finished
    have within := ((Serde.ty GetResultRequest).valid_of_fixed rfl (Serde.val (⟨goalId⟩ : GetResultRequest))).1
    exact sound.handles kept finished _ _ _ _ _ _ rfl within text
  · intro ty cancel kept goalId stamp requestId resp finished
    have within := ((Serde.ty CancelGoalRequest).valid_of_fixed rfl
      (Serde.val (⟨⟨goalId, stamp⟩⟩ : CancelGoalRequest))).1
    exact sound.handles kept finished _ _ _ _ _ _ rfl within text

end Actions

/-- A remote call is a call of the handler: whatever the order of requests, replies
and failures, the value that a call returns is that of the handler for its own
request. The calls of an action client are such calls. -/
theorem calls_handled (client : Client) (fresh : client.session.requests = [])
    (run : Machine.Run RemoteCalls.step allowed (.initial client) calls) :
    (∀ offer : Offer, offer.Kept calls.answered → ∀ done ∈ calls.finished, Handles offer done) ∧
      ∀ (GoalReq : Type) [Serde GoalReq] (ke : TopicKeyExpr) (key : HeaplessString maxKeyExprLen),
        ke.toKeyExpr = some key → ActionsHandled GoalReq ke key.text calls := by
  have sound := Run.sound fresh run
  exact ⟨fun offer kept done finished => sound.handles kept finished,
    fun GoalReq _ ke key named => sound.actions_handled named⟩

end Handled

/-- The server adds two, and the second call returns before the first one is answered. -/
theorem calls_handled_adder :
    letI := target64
    let client : Client :=
      ⟨⟨Node.built "client" "" 0 (ZenohId.fromBytes [7]) 10000 10000, fun _ => true, 0, []⟩, 1⟩
    let adder : Offer := ⟨"0/add/Add/hash", .prim .u8, .prim .u8, fun octet => (show UInt8 from octet) + 2⟩
    ∃ calls : RemoteCalls, Machine.Run RemoteCalls.step allowed (.initial client) calls ∧
      calls.finished.length = 2 ∧ ∀ done ∈ calls.finished, Handles adder done := by
  let := target64
  intro client adder
  let call (octet : UInt8) : ServiceCall := ⟨8, le_isizeMax (by decide), .prim .u8, octet, ⟨0, "add", "Add", "hash"⟩⟩
  let request (id : UInt64) (octet : UInt8) : Request := ⟨id, "0/add/Add/hash", cdrLeHeader ++ [octet]⟩
  let own : ServiceFrame := ⟨⟨0, true, []⟩, [octetReply 2 6]⟩
  let late : ServiceFrame := ⟨⟨1, true, []⟩, [octetReply 1 5]⟩
  let whole (frame : ServiceFrame) : List RemoteAct := List.replicate (framed frame.bytes).length .take
  obtain ⟨calls, run, ended, answered⟩ :
      ∃ calls : RemoteCalls, Machine.Run RemoteCalls.step allowed (.initial client) calls ∧
        calls.finished.length = 2 ∧
          calls.answered = [(request 2 4, octetReply 2 6), (request 1 3, octetReply 1 5)] :=
    Machine.exists_run ([.call (call 3) (.prim .u8), .timeout, .call (call 4) (.prim .u8), .respond own] ++ whole own ++
      [.respond late] ++ whole late) (by decide +kernel)
  refine ⟨calls, run, ended, (calls_handled client (by decide) run).1 adder ?_⟩
  have read (octet : UInt8) : deserializeWithHeader adder.request (cdrLeHeader ++ [octet]) = .ok (octet, 5) := rfl
  intro sent response pair _ value n decoded
  rw [answered] at pair
  refine ⟨trivial, ?_⟩
  rcases List.mem_pair.mp pair with same | same
  · cases same
    rw [read] at decoded
    cases decoded
    rfl
  · cases same
    rw [read] at decoded
    cases decoded
    rfl

end RemoteCalls
end ZenohRos2
