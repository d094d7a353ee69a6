import ZenohRos2.Cdr.RoundTrip
import ZenohRos2.Sdk.LocalPath
import ZenohRos2.Sdk.Service

/-! The sequence numbers of the frames that a node writes.

An operation takes a number before it encodes its message, and writes the frame
after that. Every message fits the buffer of its operation, except for the
request of a service call, whose payload may have any length.
-/

set_option autoImplicit false

namespace ZenohRos2
open Rust Cdr

section Counting
variable [Target] {sent : List Bytes} {sn : UInt64} {frame : Bytes}

/-- The frames carry the numbers from 0 on, and the counter stands at the next
number, or behind the number of a frame that is begun. -/
def Counted (sent : List Bytes) (sn : UInt64) (begun : Nat) : Prop :=
  sent.map frameSn = (List.range sent.length).map (fun i => some (UInt64.ofNat i)) ∧
    sn = UInt64.ofNat (sent.length + begun)

instance (sent : List Bytes) (sn : UInt64) (begun : Nat) : Decidable (Counted sent sn begun) :=
  inferInstanceAs (Decidable (_ ∧ _))

theorem Counted.begin (counted : Counted sent sn 0) : Counted sent (sn + 1) 1 :=
  ⟨counted.1, by rw [counted.2]; exact (UInt64.ofNat_add _ 1).symm⟩

theorem Counted.write (counted : Counted sent sn 1) (number : frameSn frame = some (sn - 1)) :
    Counted (sent ++ [frame]) sn 0 := by
  obtain ⟨numbers, count⟩ := counted
  constructor
  · have last : sn - 1 = UInt64.ofNat sent.length := by rw [count, UInt64.ofNat_add]; exact UInt64.add_sub_cancel _ _
    simp only [List.map_append, List.length_append, List.length_singleton, List.range_succ, numbers, List.map_cons,
      List.map_nil, number, last]
  · rw [count, List.length_append, List.length_singleton, Nat.add_zero]

theorem Counted.send (counted : Counted sent sn 0) (number : frameSn frame = some sn) :
    Counted (sent ++ [frame]) (sn + 1) 0 :=
  counted.begin.write (number.trans (congrArg some (UInt64.add_sub_cancel sn 1).symm))

theorem Counted.not_skipped (counted : Counted sent sn 0) : ¬Counted sent (sn + 1) 0 := by
  rintro ⟨-, count⟩
  rw [counted.2] at count
  have same := congrArg UInt64.toNat count
  rw [UInt64.toNat_add] at same
  change (_ + 1) % 2 ^ 64 = _ at same
  omega

end Counting

def messageFrame (sn : UInt64) (bytes : Bytes) : Bytes := frameHeaderBytes sn true ++ bytes

namespace Session

def skipped (session : Session) : Session := { session with node := { session.node with sn := session.node.sn + 1 } }

def delivered (session : Session) (bytes : Bytes) : Session :=
  { session.skipped with
    tried := session.tried + 1
    sent := session.sent ++ [messageFrame session.node.sn bytes] }

def refused (session : Session) : Session := { session.skipped with tried := session.tried + 1 }

def attempt (session : Session) (bytes : Bytes) : Outcome Error Unit × Session :=
  if session.outcomes session.tried then (.ok (), session.delivered bytes)
  else (.err (.transport .io), session.refused)

def announced (session : Session) (token : HeaplessString maxLivelinessLen) : Session :=
  { session with node := { session.node with entityIdGen := UInt32.ofNat (session.node.entityIdGen.toNat + 1) } }.delivered
    (declareTokenBytes session.node.entityIdGen token.text)

variable [Target]

/-- Between two operations, on a transport whose writes succeed. -/
structure Steady (session : Session) : Prop where
  counted : Counted session.sent session.node.sn 0
  outcomes : ∀ i, session.outcomes i = true

end Session

section Messages
variable [Target] {session : Session} {bytes : Bytes}

theorem frameSn_messageFrame {sn : UInt64} (addressable : Addressable (messageFrame sn bytes)) :
    frameSn (messageFrame sn bytes) = some sn := by
  unfold messageFrame at addressable ⊢
  rw [← FrameHead.bytes_plain] at addressable ⊢
  exact frameSn_append addressable

theorem Session.Steady.delivered (steady : session.Steady)
    (short : (messageFrame session.node.sn bytes).length ≤ txFrameBuf) : (session.delivered bytes).Steady :=
  ⟨steady.counted.send (frameSn_messageFrame (le_isizeMax (Nat.lt_of_le_of_lt short (by decide)))), steady.outcomes⟩

theorem sendMessage_attempts {size : Nat} {message : WireEncoder}
    (encodes : Encodes TransportError.frameTooLarge message bytes) (room : 11 ≤ size) (small : size ≤ txFrameBuf) :
    sendMessage size message session =
      if (messageFrame session.node.sn bytes).length ≤ size then session.attempt bytes
      else (.err (.transport .frameTooLarge), session.skipped) := by
  have buffer : txFrameBuf = 1024 := rfl
  have header := frameHeaderBytes_length_le session.node.sn true
  obtain ⟨cursor, begun, called, slice⟩ := exists_cursor_behind_header session.node.sn encodes
    (le_isizeMax (show size < 2 ^ 31 by omega)) (Nat.le_trans header room)
  unfold sendMessage
  rw [Action.bind_of_ok (Method.getNode_run _), begun]
  change (Action.lift ((Put.call message cursor).mapErr .transport) >>= fun called =>
    Action.lift (sliceRange called.2.buf 0 called.2.pos) >>= fun payload =>
      Method.write payload) session.skipped = _
  rw [called]
  by_cases fits : (messageFrame session.node.sn bytes).length ≤ size
  · rw [if_pos (show (frameHeaderBytes session.node.sn true ++ bytes).length ≤ size from fits), if_pos fits]
    change (Action.lift (sliceRange (cursor.written bytes).buf 0 (cursor.written bytes).pos) >>= fun payload =>
      Method.write payload) session.skipped = _
    rw [slice fits, Action.bind_of_ok (Action.lift_run _ _), ← messageFrame, Method.write, writeFrame_eq (by omega),
      Session.attempt]
    by_cases writes : session.outcomes session.tried
    · simp only [Session.skipped, Session.delivered, writes, if_true]
    · simp only [Session.skipped, Session.refused, writes, Bool.false_eq_true, if_false]
  · rw [if_neg (show ¬(frameHeaderBytes session.node.sn true ++ bytes).length ≤ size from fits), if_neg fits]
    rfl

theorem sendMessage_run {size : Nat} {message : WireEncoder}
    (encodes : Encodes TransportError.frameTooLarge message bytes) (room : 11 ≤ size) (small : size ≤ txFrameBuf)
    (writes : session.outcomes session.tried = true) :
    sendMessage size message session =
      if (messageFrame session.node.sn bytes).length ≤ size then (.ok (), session.delivered bytes)
      else (.err (.transport .frameTooLarge), session.skipped) := by
  rw [sendMessage_attempts encodes room small, Session.attempt, if_pos writes]

open Session

theorem preserves_getNode : Method.getNode.Preserves Steady := fun _ => id

theorem preserves_modifyNode {change : Node → Node} (same : ∀ node, (change node).sn = node.sn) :
    (Method.modifyNode change).Preserves Steady :=
  fun session steady => ⟨(congrArg (Counted session.sent · 0) (same session.node)).mpr steady.counted, steady.outcomes⟩

theorem sendMessage_preserves {size : Nat} {message : WireEncoder}
    (encodes : Encodes TransportError.frameTooLarge message bytes) (room : 11 + bytes.length ≤ size)
    (small : size ≤ txFrameBuf) : (sendMessage size message).Preserves Steady := by
  intro session steady
  have header := frameHeaderBytes_length_le session.node.sn true
  have fits : (messageFrame session.node.sn bytes).length ≤ size := by
    rw [messageFrame, List.length_append]
    omega
  rw [sendMessage_run encodes (by omega) small (steady.outcomes _), if_pos fits]
  exact steady.delivered (Nat.le_trans fits small)

omit [Target] in
theorem inlineKeyBytes_length_le {keyExpr : String} (short : keyExpr.utf8ByteSize ≤ 512) :
    (inlineKeyBytes keyExpr).length ≤ keyExpr.utf8ByteSize + 3 := by
  have scope : (vbyte 0).length = 1 := by decide +kernel
  have key := lengthPrefixed_length_le (utf8 keyExpr) (by rw [utf8_length]; omega)
  rw [utf8_length] at key
  unfold inlineKeyBytes
  split <;> simp only [List.length_append, List.length_nil, scope] <;> omega

theorem declareKeyExpr_preserves (keyExpr : HeaplessString maxKeyExprLen) :
    (declareKeyExpr keyExpr.text).Preserves Steady := by
  have short : keyExpr.text.utf8ByteSize ≤ 256 := keyExpr.fits
  unfold declareKeyExpr
  apply preserves_getNode.bind
  intro node
  refine Action.Preserves.bind (preserves_modifyNode fun _ => rfl) fun _ => ?_
  refine Action.Preserves.bind ?_ fun _ => Action.preserves_pure _
  have array : (utf8 keyExpr.text).length < 2 ^ 31 := by
    rw [utf8_length]
    omega
  have encodes := encodes_encodeDeclareKeyexpr node.keyIdGen (le_isizeMax array)
  refine sendMessage_preserves encodes ?_ (by decide)
  have id := vbyte_length_le (node.keyIdGen.toUInt64)
  have inline := inlineKeyBytes_length_le (show keyExpr.text.utf8ByteSize ≤ 512 by omega)
  simp only [declareKeyexprBytes, List.length_append, List.length_singleton]
  omega

theorem declareSubscriber_preserves (keyId : UInt16) : (declareSubscriber keyId).Preserves Steady := by
  unfold declareSubscriber
  refine sendMessage_preserves (encodes_encodeDeclareSubscriberMapped _ _) ?_ (by decide)
  have subId := vbyte_length_le keyId.toUInt32.toUInt64
  have mapped := vbyte_length_le keyId.toUInt64
  simp only [declareSubscriberMappedBytes, List.length_append, List.length_singleton]
  omega

/-- The liveliness token of the next entity, unless a counter or the text runs over. -/
def Node.token (node : Node) (entityType : EntityType) (topic : TopicKeyExpr) :
    Option (HeaplessString maxLivelinessLen) :=
  if node.entityIdGen.toNat + 1 < 2 ^ 32 then
    buildLivelinessToken node.domainId node.gid 0 node.entityIdGen entityType "" node.namespace node.nodeName
      topic.topicName topic.typeName topic.typeHash Qos.default
  else none

omit [Target] in
theorem tokenFrame_length_le (sn : UInt64) (tokenId : UInt32) (token : HeaplessString maxLivelinessLen) :
    (messageFrame sn (declareTokenBytes tokenId token.text)).length ≤ 768 := by
  have header := frameHeaderBytes_length_le sn true
  have short : token.text.utf8ByteSize ≤ 512 := token.fits
  have id := vbyte_length_le tokenId.toUInt64
  have inline := inlineKeyBytes_length_le short
  simp only [messageFrame, declareTokenBytes, List.length_append, List.length_singleton]
  omega

theorem declareLiveliness_announces {entityType : EntityType} {topic : TopicKeyExpr}
    {token : HeaplessString maxLivelinessLen} (found : session.node.token entityType topic = some token)
    (writes : session.outcomes session.tried = true) :
    declareLiveliness entityType topic session = (.ok (), session.announced token) := by
  have short : token.text.utf8ByteSize ≤ 512 := token.fits
  have fits := tokenFrame_length_le session.node.sn session.node.entityIdGen token
  unfold Node.token at found
  split at found
  · rename_i next
    unfold declareLiveliness
    rw [Action.bind_of_ok (Method.getNode_run _), u32Add, if_pos next,
      Action.bind_of_ok (Action.lift_run _ _), Action.bind_of_ok (Method.modifyNode_run _ _), found]
    simp only
    rw [sendMessage_run (encodes_encodeDeclareToken _ (le_isizeMax (by rw [utf8_length]; omega))) (by omega) (by decide)
      ?_, if_pos fits]
    · rfl
    · exact writes
  · cases found

theorem declareLiveliness_fails {entityType : EntityType} {topic : TopicKeyExpr}
    (none : session.node.token entityType topic = none) (steady : session.Steady) :
    ∃ result after, declareLiveliness entityType topic session = (result, after) ∧ (∀ value, result ≠ .ok value) ∧
      after.Steady := by
  unfold Node.token at none
  unfold declareLiveliness
  rw [Action.bind_of_ok (Method.getNode_run _), u32Add]
  split at none
  · rename_i next
    rw [if_pos next, Action.bind_of_ok (Action.lift_run _ _), Action.bind_of_ok (Method.modifyNode_run _ _), none]
    exact ⟨_, _, rfl, by simp, steady.counted, steady.outcomes⟩
  · rename_i full
    rw [if_neg full, Action.bind_of_panic (Action.lift_run _ _)]
    exact ⟨_, _, rfl, by simp, steady⟩

theorem declareLiveliness_preserves (entityType : EntityType) (topic : TopicKeyExpr) :
    (declareLiveliness entityType topic).Preserves Steady := by
  intro session steady
  cases found : session.node.token entityType topic with
  | none =>
    obtain ⟨result, after, ran, -, still⟩ := declareLiveliness_fails found steady
    rw [ran]
    exact still
  | some token =>
    rw [declareLiveliness_announces found (steady.outcomes _)]
    have fits := tokenFrame_length_le session.node.sn session.node.entityIdGen token
    have named : Steady { session with node :=
      { session.node with entityIdGen := UInt32.ofNat (session.node.entityIdGen.toNat + 1) } } :=
      ⟨steady.counted, steady.outcomes⟩
    exact named.delivered (Nat.le_trans fits (by decide))

theorem createPublisher_preserves (publisher : Publisher) (ref : PubRef) :
    (createPublisher publisher ref).Preserves Steady := by
  have registered : (Method.modifyNode fun node =>
      { node with publishers := pushWithin maxPubs node.publishers ref }).Preserves Steady :=
    preserves_modifyNode fun _ => rfl
  unfold createPublisher
  simp only
  split
  · exact (declareLiveliness_preserves _ _).bind fun _ => registered
  · exact registered

theorem createSubscription_preserves (topic : TopicKeyExpr) (locality : Locality) (dispatch : SubRef) :
    (createSubscription topic locality dispatch).Preserves Steady := by
  unfold createSubscription registerSubscription
  refine Action.Preserves.bind ?_ fun _ => preserves_modifyNode fun _ => rfl
  split
  · exact Action.preserves_pure _
  split
  · exact Action.preserves_lift _
  · apply (declareKeyExpr_preserves _).bind
    intro keyId
    apply (declareSubscriber_preserves keyId).bind
    intro _
    exact (declareLiveliness_preserves _ _).bind fun _ => Action.preserves_pure _

end Messages

section Requests
variable [Target] {client : Client}
open Session

/-- The frame with a request. The one before it has announced the client. -/
def requestFrame (node : Node) (requestId : UInt32) (ke : HeaplessString maxKeyExprLen) (payload : Bytes) : Bytes :=
  messageFrame (node.sn + 1) (requestQueryBytes requestId ke.text payload requestId.toUInt64.toInt64 0 node.gid)

theorem sendRequest_counted_iff {serviceKe : TopicKeyExpr} {ke : HeaplessString maxKeyExprLen} {payload : Bytes}
    (addressable : Addressable payload) (steady : client.session.Steady) :
    Counted (sendRequest serviceKe ke payload client).2.session.sent
        (sendRequest serviceKe ke payload client).2.session.node.sn 0 ↔
      ((client.session.node.token .serviceClient serviceKe).isSome →
        (requestFrame client.session.node client.requestIdGen ke payload).length ≤ txFrameBuf) := by
  let next := client.requestIdGen + 1
  unfold sendRequest
  rw [Action.bind_of_ok (show Client.nextRequestId client = (.ok client.requestIdGen, ⟨client.session, next⟩) from rfl)]
  cases found : client.session.node.token .serviceClient serviceKe with
  | none =>
    -- No token, no request: the call ends with the counter at its frames.
    obtain ⟨result, after, ran, failed, still⟩ := declareLiveliness_fails found steady
    have announced := Client.run_of next ran
    cases result with
    | ok value => exact absurd rfl (failed value)
    | err error =>
      rw [Action.bind_of_err announced]
      exact iff_of_true still.counted (by simp)
    | panic fault =>
      rw [Action.bind_of_panic announced]
      exact iff_of_true still.counted (by simp)
  | some token =>
    have ran := declareLiveliness_announces found (steady.outcomes _)
    let middle := client.session.announced token
    have still : middle.Steady := by
      have kept := declareLiveliness_preserves .serviceClient serviceKe _ steady
      rwa [ran] at kept
    rw [Action.bind_of_ok (Client.run_of next ran), Action.bind_of_ok (Action.get_run _)]
    have key : Addressable (utf8 ke.text) := by
      have short : ke.text.utf8ByteSize ≤ 256 := ke.fits
      exact le_isizeMax (by rw [utf8_length]; omega)
    have encodes := encodes_encodeRequestQuery client.requestIdGen client.requestIdGen.toUInt64.toInt64 0
      middle.node.gid
      key addressable
    have sent := @sendMessage_run _ middle _ txFrameBuf _ encodes (by decide) (Nat.le_refl _) (still.outcomes _)
    change sendMessage _ _ middle = if (requestFrame client.session.node client.requestIdGen ke payload).length ≤
      txFrameBuf then _ else _ at sent
    by_cases fits : (requestFrame client.session.node client.requestIdGen ke payload).length ≤ txFrameBuf
    · rw [if_pos fits] at sent
      rw [Action.bind_of_ok (Client.run_of next sent)]
      exact iff_of_true (still.delivered fits).counted fun _ => fits
    · rw [if_neg fits] at sent
      rw [Action.bind_of_err (Client.run_of next sent)]
      exact iff_of_false still.counted.not_skipped (by simp [fits])

def ServiceCall.frame (call : ServiceCall) (node : Node) (requestId : UInt32) : Option Bytes :=
  match call.serviceKe.toKeyExpr, call.cdr, node.token .serviceClient call.serviceKe with
  | some ke, .ok (n, raw), some _ => some (requestFrame node requestId ke (raw.take n))
  | _, _, _ => none

def ServiceCall.Fits (call : ServiceCall) (node : Node) (requestId : UInt32) : Prop :=
  ∀ frame ∈ call.frame node requestId, frame.length ≤ txFrameBuf

instance (call : ServiceCall) (node : Node) (requestId : UInt32) : Decidable (call.Fits node requestId) :=
  inferInstanceAs (Decidable (∀ frame ∈ _, _))

theorem requestService_counted_iff (call : ServiceCall) (steady : client.session.Steady) :
    Counted (requestService call client).2.session.sent (requestService call client).2.session.node.sn 0 ↔
      call.Fits client.session.node client.requestIdGen := by
  unfold requestService ServiceCall.Fits ServiceCall.frame
  cases key : call.serviceKe.toKeyExpr with
  | none => exact iff_of_true steady.counted (by simp)
  | some ke =>
    cases cdr : call.cdr with
    | err error => exact iff_of_true steady.counted (by simp)
    | panic fault => exact iff_of_true steady.counted (by simp)
    | ok written =>
      obtain ⟨n, raw⟩ := written
      have fits := serializeWithHeader_fits cdr
      rw [List.length_replicate] at fits
      have addressable : Addressable (raw.take n) := by
        have array := call.array
        change (raw.take n).length ≤ isizeMax
        omega
      apply Iff.trans (sendRequest_counted_iff addressable steady)
      cases client.session.node.token .serviceClient call.serviceKe <;> simp

end Requests
end ZenohRos2
