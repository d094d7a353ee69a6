import ZenohRos2.Sdk.Registration
import ZenohRos2.Transport.Control

/-! Requests as a server reads them off the wire.

A call writes the token of its client, and then a frame with its request. The
server finds in it the id that the answer has to carry, the key expression of
the service and the serialized request.
-/

set_option autoImplicit false

namespace ZenohRos2
open Rust Cdr

structure Request where
  requestId : UInt64
  keyExpr : String
  payload : Bytes
  deriving DecidableEq

section Reading
variable [Target]

/-- The payload stands in the first extension of the query, behind its encoding. -/
def readQuery (frame : Bytes) : Decode (Option Request) := do
  let (_, _, bodyPos) ← decodeFrameHeader frame
  let body := frame.drop bodyPos
  if body.head? = some requestHeader then
    let (requested, _) ← readRequest body
    let (data, _) ← readSlice body (requested.extensions + 1)
    .ok (some ⟨requested.requestId, requested.keyExpr, data.tail⟩)
  else .ok none

def Request.read (frame : Bytes) : Option Request :=
  match readQuery frame with
  | .ok request => request
  | _ => none

theorem readQuery_messageFrame {sn : UInt64} {bytes : Bytes} (addressable : Addressable (messageFrame sn bytes)) :
    readQuery (messageFrame sn bytes) =
      if bytes.head? = some requestHeader then do
        let (requested, _) ← readRequest bytes
        let (data, _) ← readSlice bytes (requested.extensions + 1)
        .ok (some ⟨requested.requestId, requested.keyExpr, data.tail⟩)
      else .ok none := by
  have head : decodeFrameHeader (messageFrame sn bytes) = .ok (sn, true, (frameHeaderBytes sn true).length) := by
    rw [← FrameHead.bytes_plain]
    exact decodeFrameHeader_of_part addressable ⟨bytes, by rw [messageFrame, FrameHead.bytes_plain]; rfl⟩
  unfold readQuery
  rw [head, Outcome.ok_bind]
  simp only [messageFrame, List.drop_left]

theorem Request.read_other {sn : UInt64} {bytes : Bytes} (addressable : Addressable (messageFrame sn bytes))
    (other : bytes.head? ≠ some requestHeader) : Request.read (messageFrame sn bytes) = none := by
  rw [Request.read, readQuery_messageFrame addressable, if_neg other]

theorem Request.read_requestQuery {sn : UInt64} {requestId : UInt32} {keyExpr : String} {payload : Bytes}
    {seqNum timestampNs : Int64} {gid : ZenohId}
    (addressable : Addressable (messageFrame sn (requestQueryBytes requestId keyExpr payload seqNum timestampNs gid))) :
    Request.read (messageFrame sn (requestQueryBytes requestId keyExpr payload seqNum timestampNs gid)) =
      some ⟨requestId.toUInt64, keyExpr, payload⟩ := by
  have body : Addressable (requestQueryBytes requestId keyExpr payload seqNum timestampNs gid) :=
    addressable.of_length_le (by simp [messageFrame])
  obtain ⟨start, read, extensions, -⟩ := readRequest_of_part body
    (show PartAt _ 0 (requestQueryBytes requestId keyExpr payload seqNum timestampNs gid) from ⟨[], by simp⟩)
  have data : readSlice (requestQueryBytes requestId keyExpr payload seqNum timestampNs gid) (start + 1) =
      .ok (0 :: payload, start + 1 + (lengthPrefixed (0 :: payload)).length) := by
    rw [queryExtensions, Extension.chain, Extension.bytes, List.cons_append, ← List.singleton_append] at extensions
    exact readSlice_of_part body (PartAt.append_iff.mp (PartAt.append_iff.mp extensions).2).1
  have first : (requestQueryBytes requestId keyExpr payload seqNum timestampNs gid).head? = some requestHeader := rfl
  rw [Request.read, readQuery_messageFrame addressable, if_pos first, read, Outcome.ok_bind]
  simp only
  rw [data]
  rfl

def Session.requests (session : Session) : List Request := session.sent.filterMap Request.read

/-- What a call asks for, under the id that it takes. -/
def ServiceCall.asked (call : ServiceCall) (requestId : UInt32) : Option Request :=
  match call.serviceKe.toKeyExpr, call.cdr with
  | some ke, .ok (n, raw) => some ⟨requestId.toUInt64, ke.text, raw.take n⟩
  | _, _ => none

theorem ServiceCall.requestId_asked {call : ServiceCall} {requestId : UInt32} {request : Request}
    (asked : call.asked requestId = some request) : request.requestId = requestId.toUInt64 := by
  unfold ServiceCall.asked at asked
  split at asked
  · rw [← Option.some.inj asked]
  · cases asked

end Reading

section Writing
variable [Target]

theorem Session.requests_delivered (session : Session) (bytes : Bytes) :
    (session.delivered bytes).requests =
      session.requests ++ (Request.read (messageFrame session.node.sn bytes)).toList := by
  rw [Session.requests, Session.delivered, List.filterMap_append, Session.requests]
  cases found : Request.read (messageFrame session.node.sn bytes) <;> simp [found]

theorem Session.requests_announced (session : Session) (token : HeaplessString maxLivelinessLen) :
    (session.announced token).requests = session.requests := by
  have fits := tokenFrame_length_le session.node.sn session.node.entityIdGen token
  have other : Request.read (messageFrame session.node.sn (declareTokenBytes session.node.entityIdGen token.text)) =
      none := by
    refine Request.read_other (le_isizeMax (Nat.lt_of_le_of_lt fits (by decide))) fun same => ?_
    exact absurd (Option.some.inj same) (by decide : networkId.declare ≠ requestHeader)
  rw [Session.announced, Session.requests_delivered]
  change session.requests ++ (Request.read
    (messageFrame session.node.sn (declareTokenBytes session.node.entityIdGen token.text))).toList = _
  rw [other, Option.toList_none, List.append_nil]

inductive Requesting (call : ServiceCall) (client : Client) : Outcome Error UInt32 × Client → Prop where
  | refused {result : Outcome Error UInt32} (failed : ∀ requestId, result ≠ .ok requestId)
      (unanswered : result ≠ .err .serviceNoReply) : Requesting call client (result, client)
  | failed {result : Outcome Error UInt32} {after : Client} (failed : ∀ requestId, result ≠ .ok requestId)
      (unanswered : result ≠ .err .serviceNoReply) (next : after.requestIdGen = client.requestIdGen + 1)
      (requests : after.session.requests = client.session.requests) : Requesting call client (result, after)
  | requested {after : Client} {request : Request} (made : call.asked client.requestIdGen = some request)
      (next : after.requestIdGen = client.requestIdGen + 1)
      (requests : after.session.requests = client.session.requests ++ [request]) :
      Requesting call client (.ok client.requestIdGen, after)

theorem sendRequest_requesting {call : ServiceCall} {client : Client} {ke : HeaplessString maxKeyExprLen}
    {payload : Bytes} (addressable : Addressable payload)
    (made : call.asked client.requestIdGen = some ⟨client.requestIdGen.toUInt64, ke.text, payload⟩) :
    Requesting call client (sendRequest call.serviceKe ke payload client) := by
  let next := client.requestIdGen + 1
  have announcement := declareLiveliness_announcement .serviceClient call.serviceKe client.session
  unfold sendRequest
  rw [Action.bind_of_ok (show Client.nextRequestId client = (.ok client.requestIdGen, ⟨client.session, next⟩) from rfl)]
  rcases ran : declareLiveliness .serviceClient call.serviceKe client.session with ⟨result, after⟩
  rw [ran] at announcement
  have run := Client.run_of next ran
  -- The id is taken by now, also where the announcement fails.
  cases announcement with
  | exhausted =>
    rw [Action.bind_of_panic run]
    exact .failed (by simp) (by simp) rfl rfl
  | unnameable =>
    rw [Action.bind_of_err run]
    exact .failed (by simp) (by simp) rfl rfl
  | unwritten =>
    rw [Action.bind_of_err run]
    exact .failed (by simp) (by simp) rfl rfl
  | @announced token named written =>
    rw [Action.bind_of_ok run, Action.bind_of_ok (Action.get_run _)]
    let middle := client.session.announced token
    have key : Addressable (utf8 ke.text) := by
      have short : ke.text.utf8ByteSize ≤ 256 := ke.fits
      exact le_isizeMax (by rw [utf8_length]; omega)
    have encodes := encodes_encodeRequestQuery client.requestIdGen client.requestIdGen.toUInt64.toInt64 0 middle.node.gid
      key addressable
    have sent := @sendMessage_attempts _ middle _ txFrameBuf _ encodes (by decide) (Nat.le_refl _)
    have announced : middle.requests = client.session.requests := Session.requests_announced _ token
    split at sent
    · rename_i fits
      rw [Session.attempt] at sent
      split at sent
      · rw [Action.bind_of_ok (Client.run_of next sent)]
        refine .requested made rfl ?_
        have read := @Request.read_requestQuery _ middle.node.sn client.requestIdGen ke.text payload
          client.requestIdGen.toUInt64.toInt64 0 middle.node.gid (le_isizeMax (Nat.lt_of_le_of_lt fits (by decide)))
        change (middle.delivered _).requests = _
        rw [Session.requests_delivered, read, announced, Option.toList_some]
      · rw [Action.bind_of_err (Client.run_of next sent)]
        exact .failed (by simp) (by simp) rfl announced
    · rw [Action.bind_of_err (Client.run_of next sent)]
      exact .failed (by simp) (by simp) rfl announced

theorem requestService_requesting (call : ServiceCall) (client : Client) :
    Requesting call client (requestService call client) := by
  unfold requestService
  cases key : call.serviceKe.toKeyExpr with
  | none => exact .refused (by simp) (by simp)
  | some ke =>
    cases cdr : call.cdr with
    | err error => exact .refused (by simp) (by simp)
    | panic fault => exact .refused (by simp) (by simp)
    | ok written =>
      obtain ⟨n, raw⟩ := written
      have fits := serializeWithHeader_fits cdr
      rw [List.length_replicate] at fits
      have addressable : Addressable (raw.take n) := by
        have array := call.array
        change (raw.take n).length ≤ isizeMax
        omega
      refine sendRequest_requesting addressable ?_
      rw [ServiceCall.asked, key, cdr]

end Writing
end ZenohRos2
