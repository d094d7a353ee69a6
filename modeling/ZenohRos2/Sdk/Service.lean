import ZenohRos2.Cdr.Deserializer
import ZenohRos2.Cdr.Serializer
import ZenohRos2.Sdk.Dispatch

/-! `call_service`: the request, and the loop that waits for the reply. -/

set_option autoImplicit false

namespace ZenohRos2
open Rust Cdr

/-- A session, with the counter of its service calls. -/
structure Client where
  session : Session
  requestIdGen : UInt32

namespace Client

def run {α : Type} (method : Method α) : Action Client Error α := fun client =>
  let (result, session) := method client.session
  (result, { client with session := session })

theorem run_of {α : Type} {method : Method α} {session after : Session} {result : Outcome Error α}
    (requestIdGen : UInt32) (ran : method session = (result, after)) :
    run method ⟨session, requestIdGen⟩ = (result, ⟨after, requestIdGen⟩) := by
  rw [run, ran]

/-- A request id is used up even if the call fails later on. -/
def nextRequestId : Action Client Error UInt32 := fun client =>
  (.ok client.requestIdGen, { client with requestIdGen := client.requestIdGen + 1 })

end Client

/-- What `with_timeout(timeout, read_frame(..))` returns. -/
inductive Arrival where
  | frame (payload : Bytes)
  | failed (error : TransportError)
  | timeout
  deriving DecidableEq

structure Waiting where
  rxBuf : Bytes
  fragAsm : FragmentAssembler
  deriving DecidableEq

def Waiting.start : Waiting := ⟨List.replicate rxBufSize 0, .new⟩

section Service
variable [Target]

/-- The arguments of a call; the request is serialized into an array of `CDR_REQ` bytes. -/
structure ServiceCall where
  cdrReq : Nat
  array : cdrReq ≤ isizeMax
  ty : Ty
  request : ty.Val
  serviceKe : TopicKeyExpr

def ServiceCall.cdr (call : ServiceCall) : Outcome CdrError (Nat × Bytes) :=
  serializeWithHeader call.ty call.request (List.replicate call.cdrReq 0)

/-- The client is announced with every request. -/
def sendRequest (serviceKe : TopicKeyExpr) (ke : HeaplessString maxKeyExprLen) (payload : Bytes) :
    Action Client Error UInt32 := do
  let requestId ← Client.nextRequestId
  Client.run (declareLiveliness .serviceClient serviceKe)
  let client ← Action.get
  Client.run (sendMessage txFrameBuf
    (encodeRequestQuery requestId ke.text payload requestId.toUInt64.toInt64 0 client.session.node.gid))
  return requestId

/-- `call_service` up to the write of the request. -/
def requestService (call : ServiceCall) : Action Client Error UInt32 :=
  match call.serviceKe.toKeyExpr with
  | none => Action.lift (.err .invalidArgument)
  | some ke => do
    let (cdrLen, cdrBuf) ← Action.lift (call.cdr.mapErr .cdr)
    sendRequest call.serviceKe ke (cdrBuf.take cdrLen)

variable (ty : Ty) (requestId : UInt32)

/-- `deserialize_with_header::<Resp>(reply.payload).map_err(Error::Cdr)` -/
def readReply (payload : Bytes) : Outcome Error ty.Val := do
  let (resp, _) ← (deserializeWithHeader ty payload).mapErr .cdr
  .ok resp

/-- The response at the start of a body, if it is for this call. -/
def matchResponse (body : Bytes) : Outcome Error (Option ty.Val) :=
  ifOk (decodeResponse body) none fun
    | some (.reply reply, _) =>
      if reply.requestId = requestId then do
        let resp ← readReply ty reply.payload
        .ok (some resp)
      else .ok none
    | some (.final rid, _) => if rid = requestId then .err .serviceNoReply else .ok none
    | none => .ok none

variable (node : Node)

/-- A frame that is not the response is for the subscriptions; an error of theirs is ignored. -/
def Waiting.handle (waiting : Waiting) (frameBuf : Bytes) : Outcome Error (Option ty.Val × Waiting) :=
  ifOk (decodeFrameHeader frameBuf) (none, waiting) fun (_, _, bodyPos) => do
    let body ← sliceFrom frameBuf bodyPos
    match ← matchResponse ty requestId body with
    | some resp => .ok (some resp, waiting)
    | none =>
      match dispatchFrame node frameBuf waiting.fragAsm with
      | .ok (_, fragAsm) => .ok (none, { waiting with fragAsm := fragAsm })
      | .err _ => .ok (none, waiting)
      | .panic fault => .panic fault

/-- `Ok(Ok(n))`: the frame is in `rx_buf[..n]`. An empty one leaves the first byte of an earlier frame in place. -/
def Waiting.take (waiting : Waiting) (payload : Bytes) : Outcome Error (Option ty.Val × Waiting) := do
  let waiting := { waiting with rxBuf := payload ++ waiting.rxBuf.drop payload.length }
  let first ← index waiting.rxBuf 0
  if messageId first = transportId.frame then
    waiting.handle ty requestId node (waiting.rxBuf.take payload.length)
  else if messageId first = transportId.close then .err (.transport .connectionClosed)
  else .ok (none, waiting)

/-- One turn of the loop; `none` if it goes on. -/
def Waiting.turn (waiting : Waiting) : Arrival → Outcome Error (Option ty.Val × Waiting)
  | .frame payload => waiting.take ty requestId node payload
  | .failed error => .err (.transport error)
  | .timeout => .err .timeout

/-- What the loop returns, with the arrivals behind the one it returns at. -/
def awaitReply : Waiting → List Arrival → Option (Outcome Error ty.Val × List Arrival)
  | _, [] => none
  | waiting, arrival :: arrivals =>
    match waiting.turn ty requestId node arrival with
    | .ok (some resp, _) => some (.ok resp, arrivals)
    | .ok (none, waiting) => awaitReply waiting arrivals
    | .err error => some (.err error, arrivals)
    | .panic fault => some (.panic fault, arrivals)

omit requestId node in
/-- `call_service`; `none` if it still waits after the last arrival. -/
def callService (call : ServiceCall) (arrivals : List Arrival) : Action Client Error (Option ty.Val) := do
  let requestId ← requestService call
  let client ← Action.get
  match awaitReply ty requestId client.session.node .start arrivals with
  | some (result, _) => Action.lift (do let resp ← result; .ok (some resp))
  | none => return none

omit requestId node in
theorem callService_client (call : ServiceCall) (arrivals : List Arrival) (client : Client) :
    (callService ty call arrivals client).2 = (requestService call client).2 := by
  unfold callService
  rcases ran : requestService call client with ⟨result, after⟩
  cases result with
  | ok requestId =>
    rw [Action.bind_of_ok ran, Action.bind_of_ok (Action.get_run _)]
    cases awaitReply ty requestId after.session.node .start arrivals <;> rfl
  | err error => rw [Action.bind_of_err ran]
  | panic fault => rw [Action.bind_of_panic ran]

end Service
end ZenohRos2
