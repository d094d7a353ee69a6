import ZenohRos2.Sdk.Node

/-! Delivery to the subscriptions of a node, of local messages and of received frames. -/

set_option autoImplicit false

namespace ZenohRos2
open Rust

def rxBufSize : Nat := 4096
def fragmentBufSize : Nat := 16384

/-- A call of `push_raw` on the dispatch of an entry. -/
structure Delivery where
  entry : SubscriberEntry
  payload : Bytes
  deriving DecidableEq, Repr

/-- The entries a publisher of this node reaches without the network. -/
def localEntries (subscribers : List SubscriberEntry) (pubTopic : TopicKeyExpr) : List SubscriberEntry :=
  subscribers.filter fun entry => entry.locality ≠ .remote && topicsMatch entry.topic pubTopic

def dispatchLocal (subscribers : List SubscriberEntry) (pubTopic : TopicKeyExpr) (payload : Bytes) :
    List Delivery :=
  (localEntries subscribers pubTopic).map fun entry => ⟨entry, payload⟩

/-- Entries that are skipped by the network route. -/
def SubscriberEntry.network (entry : SubscriberEntry) : Bool :=
  !(entry.keyId = 0 || entry.locality = .sessionLocal)

/-- The first entry with the scope cut to 16 bits as its key id. -/
def routedEntry (subscribers : List SubscriberEntry) (scope : UInt64) : Option SubscriberEntry :=
  subscribers.find? fun entry => entry.network && scope.toUInt16 == entry.keyId

def routeToSubscribers (subscribers : List SubscriberEntry) (put : IncomingPut) : List Delivery :=
  (routedEntry subscribers put.scope).toList.map fun entry => ⟨entry, put.payload⟩

structure FragmentAssembler where
  buf : Bytes
  active : Bool
  deriving DecidableEq

namespace FragmentAssembler

/-- The bytes assembled so far are `buf[..len]`. -/
def new : FragmentAssembler := ⟨[], false⟩

def feed (cap : Nat) (assembler : FragmentAssembler) (more : Bool) (payload : Bytes) :
    Outcome TransportError (Option Bytes) × FragmentAssembler :=
  let held := if assembler.active then assembler.buf else []
  if held.length + payload.length > cap then (.err .frameTooLarge, ⟨[], false⟩)
  else if more then (.ok none, ⟨held ++ payload, true⟩)
  else (.ok (some (held ++ payload)), ⟨held ++ payload, false⟩)

end FragmentAssembler

/-- What handling a frame does: pushes into subscriptions, and calls of `on_message`. -/
structure Handled where
  pushes : List Delivery
  messages : List (String × Bytes)
  deriving DecidableEq

def Handled.nothing : Handled := ⟨[], []⟩

section Frames
variable [Target]

/-- `if let Ok(value) = result { body }`: errors of the decoders are ignored. -/
def ifOk {α β : Type} (result : Decode α) (otherwise : β) (body : α → Outcome Error β) : Outcome Error β :=
  match result with
  | .ok value => body value
  | .err _ => .ok otherwise
  | .panic fault => .panic fault

/-- The one message that is decoded at the start of a body. -/
def handleBody (handle : IncomingPut → Handled) (body : Bytes) : Outcome Error Handled :=
  ifOk (decodePushPut body) .nothing fun
    | some (put, _) => .ok (handle put)
    | none => .ok .nothing

/-- `dispatch_frame` and `dispatch_frame_with_callbacks` differ in how they handle a Put. -/
def dispatchWith (handle : IncomingPut → Handled) (frameBuf : Bytes) (fragAsm : FragmentAssembler) :
    Outcome Error (Handled × FragmentAssembler) :=
  if frameBuf.isEmpty then .ok (.nothing, fragAsm)
  else do
    let first ← index frameBuf 0
    match parseTransportMsgKind first with
    | .frame =>
      let handled ← ifOk (decodeFrameHeader frameBuf) .nothing fun (_, _, bodyPos) => do
        let body ← sliceFrom frameBuf bodyPos
        handleBody handle body
      .ok (handled, fragAsm)
    | .fragment =>
      ifOk (decodeFragmentHeader frameBuf) (.nothing, fragAsm) fun (_, _, more, bodyPos) => do
        let body ← sliceFrom frameBuf bodyPos
        match fragAsm.feed fragmentBufSize more body with
        | (.ok (some assembled), fragAsm) => do
          let handled ← handleBody handle assembled
          .ok (handled, fragAsm)
        | (_, fragAsm) => .ok (.nothing, fragAsm)
    -- The only message that ends a receive loop.
    | .close => .err (.transport .connectionClosed)
    | _ => .ok (.nothing, fragAsm)

def dispatchFrame (node : Node) : Bytes → FragmentAssembler → Outcome Error (Handled × FragmentAssembler) :=
  dispatchWith fun put => ⟨routeToSubscribers node.subscribers put, []⟩

def dispatchFrameWithCallbacks (node : Node) :
    Bytes → FragmentAssembler → Outcome Error (Handled × FragmentAssembler) :=
  dispatchWith fun put => ⟨routeToSubscribers node.subscribers put, [(put.keySuffix, put.payload)]⟩

end Frames
end ZenohRos2
