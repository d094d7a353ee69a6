import ZenohRos2.Ros2.Publisher
import ZenohRos2.Rust.Action
import ZenohRos2.Transport.Encoding
import ZenohRos2.Transport.Frame

/-! The node, and how publishers and subscriptions are registered with it.

A method runs on a session: the node and its side of the transport. What a
method did before it failed stays done. Each write takes its outcome from the
transport; the frames whose write succeeded are kept in order.
-/

set_option autoImplicit false

namespace ZenohRos2
open Rust

abbrev PubRef := Nat

abbrev SubRef := Nat

def maxPubs : Nat := 8
def maxSubs : Nat := 4
def txFrameBuf : Nat := 1024
def minLeaseMs : UInt64 := 2000

structure SubscriberEntry where
  /-- 0 for subscriptions without a network registration. -/
  keyId : UInt16
  locality : Locality
  topic : TopicKeyExpr
  dispatch : SubRef
  deriving DecidableEq, Repr

/-- A timer; times are in milliseconds. -/
structure TimerEntry where
  period : Nat
  nextFire : Nat
  deriving DecidableEq, Repr

structure Node where
  nodeName : String
  «namespace» : String
  domainId : UInt32
  sn : UInt64
  keyIdGen : UInt16
  entityIdGen : UInt32
  gid : ZenohId
  leaseMs : UInt64
  ourLeaseMs : UInt64
  publishers : List PubRef
  subscribers : List SubscriberEntry
  timers : List TimerEntry

/-- The node that `NodeBuilder::build` makes of a completed handshake. -/
def Node.built (nodeName «namespace» : String) (domainId : UInt32) (gid : ZenohId)
    (routerLeaseMs ourLeaseMs : UInt64) : Node where
  nodeName := nodeName
  «namespace» := «namespace»
  domainId := domainId
  sn := 0
  keyIdGen := 1
  entityIdGen := 1
  gid := gid
  leaseMs := max routerLeaseMs minLeaseMs
  ourLeaseMs := ourLeaseMs
  publishers := []
  subscribers := []
  timers := []

/-- `heapless::Vec::push`, with a full vector left as it is. -/
def pushWithin {α : Type} (capacity : Nat) (items : List α) (item : α) : List α :=
  if items.length < capacity then items ++ [item] else items

structure Session where
  node : Node
  /-- Outcome of each write to come. -/
  outcomes : Nat → Bool
  tried : Nat
  sent : List Bytes

abbrev Method := Action Session Error

namespace Method

def getNode : Method Node := fun session => (.ok session.node, session)

def modifyNode (change : Node → Node) : Method Unit :=
  Action.modify fun session => { session with node := change session.node }

@[simp] theorem getNode_run (session : Session) : getNode session = (.ok session.node, session) := rfl

@[simp] theorem modifyNode_run (change : Node → Node) (session : Session) :
    modifyNode change session = (.ok (), { session with node := change session.node }) := rfl

/-- `frame::write_frame(&mut self.transport, payload)` -/
def write (payload : Bytes) : Method Unit := fun session =>
  match writeFrame payload (session.outcomes session.tried) with
  | .ok () => (.ok (), { session with tried := session.tried + 1, sent := session.sent ++ [payload] })
  | .err error => (.err (.transport error), { session with tried := session.tried + 1 })
  | .panic fault => (.panic fault, session)

/-- The method leaves a part of the node as it is. -/
abbrev Keeps {α γ : Type} (field : Node → γ) (method : Method α) : Prop :=
  Action.Keeps (fun session : Session => field session.node) method

variable {γ : Type} {field : Node → γ}

theorem keeps_getNode : Keeps field getNode := fun _ => rfl

theorem keeps_modifyNode {change : Node → Node} (same : ∀ node, field (change node) = field node) :
    Keeps field (modifyNode change) := fun session => same session.node

theorem keeps_write (payload : Bytes) : Keeps field (write payload) := by
  intro session
  unfold write
  split <;> rfl

end Method

section Registration
variable [Target]

/-- A Frame with one network message, in a buffer of `size` bytes. The sequence
number is used up as soon as the header is encoded. -/
def sendMessage (size : Nat) (message : WireEncoder) : Method Unit := do
  let node ← Method.getNode
  let (pos, buf) ← Action.lift ((encodeFrameHeader node.sn true (List.replicate size 0)).mapErr .transport)
  Method.modifyNode fun node => { node with sn := node.sn + 1 }
  let (_, cursor) ← Action.lift ((Put.call message ⟨buf, pos⟩).mapErr .transport)
  let payload ← Action.lift (sliceRange cursor.buf 0 cursor.pos)
  Method.write payload

def declareKeyExpr (keyExpr : String) : Method UInt16 := do
  let keyId := (← Method.getNode).keyIdGen
  Method.modifyNode fun node => { node with keyIdGen := node.keyIdGen + 1 }
  sendMessage 512 (encodeDeclareKeyexpr keyId keyExpr)
  return keyId

def declareSubscriber (keyId : UInt16) : Method Unit :=
  sendMessage 128 (encodeDeclareSubscriberMapped keyId.toUInt32 keyId)

/-- The counter of entities is added to with overflow checks. -/
def declareLiveliness (entityType : EntityType) (topic : TopicKeyExpr) : Method Unit := do
  let node ← Method.getNode
  let next ← Action.lift (u32Add node.entityIdGen.toNat 1)
  Method.modifyNode fun node => { node with entityIdGen := UInt32.ofNat next }
  match buildLivelinessToken node.domainId node.gid 0 node.entityIdGen entityType "" node.namespace
      node.nodeName topic.topicName topic.typeName topic.typeHash Qos.default with
  | none => Action.lift (.err .invalidArgument)
  | some token => sendMessage 768 (encodeDeclareToken node.entityIdGen token.text)

/-- Publishers of this session alone are not announced. A full table drops the publisher. -/
def createPublisher (publisher : Publisher) (ref : PubRef) : Method Unit := do
  if publisher.locality ≠ .sessionLocal then declareLiveliness .publisher publisher.topic else pure ()
  Method.modifyNode fun node => { node with publishers := pushWithin maxPubs node.publishers ref }

/-- The key id of a subscription: 0 where nothing is declared to the router. -/
def registerSubscription (topic : TopicKeyExpr) (locality : Locality) : Method UInt16 :=
  if locality = .sessionLocal then pure 0
  else
    match topic.toKeyExpr with
    | none => Action.lift (.err .invalidArgument)
    | some keyExpr => do
      let keyId ← declareKeyExpr keyExpr.text
      declareSubscriber keyId
      declareLiveliness .subscriber topic
      return keyId

/-- A full table drops the subscription, and the call still succeeds. -/
def createSubscription (topic : TopicKeyExpr) (locality : Locality) (dispatch : SubRef) : Method Unit := do
  let keyId ← registerSubscription topic locality
  Method.modifyNode fun node =>
    { node with subscribers := pushWithin maxSubs node.subscribers ⟨keyId, locality, topic, dispatch⟩ }

end Registration
end ZenohRos2
