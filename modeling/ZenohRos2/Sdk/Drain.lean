import Mathlib.Logic.Function.Basic
import ZenohRos2.Sdk.Dispatch

/-! `drain_publishers` as a machine.

One turn is one turn of the outer loop over the publishers, or of the inner one
over the messages of a publisher. Other tasks run while a frame is being
written. All they change is the end of a channel, which the rest of the turn
does not look at, so their steps stand between two turns.
-/

set_option autoImplicit false

namespace ZenohRos2
open Rust

inductive FlushPoint where
  /-- The next message may not fit into the batch. -/
  | full
  /-- Nothing is left to drain. -/
  | drained
  /-- The frame of a single message. -/
  | single
  deriving DecidableEq

inductive Event where
  | sent (ref : PubRef) (payload : CdrPayload)
  | pushed (ref : PubRef) (payload : CdrPayload) (entry : SubscriberEntry)
  | wrote (ref : PubRef) (frame : Bytes)
  | failed (point : FlushPoint) (ref : PubRef) (frame : Bytes)
  | stashed (ref : PubRef) (payload : CdrPayload) (occupied : Bool)
  deriving DecidableEq

structure World where
  statics : PubRef → Publisher
  node : Node
  log : List Event

def World.setPublisher (world : World) (ref : PubRef) (publisher : Publisher) : World :=
  { world with statics := Function.update world.statics ref publisher }

def World.note (world : World) (events : List Event) : World := { world with log := world.log ++ events }

abbrev Drain := Action World Error

structure Buffers where
  cdrScratch : Bytes
  frameBuf : Bytes
  deriving DecidableEq

def Buffers.zeroed : Buffers := ⟨List.replicate cdrDrainBuf 0, List.replicate txFrameBuf 0⟩

/-- The locals while one publisher is drained. -/
structure Burst where
  drain : PubRef
  ke : Option (HeaplessString maxKeyExprLen)
  cdrScratch : Bytes
  frameBuf : Bytes
  pos : Nat
  batchStarted : Bool
  lastN : Nat
  lastSeq : Int64
  lastTs : Int64
  deriving DecidableEq

namespace Burst

def start (drain : PubRef) (ke : Option (HeaplessString maxKeyExprLen)) (buffers : Buffers) : Burst :=
  ⟨drain, ke, buffers.cdrScratch, buffers.frameBuf, 0, false, 0, 0, 0⟩

def buffers (burst : Burst) : Buffers := ⟨burst.cdrScratch, burst.frameBuf⟩

/-- `(&cdr_scratch[..n], seq, ts)` -/
def payload (burst : Burst) (drained : Publisher.Drained) : CdrPayload :=
  ⟨burst.cdrScratch.take drained.n, drained.seqNum, drained.timestampNs⟩

/-- `(&cdr_scratch[..last_n], last_seq, last_ts)` -/
def lastPayload (burst : Burst) : CdrPayload := burst.payload ⟨burst.lastN, burst.lastSeq, burst.lastTs⟩

end Burst

def tryDrain (ref : PubRef) (outBuf : Bytes) : Drain (Option Publisher.Drained × Bytes) := fun world =>
  let (drained, outBuf, publisher) := (world.statics ref).tryDrainInto outBuf
  (.ok (drained, outBuf), world.setPublisher ref publisher)

def stashRetry (ref : PubRef) (payload : CdrPayload) : Drain Unit := Action.modify fun world =>
  let publisher := world.statics ref
  (world.setPublisher ref (publisher.stashRetry payload.data payload.seqNum payload.timestampNs)).note
    [.stashed ref payload publisher.retrySlot.isSome]

def writeFrameFor (written : Bool) (point : FlushPoint) (ref : PubRef) (frame : Bytes) : Drain Unit := fun world =>
  match writeFrame frame written with
  | .ok () => (.ok (), world.note [.wrote ref frame])
  | .err error => (.err (.transport error), world.note [.failed point ref frame])
  | .panic fault => (.panic fault, world)

/-- The pushes of `dispatch_local`, unless the publisher is for the network only. -/
def dispatchLocalFor (ref : PubRef) (payload : CdrPayload) : Drain Unit := Action.modify fun world =>
  let publisher := world.statics ref
  if publisher.locality ≠ .remote then
    world.note ((dispatchLocal world.node.subscribers publisher.topic payload.data).map fun push =>
      .pushed ref payload push.entry)
  else world

section Bodies
variable [Target]

/-- The header takes the next sequence number, which is used up once it is encoded. -/
def beginFrame (burst : Burst) : Drain Burst := do
  let world ← Action.get
  let (pos, frameBuf) ← Action.lift ((encodeFrameHeader world.node.sn true burst.frameBuf).mapErr .transport)
  Action.modify fun world => { world with node := { world.node with sn := world.node.sn + 1 } }
  return { burst with frameBuf := frameBuf, pos := pos }

def appendPublication (ke : HeaplessString maxKeyExprLen) (payload : CdrPayload) (burst : Burst) :
    Drain Burst := do
  let world ← Action.get
  let encoder := encodePushPutWithAttachment ke.text payload.data payload.seqNum payload.timestampNs world.node.gid
  let (_, cursor) ← Action.lift ((Put.call encoder ⟨burst.frameBuf, burst.pos⟩).mapErr .transport)
  return { burst with frameBuf := cursor.buf, pos := cursor.pos }

namespace Sdk

/-- If the write fails, the given message is stashed and the error is returned. -/
def writeOrStash (written : Bool) (point : FlushPoint) (burst : Burst) (payload : CdrPayload) : Drain Unit := do
  let frame ← Action.lift (sliceRange burst.frameBuf 0 burst.pos)
  (writeFrameFor written point burst.drain frame).onError fun error => do
    stashRetry burst.drain payload
    Action.lift (.err error)

/-- Conservative estimate of the encoded size of a message. -/
def msgEst (ke : HeaplessString maxKeyExprLen) (n : Nat) : Nat := ke.text.utf8ByteSize + n + 64

def flushIfFull (written : Bool) (ke : HeaplessString maxKeyExprLen) (drained : Publisher.Drained) (burst : Burst) :
    Drain Burst :=
  if burst.batchStarted ∧ burst.pos + msgEst ke drained.n > txFrameBuf then do
    -- The message in the scratch buffer is stashed, which is not in the batch yet.
    writeOrStash written .full burst (burst.payload drained)
    return { burst with pos := 0, batchStarted := false }
  else return burst

def beginBatch (burst : Burst) : Drain Burst :=
  if burst.batchStarted then return burst
  else do
    let burst ← beginFrame burst
    return { burst with batchStarted := true }

/-- The message is encoded behind the batch, and remembered as the last one. -/
def appendMessage (ke : HeaplessString maxKeyExprLen) (drained : Publisher.Drained) (burst : Burst) : Drain Burst := do
  let burst ← beginBatch burst
  let burst ← appendPublication ke (burst.payload drained) burst
  return { burst with
    lastN := drained.n
    lastSeq := drained.seqNum
    lastTs := drained.timestampNs }

def finishBatch (written : Bool) (burst : Burst) : Drain Unit :=
  if burst.batchStarted then writeOrStash written .drained burst burst.lastPayload else return ()

/-- The message stands in a frame with others, which is written when it is full. -/
def sendBatched (written : Bool) (ke : HeaplessString maxKeyExprLen) (drained : Publisher.Drained) (burst : Burst) :
    Drain Burst := do
  let burst ← flushIfFull written ke drained burst
  appendMessage ke drained burst

end Sdk

/-- A frame for every message. A message whose write fails is dropped. -/
def Ros2.sendSingle (written : Bool) (ke : HeaplessString maxKeyExprLen) (drained : Publisher.Drained)
    (burst : Burst) : Drain Burst := do
  let burst ← beginFrame burst
  let burst ← appendPublication ke (burst.payload drained) burst
  let frame ← Action.lift (sliceRange burst.frameBuf 0 burst.pos)
  writeFrameFor written .single burst.drain frame
  return burst

/-- The body of the loop over the messages of a publisher; the result says
whether the loop goes on. The two drains differ in how they send a message, and
in what is left to do after the loop. -/
def drainMessage (send : HeaplessString maxKeyExprLen → Publisher.Drained → Burst → Drain Burst)
    (finish : Burst → Drain Unit) (burst : Burst) : Drain (Bool × Burst) := do
  let (drained, cdrScratch) ← tryDrain burst.drain burst.cdrScratch
  let burst := { burst with cdrScratch := cdrScratch }
  match drained with
  | none => do
    finish burst
    return (false, burst)
  | some drained => do
    -- Dispatched before it is written: a message that comes back from the slot is dispatched again.
    dispatchLocalFor burst.drain (burst.payload drained)
    match burst.ke with
    | none => return (true, burst)
    | some ke => do
      let burst ← send ke drained burst
      return (true, burst)

def Sdk.drainBody (written : Bool) : Burst → Drain (Bool × Burst) :=
  drainMessage (sendBatched written) (finishBatch written)

def Ros2.drainBody (written : Bool) : Burst → Drain (Bool × Burst) :=
  drainMessage (sendSingle written) fun _ => return ()

end Bodies

inductive Control where
  /-- No call is running; the last one returned this. -/
  | idle (returned : Option (Outcome Error Unit))
  | outer (i : Nat) (buffers : Buffers)
  | inner (i : Nat) (burst : Burst)
  deriving DecidableEq

structure System where
  world : World
  control : Control

/-- The key expression is computed once per publisher, and only for the network. -/
def outerTurn (i : Nat) (buffers : Buffers) : Drain Control := do
  let world ← Action.get
  match world.node.publishers[i]? with
  | none => return .idle (some (.ok ()))
  | some drain =>
    if (world.statics drain).locality = .sessionLocal then return .inner i (.start drain none buffers)
    else
      match (world.statics drain).topic.toKeyExpr with
      | none => Action.lift (.err .invalidArgument)
      | some ke => return .inner i (.start drain (some ke) buffers)

def innerNext (i : Nat) : Bool × Burst → Control
  | (true, burst) => .inner i burst
  | (false, burst) => .outer (i + 1) burst.buffers

/-- An error or a panic ends the call. -/
def settle {α : Type} (next : α → Control) : Outcome Error α × World → System
  | (.ok value, world) => ⟨world, next value⟩
  | (.err error, world) => ⟨world, .idle (some (.err error))⟩
  | (.panic fault, world) => ⟨world, .idle (some (.panic fault))⟩

abbrev Body := Bool → Burst → Drain (Bool × Burst)

/-- A turn writes at most one frame; `written` is the outcome of that write. -/
def turn (body : Body) (written : Bool) (system : System) : System :=
  match system.control with
  | .idle _ => system
  | .outer i buffers => settle id (outerTurn i buffers system.world)
  | .inner i burst => settle (innerNext i) (body written burst system.world)

def called (world : World) : System := ⟨world, .outer 0 .zeroed⟩

inductive Act where
  | stamp (ref : PubRef) (data : Bytes) (timestampNs : Int64)
  | enqueue (ref : PubRef) (waiting : Nat)
  | call
  | turn (written : Bool)
  /-- A new node, with the tables it was given. -/
  | reconnect (node : Node)

def System.step [Target] (system : System) : Act → Option System
  | .stamp ref data timestampNs =>
    ((system.world.statics ref).stamp data timestampNs).map fun publisher =>
      { system with world := system.world.setPublisher ref publisher }
  | .enqueue ref waiting =>
    ((system.world.statics ref).enqueue waiting).map fun (payload, publisher) =>
      { system with world := (system.world.setPublisher ref publisher).note [.sent ref payload] }
  | .call =>
    match system.control with
    | .idle _ => some (called system.world)
    | _ => none
  | .turn written =>
    match system.control with
    | .idle _ => none
    | _ => some (ZenohRos2.turn Sdk.drainBody written system)
  | .reconnect node =>
    match system.control with
    | .idle _ => some ⟨{ system.world with node := node }, .idle none⟩
    | _ => none

end ZenohRos2
