import Mathlib.Logic.Function.Iterate
import ZenohRos2.Sdk.Accounting

/-! The batching drain refines the plain one.

With every write succeeding, both drains write the pending messages of the
publishers in order and leave them empty. They differ in how many messages
stand in a frame.
-/

set_option autoImplicit false

namespace ZenohRos2
open Rust

def Event.frame : Event → Option Bytes
  | .wrote _ frame => some frame
  | _ => none

def Event.isPush : Event → Bool
  | .pushed .. => true
  | _ => false

namespace World

def frames (world : World) : List Bytes := world.log.filterMap Event.frame

def localPushes (world : World) : List Event := world.log.filter Event.isPush

theorem frames_note (world : World) (events : List Event) :
    (world.note events).frames = world.frames ++ events.filterMap Event.frame := List.filterMap_append

theorem localPushes_note (world : World) (events : List Event) :
    (world.note events).localPushes = world.localPushes ++ events.filter Event.isPush := List.filter_append ..

@[simp] theorem pushes_frames (world : World) (ref : PubRef) (payload : CdrPayload) :
    (world.pushes ref payload).filterMap Event.frame = [] := by
  unfold pushes
  split <;> simp [List.filterMap_map, Event.frame]

theorem frames_drained (world : World) (ref : PubRef) (payload : CdrPayload) :
    (world.drained ref payload).frames = world.frames := by
  rw [drained, frames_note, pushes_frames, List.append_nil]
  rfl

theorem localPushes_drained (world : World) (ref : PubRef) (payload : CdrPayload) :
    (world.drained ref payload).localPushes = world.localPushes ++ world.pushes ref payload := by
  have all : (world.pushes ref payload).filter Event.isPush = world.pushes ref payload := by
    rw [List.filter_eq_self]
    intro event member
    unfold pushes at member
    split at member
    · obtain ⟨entry, -, rfl⟩ := List.mem_map.mp member
      rfl
    · cases member
  rw [drained, localPushes_note, all]
  rfl

end World

theorem World.drained_pushes (world : World) (ref : PubRef) (taken payload : CdrPayload) :
    (world.drained ref taken).pushes ref payload = world.pushes ref payload := by
  simp [pushes]

theorem World.drained_pending {world : World} {ref : PubRef} {payload : CdrPayload} {rest : List CdrPayload}
    (waiting : (world.statics ref).pending = payload :: rest) :
    ((world.drained ref payload).statics ref).pending = rest := by
  rw [drained_statics, Function.update_self, Publisher.taken_pending, waiting, List.tail_cons]

namespace Publisher

def emptied (publisher : Publisher) : Publisher := { publisher with retrySlot := none, channel := [] }

theorem emptied_pending (publisher : Publisher) : publisher.emptied.pending = [] := rfl

theorem taken_emptied (publisher : Publisher) : publisher.taken.emptied = publisher.emptied := by
  unfold taken
  split <;> rfl

theorem emptied_of_pending_eq_nil {publisher : Publisher} (empty : publisher.pending = []) :
    publisher.emptied = publisher := by
  obtain ⟨slot, channel⟩ := pending_eq_nil empty
  cases publisher
  cases slot
  cases channel
  rfl

/-- The key expression a publisher sends under, if it is not for this session alone. -/
def networkKey (publisher : Publisher) : Option (HeaplessString maxKeyExprLen) :=
  if publisher.locality = .sessionLocal then none else publisher.topic.toKeyExpr

def outgoing (publisher : Publisher) (gid : ZenohId) : List Received :=
  publisher.networkKey.toList.flatMap fun ke => publisher.pending.map (CdrPayload.received ke.text gid)

def Named (publisher : Publisher) : Prop :=
  publisher.locality ≠ .sessionLocal → publisher.topic.toKeyExpr.isSome

instance (publisher : Publisher) : Decidable publisher.Named := inferInstanceAs (Decidable (_ → _))

end Publisher

/-- With every write succeeding, the machine gets from one state to another. -/
def Reaches [Target] (body : Body) (system next : System) : Prop := ∃ turns, (turn body true)^[turns] system = next

namespace Reaches
variable [Target] {body : Body} {system middle next : System}

theorem refl (system : System) : Reaches body system system := ⟨0, rfl⟩

theorem head (first : turn body true system = middle) (rest : Reaches body middle next) :
    Reaches body system next := by
  obtain ⟨turns, ran⟩ := rest
  refine ⟨turns + 1, ?_⟩
  rw [Function.iterate_succ_apply, first, ran]

theorem trans (first : Reaches body system middle) (rest : Reaches body middle next) : Reaches body system next := by
  obtain ⟨turns, ran⟩ := first
  obtain ⟨more, ended⟩ := rest
  refine ⟨more + turns, ?_⟩
  rw [Function.iterate_add_apply, ran, ended]

theorem of_idle {world : World} {returned : Option (Outcome Error Unit)}
    (reached : Reaches body ⟨world, .idle returned⟩ next) : next = ⟨world, .idle returned⟩ := by
  obtain ⟨turns, rfl⟩ := reached
  exact Function.iterate_fixed rfl turns

theorem returns_once {first second : World} {one two : Option (Outcome Error Unit)}
    (left : Reaches body system ⟨first, .idle one⟩) (right : Reaches body system ⟨second, .idle two⟩) :
    System.mk first (.idle one) = ⟨second, .idle two⟩ := by
  obtain ⟨early, ran⟩ := left
  obtain ⟨late, ended⟩ := right
  rcases Nat.le_total early late with before | before
  · obtain ⟨more, rfl⟩ := Nat.exists_eq_add_of_le' before
    rw [Function.iterate_add_apply, ran] at ended
    exact (of_idle ⟨more, ended⟩).symm
  · obtain ⟨more, rfl⟩ := Nat.exists_eq_add_of_le' before
    rw [Function.iterate_add_apply, ended] at ran
    exact of_idle ⟨more, ran⟩

end Reaches

section Frames
variable [Target]

/-- The frames have consecutive sequence numbers, which wrap around. -/
def Numbered (sn : UInt64) (frames : List Bytes) : Prop :=
  ∀ i frame, frames[i]? = some frame → frameSn frame = some (sn + UInt64.ofNat i)

theorem Numbered.append {sn : UInt64} {frames rest : List Bytes} (first : Numbered sn frames)
    (second : Numbered (sn + UInt64.ofNat frames.length) rest) : Numbered sn (frames ++ rest) := by
  intro i frame found
  rcases Nat.lt_or_ge i frames.length with early | late
  · apply first
    rwa [List.getElem?_append_left early] at found
  · rw [List.getElem?_append_right late] at found
    rw [second _ _ found, UInt64.add_assoc, ← UInt64.ofNat_add, Nat.add_sub_cancel' late]

/-- What a stretch of a drain wrote and pushed. -/
structure World.Writes (good : Nat → Prop) (sn : UInt64) (world after : World) (written : List Bytes)
    (messages : List Received) (pushes : List Event) : Prop where
  node : after.node = { world.node with sn := after.node.sn }
  frames : after.frames = world.frames ++ written
  pushed : after.localPushes = world.localPushes ++ pushes
  numbered : Numbered sn written
  sized : ∀ frame ∈ written, frame.length ≤ txFrameBuf ∧ good (received frame).length
  messages : written.flatMap received = messages

namespace World.Writes
variable {good : Nat → Prop} {sn : UInt64} {world middle after : World} {written rest : List Bytes}
  {messages later : List Received} {pushes more : List Event}

theorem trans (first : Writes good sn world middle written messages pushes) {number : UInt64}
    (second : Writes good number middle after rest later more) (count : number = sn + UInt64.ofNat written.length) :
    Writes good sn world after (written ++ rest) (messages ++ later) (pushes ++ more) where
  node := by rw [second.node, first.node]
  frames := by rw [second.frames, first.frames, List.append_assoc]
  pushed := by rw [second.pushed, first.pushed, List.append_assoc]
  numbered := first.numbered.append (count ▸ second.numbered)
  sized frame member := (List.mem_append.mp member).elim (first.sized frame) (second.sized frame)
  messages := by rw [List.flatMap_append, first.messages, second.messages]

theorem silent (node : after.node = { world.node with sn := after.node.sn }) (frames : after.frames = world.frames)
    (pushed : after.localPushes = world.localPushes ++ pushes) : Writes good sn world after [] [] pushes where
  node := node
  frames := by rw [frames, List.append_nil]
  pushed := pushed
  numbered i frame found := by cases found
  sized frame member := by cases member
  messages := rfl

theorem refl (world : World) : Writes good sn world world [] [] [] := silent rfl rfl (List.append_nil _).symm

theorem countSn (writes : Writes good sn world after written messages pushes) :
    Writes good sn world after.countSn written messages pushes :=
  { writes with node := congrArg (fun node => { node with sn := after.node.sn + 1 }) writes.node }

theorem drained (world : World) (ref : PubRef) (payload : CdrPayload) :
    Writes good sn world (world.drained ref payload) [] [] (world.pushes ref payload) :=
  silent rfl (world.frames_drained ref payload) (world.localPushes_drained ref payload)

theorem batch (world : World) (ref : PubRef) {ke : String} {flight : List CdrPayload}
    (short : (batchFrame sn ke world.node.gid flight).length ≤ txFrameBuf) (many : good flight.length) :
    Writes good sn world (world.note [.wrote ref (batchFrame sn ke world.node.gid flight)])
      [batchFrame sn ke world.node.gid flight] (flight.map (CdrPayload.received ke world.node.gid)) [] := by
  have addressable : Addressable (batchFrame sn ke world.node.gid flight) :=
    le_isizeMax (Nat.lt_of_le_of_lt short (by decide))
  have decoded := received_batchFrame addressable
  constructor
  · rfl
  · exact world.frames_note _
  · exact world.localPushes_note _
  · intro i frame found
    obtain ⟨rfl, rfl⟩ : i = 0 ∧ frame = batchFrame sn ke world.node.gid flight := by
      cases i with
      | zero => exact ⟨rfl, (Option.some.inj found).symm⟩
      | succ i => cases found
    change _ = some (sn + 0)
    rw [UInt64.add_zero]
    exact frameSn_frameOf addressable
  · intro frame member
    rw [List.mem_singleton.mp member, decoded, List.length_map]
    exact ⟨short, many⟩
  · rw [List.flatMap_cons, List.flatMap_nil, List.append_nil, decoded]

end World.Writes

/-- The rest of a burst: what it writes and pushes, and that the publisher is empty after it. -/
def Completes (good : Nat → Prop) (body : Body) (ref : PubRef) (sn : UInt64) (world : World) (i : Nat)
    (burst : Burst) (messages : List Received) (pushes : List Event) : Prop :=
  ∃ after buffers written, Reaches body ⟨world, .inner i burst⟩ ⟨after, .outer (i + 1) buffers⟩ ∧
    buffers.Sized ∧ world.Writes good sn after written messages pushes ∧
    after.node.sn = sn + UInt64.ofNat written.length ∧
    after.statics = Function.update world.statics ref (world.statics ref).emptied

namespace Completes
variable {good : Nat → Prop} {body : Body} {ref : PubRef} {sn : UInt64} {world middle : World} {i : Nat}
  {burst next : Burst} {written : List Bytes} {messages later : List Received} {pushes more : List Event}

theorem last (ran : body true burst world = (.ok (false, next), middle)) (sized : next.buffers.Sized)
    (empty : (world.statics ref).pending = []) (statics : middle.statics = world.statics)
    (writes : world.Writes good sn middle written messages pushes)
    (count : middle.node.sn = sn + UInt64.ofNat written.length) :
    Completes good body ref sn world i burst messages pushes := by
  refine ⟨middle, next.buffers, written, .head ?_ (.refl _), sized, writes, count, ?_⟩
  · simp only [turn, ran]
    rfl
  · rw [statics, Publisher.emptied_of_pending_eq_nil empty, Function.update_eq_self]

theorem turn (ran : body true burst world = (.ok (true, next), middle))
    (statics : middle.statics = Function.update world.statics ref (world.statics ref).taken)
    (writes : world.Writes good sn middle written messages pushes)
    {number : UInt64} (rest : Completes good body ref number middle i next later more)
    (count : number = sn + UInt64.ofNat written.length) :
    Completes good body ref sn world i burst (messages ++ later) (pushes ++ more) := by
  obtain ⟨after, buffers, tail, reached, sized, wrote, counted, emptied⟩ := rest
  refine ⟨after, buffers, written ++ tail, .head ?_ reached, sized, writes.trans wrote count, ?_, ?_⟩
  · simp only [ZenohRos2.turn, ran]
    rfl
  · rw [counted, count, List.length_append, UInt64.ofNat_add, UInt64.add_assoc]
  · rw [emptied, statics, Function.update_self, Publisher.taken_emptied, Function.update_idem]

end Completes

/-- A body whose bursts send the pending messages of a publisher. -/
def DrainsBursts (good : Nat → Prop) (body : Body) : Prop :=
  ∀ (world : World) (ref : PubRef) (i : Nat) (buffers : Buffers), buffers.Sized →
    Completes good body ref world.node.sn world i (.start ref (world.statics ref).networkKey buffers)
      ((world.statics ref).outgoing world.node.gid) ((world.statics ref).pending.flatMap (world.pushes ref))

end Frames

section Bursts
variable [Target] {ref : PubRef} {ke : HeaplessString maxKeyExprLen}

/-- The number of the frame that is written next: a frame in flight was counted. -/
def Sdk.nextSn (node : Node) (flight : List CdrPayload) : UInt64 := if flight = [] then node.sn else node.sn - 1

theorem Sdk.drainBody_completes (i : Nat) (waiting : List CdrPayload) {world : World} {burst : Burst}
    {flight : List CdrPayload} (pending : (world.statics ref).pending = waiting)
    (ready : Ready world.node ref ke burst flight) :
    Completes (0 < ·) Sdk.drainBody ref (nextSn world.node flight) world i burst
      ((flight ++ waiting).map (CdrPayload.received ke.text world.node.gid))
      (waiting.flatMap (world.pushes ref)) := by
  -- One turn for each message that waits: it joins the batch in flight, or starts the next one.
  induction waiting generalizing world burst flight with
  | nil =>
    have turned := drainBody_turned ready true
    rcases ran : Sdk.drainBody true burst world with ⟨result, after⟩
    rw [ran] at turned
    cases turned with
    | nothing empty idle sized =>
      subst idle
      exact .last ran sized empty rfl (.refl world) (UInt64.add_zero _).symm
    | finished empty flying sized =>
      rw [List.append_nil, nextSn, if_neg flying]
      apply Completes.last ran sized empty rfl
      · exact .batch world ref (ready.frame_length_le flying) (List.length_pos_iff.mpr flying)
      · exact (UInt64.sub_add_cancel _ _).symm
    | started other => rw [pending] at other; cases other
    | appended other => rw [pending] at other; cases other
    | flushed other => rw [pending] at other; cases other
  | cons payload rest ih =>
    let drained := world.drained ref payload
    have left : (drained.statics ref).pending = rest := World.drained_pending pending
    have others : drained.pushes ref = world.pushes ref := funext fun next => world.drained_pushes ref payload next
    have pushed : world.Writes (0 < ·) (nextSn world.node flight) drained [] [] (world.pushes ref payload) :=
      .drained world ref payload
    have turned := drainBody_turned ready true
    rcases ran : Sdk.drainBody true burst world with ⟨result, after⟩
    rw [ran] at turned
    cases turned with
    | nothing empty => rw [pending] at empty; cases empty
    | finished empty => rw [pending] at empty; cases empty
    | started waiting idle begun =>
      obtain ⟨rfl, rfl⟩ := List.cons_eq_cons.mp (pending.symm.trans waiting)
      subst idle
      have completes := ih (show (drained.countSn.statics ref).pending = rest from left) begun
      have whole := Completes.turn ran rfl pushed.countSn completes (by simp [nextSn, World.countSn, drained])
      rw [show drained.countSn.pushes ref = world.pushes ref from others] at whole
      simpa [drained] using whole
    | appended waiting flying begun =>
      obtain ⟨rfl, rfl⟩ := List.cons_eq_cons.mp (pending.symm.trans waiting)
      have completes := ih left begun
      have whole := Completes.turn ran rfl pushed completes (by simp [nextSn, flying, drained])
      rw [others] at whole
      simpa [drained] using whole
    | flushed waiting flying begun =>
      obtain ⟨rfl, rfl⟩ := List.cons_eq_cons.mp (pending.symm.trans waiting)
      let flushed := drained.note [.wrote ref (flightFrame world.node ke flight)]
      have completes := ih (show (flushed.countSn.statics ref).pending = rest from left) begun
      have wrote : drained.Writes (0 < ·) (world.node.sn - 1) flushed _ _ [] :=
        .batch drained ref (ready.frame_length_le flying) (List.length_pos_iff.mpr flying)
      have whole := Completes.turn ran rfl (pushed.trans wrote (by simp [nextSn, flying])).countSn completes
        (by simp [nextSn, flying, World.countSn, flushed, drained])
      rw [show flushed.countSn.pushes ref = world.pushes ref from others] at whole
      simpa [flushed, drained] using whole

/-- A body that handles each message in a turn of its own, and keeps nothing of it for the next one. -/
structure Singly (good : Nat → Prop) (body : Body) (ref : PubRef) (message : ZenohId → CdrPayload → List Received)
    (holds : Burst → Prop) : Prop where
  nothing : ∀ {world : World} {burst : Burst}, holds burst → (world.statics ref).pending = [] →
    burst.buffers.Sized ∧ body true burst world = (.ok (false, burst), world)
  single : ∀ {world : World} {burst : Burst} {payload : CdrPayload} {rest : List CdrPayload}, holds burst →
    (world.statics ref).pending = payload :: rest → ∃ next middle written, holds next ∧
      body true burst world = (.ok (true, next), middle) ∧ middle.statics = (world.drained ref payload).statics ∧
      world.Writes good world.node.sn middle written (message world.node.gid payload) (world.pushes ref payload) ∧
      middle.node.sn = world.node.sn + UInt64.ofNat written.length

theorem Singly.completes {good : Nat → Prop} {body : Body} {message : ZenohId → CdrPayload → List Received}
    {holds : Burst → Prop} (singly : Singly good body ref message holds) (i : Nat) (world : World)
    {waiting : List CdrPayload} {burst : Burst} (pending : (world.statics ref).pending = waiting)
    (ready : holds burst) : Completes good body ref world.node.sn world i burst (waiting.flatMap (message world.node.gid))
      (waiting.flatMap (world.pushes ref)) := by
  induction waiting generalizing world burst with
  | nil =>
    obtain ⟨sized, ran⟩ := singly.nothing ready pending
    exact .last ran sized pending rfl (.refl world) (UInt64.add_zero _).symm
  | cons payload rest ih =>
    obtain ⟨next, middle, written, again, ran, statics, writes, count⟩ := singly.single ready pending
    have left : (middle.statics ref).pending = rest := by
      rw [statics]
      exact World.drained_pending pending
    have same : middle.pushes ref = world.pushes ref := by
      funext other
      rw [← world.drained_pushes ref payload other, World.pushes, World.pushes, statics, writes.node]
      rfl
    have gid : middle.node.gid = world.node.gid := by rw [writes.node]
    have completes := ih middle left again
    rw [same, gid] at completes
    exact Completes.turn ran statics writes completes count

theorem Singly.session {good : Nat → Prop} {body : Body} {holds : Burst → Prop}
    (singly : Singly good body ref (fun _ _ => []) holds) (world : World) (i : Nat) {burst : Burst}
    (ready : holds burst) :
    Completes good body ref world.node.sn world i burst [] ((world.statics ref).pending.flatMap (world.pushes ref)) := by
  have completes := singly.completes i world rfl ready
  rwa [List.flatMap_eq_nil_iff.mpr fun _ _ => rfl] at completes

theorem Sdk.singly_local : Singly (0 < ·) Sdk.drainBody ref (fun _ _ => []) (LocalBurst ref) where
  nothing ready empty := ⟨ready.sized, drainBody_local_nil ready empty true⟩
  single {world} {_} {payload} {_} ready waiting := by
    obtain ⟨next, again, ran⟩ := drainBody_local_cons ready waiting true
    exact ⟨next, _, [], again, ran, rfl, .drained world ref payload, (UInt64.add_zero _).symm⟩

theorem Sdk.drainsBursts : DrainsBursts (0 < ·) Sdk.drainBody := by
  intro world ref i buffers sized
  unfold Publisher.outgoing
  cases key : (world.statics ref).networkKey with
  | none => exact Sdk.singly_local.session world i (LocalBurst.start ref sized)
  | some ke =>
    have completes := Sdk.drainBody_completes i _ rfl (Ready.start world.node ref ke sized)
    simpa [nextSn] using completes

/-- A burst of the plain drain: only the sizes of the buffers matter. -/
structure Ros2.Ready (ref : PubRef) (key : Option (HeaplessString maxKeyExprLen)) (burst : Burst) : Prop where
  drain : burst.drain = ref
  key : burst.ke = key
  sized : burst.buffers.Sized

namespace Ros2
variable {world : World} {burst : Burst} {key : Option (HeaplessString maxKeyExprLen)} {payload : CdrPayload}
  {rest : List CdrPayload}

theorem drainBody_nil (ready : Ready ref key burst) (empty : (world.statics ref).pending = []) (written : Bool) :
    Ros2.drainBody written burst world = (.ok (false, burst), world) := by
  obtain rfl := ready.drain
  rw [Ros2.drainBody, drainMessage_nil ready.sized.1 empty]
  rfl

theorem drainBody_network (ready : Ready ref (some ke) burst)
    (waiting : (world.statics ref).pending = payload :: rest) :
    ∃ next, Ready ref (some ke) next ∧
      (batchFrame world.node.sn ke.text world.node.gid [payload]).length ≤ txFrameBuf ∧
      Ros2.drainBody true burst world = (.ok (true, next), (world.drained ref payload).countSn.note
        [.wrote ref (batchFrame world.node.sn ke.text world.node.gid [payload])]) := by
  obtain rfl := ready.drain
  have small : payload.data.length ≤ cdrDrainBuf :=
    Publisher.pending_data_length_le (waiting ▸ List.mem_cons_self ..)
  obtain ⟨header, headed, front, begun⟩ :=
    beginFrame_run (world.drained burst.drain payload) (Burst.copied_sized ready.sized payload).2
  let begunBurst : Burst := { burst.copied payload with
    frameBuf := header
    pos := (frameHeaderBytes world.node.sn true).length }
  have taken : begunBurst.payload payload.drained = payload := Burst.copied_payload ready.sized.1 small
  have room : begunBurst.pos + (publicationBytes ke.text payload.data payload.seqNum payload.timestampNs
      world.node.gid).length ≤ txFrameBuf := by
    have size := frameHeaderBytes_length_le world.node.sn true
    have estimate := publicationBytes_length_le ke small world.node.gid
    have keySize : ke.text.utf8ByteSize ≤ 256 := ke.fits
    have dataSize : payload.data.length ≤ 512 := small
    simp only [Sdk.msgEst] at estimate
    simp only [begunBurst, txFrameBuf]
    omega
  obtain ⟨frameBuf, pos, length, inside, bytes, appended⟩ :=
    appendPublication_run (world.drained burst.drain payload).countSn ke
      (show begunBurst.frameBuf.length = txFrameBuf from headed) small room
  have frame : frameBuf.take pos = batchFrame world.node.sn ke.text world.node.gid [payload] := by
    rw [← List.nil_append [payload], batchFrame_append, batchFrame_nil]
    exact bytes.trans (congrArg (· ++ _) front)
  have short : (frameBuf.take pos).length ≤ txFrameBuf := by
    rw [List.length_take]
    omega
  let next : Burst := { begunBurst with frameBuf := frameBuf, pos := pos }
  have sliced : (sliceRange next.frameBuf 0 next.pos : Outcome Error Bytes) = .ok (frameBuf.take pos) :=
    sliceRange_frame length inside
  have sent : sendSingle true ke payload.drained (burst.copied payload) (world.drained burst.drain payload) =
      (.ok next, (world.drained burst.drain payload).countSn.note [.wrote burst.drain (frameBuf.take pos)]) := by
    unfold sendSingle
    rw [Action.bind_of_ok begun]
    change (appendPublication ke (begunBurst.payload payload.drained) begunBurst >>= _) _ = _
    rw [taken, Action.bind_of_ok appended]
    change (Action.lift (sliceRange next.frameBuf 0 next.pos) >>= _) _ = _
    rw [sliced, Action.bind_of_ok (Action.lift_run _ _), Action.bind_of_ok (writeFrameFor_run short true .single)]
    rfl
  refine ⟨next, ⟨rfl, ready.key, (Burst.copied_sized ready.sized payload).1, length⟩, frame ▸ short, ?_⟩
  -- The body is the shared one, with a frame of its own for the message.
  rw [Ros2.drainBody, drainMessage_cons ready.sized.1 waiting, ready.key]
  simp only
  rw [Action.bind_of_ok sent, frame]
  rfl

theorem singly_local : Singly (· = 1) Ros2.drainBody ref (fun _ _ => []) (Ready ref none) where
  nothing ready empty := ⟨ready.sized, drainBody_nil ready empty true⟩
  single {world} {burst} {payload} {_} ready waiting := by
    obtain rfl := ready.drain
    refine ⟨burst.copied payload, _, [], ⟨rfl, ready.key, Burst.copied_sized ready.sized payload⟩, ?_, rfl,
      .drained world burst.drain payload, (UInt64.add_zero _).symm⟩
    rw [Ros2.drainBody, drainMessage_cons ready.sized.1 waiting, ready.key]
    rfl

theorem singly_network : Singly (· = 1) Ros2.drainBody ref
    (fun gid payload => [payload.received ke.text gid]) (Ready ref (some ke)) where
  nothing ready empty := ⟨ready.sized, drainBody_nil ready empty true⟩
  single {world} {_} {payload} {_} ready waiting := by
    obtain ⟨next, again, short, ran⟩ := drainBody_network ready waiting
    have pushed : world.Writes (· = 1) world.node.sn (world.drained ref payload).countSn [] [] _ :=
      .countSn (.drained world ref payload)
    have writes := pushed.trans (.batch _ ref short rfl) (UInt64.add_zero _).symm
    rw [List.append_nil] at writes
    exact ⟨next, _, _, again, ran, rfl, writes, rfl⟩

theorem drainsBursts : DrainsBursts (· = 1) Ros2.drainBody := by
  intro world ref i buffers sized
  unfold Publisher.outgoing
  cases key : (world.statics ref).networkKey with
  | none => exact singly_local.session world i ⟨rfl, rfl, sized⟩
  | some ke =>
    have ready : Ready ref (some ke) (.start ref (some ke) buffers) := ⟨rfl, rfl, sized⟩
    have completes := singly_network.completes i world rfl ready
    rw [← List.map_eq_flatMap] at completes
    simpa using completes

end Ros2
end Bursts
end ZenohRos2
