import ZenohRos2.Sdk.Drain
import ZenohRos2.Ros2.Publication

/-! What one turn of the batching drain does.

The frame buffer holds a header and the messages in flight. The size estimate
is never below the size of the encoded message, so no encoder ever runs out of
room, and a turn ends in one of the few ways of `Turned`.
-/

set_option autoImplicit false

namespace ZenohRos2
open Rust

/-- The estimate is 22 bytes above what a message can need. -/
theorem publicationBytes_length_le (ke : HeaplessString maxKeyExprLen) {payload : CdrPayload}
    (fits : payload.data.length ≤ cdrDrainBuf) (gid : ZenohId) :
    (publicationBytes ke.text payload.data payload.seqNum payload.timestampNs gid).length + 22 ≤
      Sdk.msgEst ke payload.data.length := by
  have key := lengthPrefixed_length_le (utf8 ke.text) (by
    have bound : ke.text.utf8ByteSize ≤ 256 := ke.fits
    rw [utf8_length]
    omega)
  have data := lengthPrefixed_length_le payload.data (by
    have bound : payload.data.length ≤ 512 := fits
    omega)
  have scope : (vbyte 0).length = 1 := by decide +kernel
  have declared : (vbyte (UInt64.ofNat attachmentLen)).length = 1 := by decide +kernel
  rw [utf8_length] at key
  simp only [publicationBytes, Sdk.msgEst, List.length_append, List.length_singleton, attachment_length,
    scope, declared]
  unfold attachmentLen
  omega

namespace World
variable (world : World) (ref : PubRef)

def pushes (payload : CdrPayload) : List Event :=
  if (world.statics ref).locality ≠ .remote then
    (localEntries world.node.subscribers (world.statics ref).topic).map (.pushed ref payload)
  else []

def drained (payload : CdrPayload) : World :=
  (world.setPublisher ref (world.statics ref).taken).note (world.pushes ref payload)

def countSn : World := { world with node := { world.node with sn := world.node.sn + 1 } }

def stashed (payload : CdrPayload) : World :=
  (world.setPublisher ref
      ((world.statics ref).stashRetry payload.data payload.seqNum payload.timestampNs)).note
    [.stashed ref payload (world.statics ref).retrySlot.isSome]

theorem note_nil : world.note [] = world := by simp [note]

end World

section Pieces
variable {ref : PubRef} {world : World}

theorem tryDrain_nil {outBuf : Bytes} (length : outBuf.length = cdrDrainBuf)
    (empty : (world.statics ref).pending = []) : tryDrain ref outBuf world = (.ok (none, outBuf), world) := by
  unfold tryDrain
  rw [Publisher.tryDrainInto_eq _ length, empty]
  simp [World.setPublisher]

theorem tryDrain_cons {outBuf : Bytes} {payload : CdrPayload} {rest : List CdrPayload}
    (length : outBuf.length = cdrDrainBuf) (waiting : (world.statics ref).pending = payload :: rest) :
    tryDrain ref outBuf world =
      (.ok (some ⟨payload.data.length, payload.seqNum, payload.timestampNs⟩, Publisher.copyInto outBuf payload.data),
        world.setPublisher ref (world.statics ref).taken) := by
  unfold tryDrain
  rw [Publisher.tryDrainInto_eq _ length, waiting]

def Burst.copied (burst : Burst) (payload : CdrPayload) : Burst :=
  { burst with cdrScratch := Publisher.copyInto burst.cdrScratch payload.data }

def CdrPayload.drained (payload : CdrPayload) : Publisher.Drained :=
  ⟨payload.data.length, payload.seqNum, payload.timestampNs⟩

theorem Burst.copied_payload {burst : Burst} {payload : CdrPayload} (length : burst.cdrScratch.length = cdrDrainBuf)
    (fits : payload.data.length ≤ cdrDrainBuf) : (burst.copied payload).payload payload.drained = payload := by
  have copied := Publisher.take_copyInto burst.cdrScratch payload.data
  rw [length, Nat.min_eq_left fits, List.take_of_length_le fits] at copied
  rw [Burst.payload, Burst.copied, CdrPayload.drained, copied]

theorem dispatchLocalFor_taken (payload : CdrPayload) :
    dispatchLocalFor ref payload (world.setPublisher ref (world.statics ref).taken) =
      (.ok (), world.drained ref payload) := by
  simp only [dispatchLocalFor, Action.modify_run, World.drained, World.pushes, World.setPublisher,
    Function.update_self, Publisher.taken_locality, Publisher.taken_topic, dispatchLocal, List.map_map]
  by_cases remote : (world.statics ref).locality = .remote
  · simp [remote, World.note_nil]
  · simp only [remote, ne_eq, not_false_eq_true, if_true]
    rfl

section Message
variable {send : HeaplessString maxKeyExprLen → Publisher.Drained → Burst → Drain Burst} {finish : Burst → Drain Unit}
  {burst : Burst} {payload : CdrPayload} {rest : List CdrPayload}

theorem drainMessage_nil (length : burst.cdrScratch.length = cdrDrainBuf)
    (empty : (world.statics burst.drain).pending = []) :
    drainMessage send finish burst world = (finish burst >>= fun _ => pure (false, burst)) world := by
  unfold drainMessage
  rw [Action.bind_of_ok (tryDrain_nil length empty)]

theorem drainMessage_cons (length : burst.cdrScratch.length = cdrDrainBuf)
    (waiting : (world.statics burst.drain).pending = payload :: rest) :
    drainMessage send finish burst world = (match burst.ke with
      | none => pure (true, burst.copied payload)
      | some ke => send ke payload.drained (burst.copied payload) >>= fun burst => pure (true, burst) :
        Drain (Bool × Burst)) (world.drained burst.drain payload) := by
  have small : payload.data.length ≤ cdrDrainBuf :=
    Publisher.pending_data_length_le (waiting ▸ List.mem_cons_self ..)
  unfold drainMessage
  rw [Action.bind_of_ok (tryDrain_cons length waiting)]
  change (dispatchLocalFor burst.drain ((burst.copied payload).payload payload.drained) >>= fun _ =>
    match burst.ke with
    | none => pure (true, burst.copied payload)
    | some ke => send ke payload.drained (burst.copied payload) >>= fun burst => pure (true, burst)) _ = _
  rw [Burst.copied_payload length small, Action.bind_of_ok (dispatchLocalFor_taken payload)]

end Message

theorem sliceRange_frame {burst : Burst} (room : burst.frameBuf.length = txFrameBuf) (inside : burst.pos ≤ txFrameBuf) :
    (sliceRange burst.frameBuf 0 burst.pos : Outcome Error Bytes) = .ok (burst.frameBuf.take burst.pos) := by
  rw [sliceRange, if_pos ⟨Nat.zero_le _, by omega⟩, List.drop_zero]

theorem writeFrameFor_run {frame : Bytes} (short : frame.length ≤ txFrameBuf) (written : Bool) (point : FlushPoint) :
    writeFrameFor written point ref frame world =
      if written then (.ok (), world.note [.wrote ref frame])
      else (.err (.transport .io), world.note [.failed point ref frame]) := by
  unfold writeFrameFor
  rw [writeFrame_eq (Nat.le_trans short (by decide))]
  cases written <;> rfl

theorem writeOrStash_run {burst : Burst} (room : burst.frameBuf.length = txFrameBuf)
    (inside : burst.pos ≤ txFrameBuf) (written : Bool) (point : FlushPoint) (payload : CdrPayload) :
    Sdk.writeOrStash written point burst payload world =
      if written then (.ok (), world.note [.wrote burst.drain (burst.frameBuf.take burst.pos)])
      else (.err (.transport .io),
        (world.note [.failed point burst.drain (burst.frameBuf.take burst.pos)]).stashed burst.drain payload) := by
  have short : (burst.frameBuf.take burst.pos).length ≤ txFrameBuf := by
    rw [List.length_take]
    omega
  unfold Sdk.writeOrStash
  rw [sliceRange_frame room inside, Action.bind_of_ok (Action.lift_run _ _)]
  unfold Action.onError
  rw [writeFrameFor_run short]
  cases written <;> rfl

variable [Target]

theorem beginFrame_run (world : World) {burst : Burst} (room : burst.frameBuf.length = txFrameBuf) :
    ∃ frameBuf, frameBuf.length = txFrameBuf ∧
      frameBuf.take (frameHeaderBytes world.node.sn true).length = frameHeaderBytes world.node.sn true ∧
      beginFrame burst world =
        (.ok { burst with frameBuf := frameBuf, pos := (frameHeaderBytes world.node.sn true).length },
          world.countSn) := by
  have small := frameHeaderBytes_length_le world.node.sn true
  have size : txFrameBuf = 1024 := rfl
  have addressable : Addressable burst.frameBuf := le_isizeMax (by omega)
  have encoded := (encodes_encodeFrameHeader world.node.sn true).eq_ok addressable (by omega)
  refine ⟨frameHeaderBytes world.node.sn true ++ burst.frameBuf.drop (frameHeaderBytes world.node.sn true).length,
    ?_, List.take_left, ?_⟩
  · rw [List.length_append, List.length_drop]
    omega
  · unfold beginFrame
    rw [Action.bind_of_ok (Action.get_run _), encoded]
    rfl

theorem appendPublication_run (world : World) {burst : Burst} (ke : HeaplessString maxKeyExprLen)
    {payload : CdrPayload}
    (room : burst.frameBuf.length = txFrameBuf) (small : payload.data.length ≤ cdrDrainBuf)
    (fits : burst.pos + (publicationBytes ke.text payload.data payload.seqNum payload.timestampNs
      world.node.gid).length ≤ txFrameBuf) :
    ∃ frameBuf pos, frameBuf.length = txFrameBuf ∧ pos ≤ txFrameBuf ∧
      frameBuf.take pos = burst.frameBuf.take burst.pos ++
        publicationBytes ke.text payload.data payload.seqNum payload.timestampNs world.node.gid ∧
      appendPublication ke payload burst world = (.ok { burst with frameBuf := frameBuf, pos := pos }, world) := by
  have size : txFrameBuf = 1024 := rfl
  have keySize : ke.text.utf8ByteSize ≤ 256 := ke.fits
  have dataSize : payload.data.length ≤ 512 := small
  have valid : Cursor.Valid ⟨burst.frameBuf, burst.pos⟩ :=
    ⟨by simp only; omega, le_isizeMax (by simp only; omega)⟩
  have called := puts_call (encodes_encodePushPutWithAttachment payload.seqNum payload.timestampNs world.node.gid
    (le_isizeMax (by rw [utf8_length]; omega) : Addressable (utf8 ke.text))
    (le_isizeMax (by omega) : Addressable payload.data)) ⟨burst.frameBuf, burst.pos⟩ valid
  rw [if_pos (by simp only; omega)] at called
  let after := (Cursor.mk burst.frameBuf burst.pos).written
    (publicationBytes ke.text payload.data payload.seqNum payload.timestampNs world.node.gid)
  refine ⟨after.buf, after.pos, ?_, fits, ?_, ?_⟩
  · rw [Cursor.written_length (by simp only; omega)]
    exact room
  · rw [Cursor.written_pos, Cursor.take_written (by simp only; omega)]
  · unfold appendPublication
    rw [Action.bind_of_ok (Action.get_run _)]
    simp only [called]
    rfl

end Pieces

def Buffers.Sized (buffers : Buffers) : Prop :=
  buffers.cdrScratch.length = cdrDrainBuf ∧ buffers.frameBuf.length = txFrameBuf

theorem Buffers.zeroed_sized : Buffers.zeroed.Sized := ⟨List.length_replicate, List.length_replicate⟩

theorem Burst.copied_sized {burst : Burst} (sized : burst.buffers.Sized) (payload : CdrPayload) :
    (burst.copied payload).buffers.Sized :=
  ⟨(Publisher.copyInto_length _ _).trans sized.1, sized.2⟩

namespace Sdk

/-- The frame of the messages in flight; its number was counted when it was begun. -/
def flightFrame (node : Node) (ke : HeaplessString maxKeyExprLen) (flight : List CdrPayload) : Bytes :=
  batchFrame (node.sn - 1) ke.text node.gid flight

/-- A burst for the network, with the messages in flight in its frame buffer. -/
structure Batched (node : Node) (ref : PubRef) (ke : HeaplessString maxKeyExprLen) (burst : Burst)
    (flight : List CdrPayload) : Prop where
  drain : burst.drain = ref
  key : burst.ke = some ke
  sized : burst.buffers.Sized
  started : burst.batchStarted = !flight.isEmpty
  inside : flight ≠ [] → burst.pos ≤ txFrameBuf
  batch : flight ≠ [] → burst.frameBuf.take burst.pos = flightFrame node ke flight

theorem Batched.frame_length_le {node : Node} {ref : PubRef} {ke : HeaplessString maxKeyExprLen} {burst : Burst}
    {flight : List CdrPayload} (batched : Batched node ref ke burst flight) (flying : flight ≠ []) :
    (flightFrame node ke flight).length ≤ txFrameBuf := by
  rw [← batched.batch flying, List.length_take]
  exact Nat.le_trans (Nat.min_le_left _ _) (batched.inside flying)

/-- At the head of the loop the last message in flight is remembered. -/
structure Ready (node : Node) (ref : PubRef) (ke : HeaplessString maxKeyExprLen) (burst : Burst)
    (flight : List CdrPayload) : Prop extends Batched node ref ke burst flight where
  last : ∀ payload ∈ flight.getLast?, burst.lastPayload = payload

theorem Ready.start (node : Node) (ref : PubRef) (ke : HeaplessString maxKeyExprLen) {buffers : Buffers}
    (sized : buffers.Sized) : Ready node ref ke (.start ref (some ke) buffers) [] where
  drain := rfl
  key := rfl
  sized := sized
  started := rfl
  inside := by simp
  batch := by simp
  last := by simp

section Append
variable [Target] {world : World} {ref : PubRef} {ke : HeaplessString maxKeyExprLen} {burst : Burst}
  {flight : List CdrPayload} {drained : Publisher.Drained} {payload : CdrPayload}

theorem appendMessage_begun (batched : Batched world.node ref ke burst flight) (flying : flight ≠ [])
    (taken : burst.payload drained = payload) (size : payload.data.length = drained.n)
    (small : payload.data.length ≤ cdrDrainBuf) (fits : burst.pos + msgEst ke drained.n ≤ txFrameBuf) :
    ∃ next, Ready world.node ref ke next (flight ++ [payload]) ∧
      appendMessage ke drained burst world = (.ok next, world) := by
  have started : burst.batchStarted = true := by
    rw [batched.started, List.isEmpty_eq_false_iff.mpr flying]
    rfl
  have estimate := publicationBytes_length_le ke small world.node.gid
  rw [size] at estimate
  obtain ⟨frameBuf, pos, room, inside, bytes, ran⟩ :=
    appendPublication_run world ke batched.sized.2 small (by omega)
  subst taken
  let next : Burst := { burst with
    frameBuf := frameBuf
    pos := pos
    lastN := drained.n
    lastSeq := drained.seqNum
    lastTs := drained.timestampNs }
  refine ⟨next, ?_, ?_⟩
  · exact {
      drain := batched.drain
      key := batched.key
      sized := ⟨batched.sized.1, room⟩
      started := by simp [next, started]
      inside := fun _ => inside
      batch := fun _ => by
        simp only [next, bytes, batched.batch flying, flightFrame, batchFrame_append]
      last := by simp [next, Burst.lastPayload, Burst.payload] }
  · unfold appendMessage beginBatch
    rw [if_pos started, Action.bind_of_ok (Action.pure_run _ _), Action.bind_of_ok ran]
    rfl

theorem appendMessage_first (drain : burst.drain = ref) (key : burst.ke = some ke) (sized : burst.buffers.Sized)
    (idle : burst.batchStarted = false) (taken : burst.payload drained = payload)
    (small : payload.data.length ≤ cdrDrainBuf) :
    ∃ next, Ready world.countSn.node ref ke next [payload] ∧
      appendMessage ke drained burst world = (.ok next, world.countSn) := by
  obtain ⟨header, headed, written, begun⟩ := beginFrame_run world sized.2
  have size := frameHeaderBytes_length_le world.node.sn true
  -- Without a batch the frame is empty, so a message of 512 bytes always has room.
  have estimate := publicationBytes_length_le ke small world.node.gid
  have bound : msgEst ke payload.data.length ≤ 832 := by
    have keySize : ke.text.utf8ByteSize ≤ 256 := ke.fits
    have dataSize : payload.data.length ≤ 512 := small
    unfold msgEst
    omega
  let begunBurst : Burst := { burst with
    frameBuf := header
    pos := (frameHeaderBytes world.node.sn true).length
    batchStarted := true }
  have room : begunBurst.pos + (publicationBytes ke.text payload.data payload.seqNum payload.timestampNs
      world.countSn.node.gid).length ≤ txFrameBuf := by
    simp only [begunBurst, World.countSn, txFrameBuf]
    omega
  obtain ⟨frameBuf, pos, length, inside, bytes, ran⟩ := appendPublication_run world.countSn ke headed small room
  subst taken
  let next : Burst := { begunBurst with
    frameBuf := frameBuf
    pos := pos
    lastN := drained.n
    lastSeq := drained.seqNum
    lastTs := drained.timestampNs }
  refine ⟨next, ?_, ?_⟩
  · exact {
      drain := drain
      key := key
      sized := ⟨sized.1, length⟩
      started := rfl
      inside := fun _ => inside
      batch := fun _ => by
        have number : world.countSn.node.sn - 1 = world.node.sn := UInt64.add_sub_cancel _ _
        rw [flightFrame, number, ← List.nil_append [burst.payload drained], batchFrame_append, batchFrame_nil]
        exact bytes.trans (congrArg (· ++ _) written)
      last := by simp [next, Burst.lastPayload, Burst.payload, begunBurst] }
  · have began : beginBatch burst world = (.ok begunBurst, world.countSn) := by
      unfold beginBatch
      rw [if_neg (by rw [idle]; decide), Action.bind_of_ok begun]
      rfl
    unfold appendMessage
    rw [Action.bind_of_ok began]
    exact Action.bind_of_ok ran

omit [Target] in
theorem writeOrStash_batched (batched : Batched world.node ref ke burst flight) (flying : flight ≠ [])
    (written : Bool) (point : FlushPoint) (payload : CdrPayload) :
    writeOrStash written point burst payload world =
      if written then (.ok (), world.note [.wrote ref (flightFrame world.node ke flight)])
      else (.err (.transport .io),
        (world.note [.failed point ref (flightFrame world.node ke flight)]).stashed ref payload) := by
  rw [writeOrStash_run batched.sized.2 (batched.inside flying), batched.batch flying, batched.drain]

omit [Target] in
theorem flushIfFull_keeps (written : Bool)
    (fits : ¬(burst.batchStarted ∧ burst.pos + msgEst ke drained.n > txFrameBuf)) :
    flushIfFull written ke drained burst world = (.ok burst, world) := by
  rw [flushIfFull, if_neg fits]
  rfl

omit [Target] in
theorem flushIfFull_writes (batched : Batched world.node ref ke burst flight) (flying : flight ≠ [])
    (taken : burst.payload drained = payload) (full : burst.pos + msgEst ke drained.n > txFrameBuf) (written : Bool) :
    flushIfFull written ke drained burst world =
      if written then (.ok { burst with pos := 0, batchStarted := false },
        world.note [.wrote ref (flightFrame world.node ke flight)])
      else (.err (.transport .io),
        (world.note [.failed .full ref (flightFrame world.node ke flight)]).stashed ref payload) := by
  have begun : burst.batchStarted = true := by simp [batched.started, flying]
  have run := writeOrStash_batched batched flying written .full payload
  rw [flushIfFull, if_pos ⟨begun, full⟩, taken]
  cases written with
  | true =>
    rw [Action.bind_of_ok run]
    rfl
  | false => exact Action.bind_of_err run

end Append

/-- How a turn of the inner loop ends, for a publisher of the network. -/
inductive Turned [Target] (world : World) (ref : PubRef) (ke : HeaplessString maxKeyExprLen)
    (flight : List CdrPayload) : Bool → Outcome Error (Bool × Burst) × World → Prop where
  | nothing {written : Bool} {burst : Burst} (empty : (world.statics ref).pending = []) (idle : flight = [])
      (sized : burst.buffers.Sized) :
      Turned world ref ke flight written (.ok (false, burst), world)
  | finished {burst : Burst} (empty : (world.statics ref).pending = []) (flying : flight ≠ [])
      (sized : burst.buffers.Sized) :
      Turned world ref ke flight true
        (.ok (false, burst), world.note [.wrote ref (flightFrame world.node ke flight)])
  | finishFailed {init : List CdrPayload} {last : CdrPayload} (empty : (world.statics ref).pending = [])
      (flying : flight = init ++ [last]) (small : last.data.length ≤ cdrDrainBuf) :
      Turned world ref ke flight false
        (.err (.transport .io),
          (world.note [.failed .drained ref (flightFrame world.node ke flight)]).stashed ref last)
  | started {written : Bool} {payload : CdrPayload} {rest : List CdrPayload} {burst : Burst}
      (waiting : (world.statics ref).pending = payload :: rest) (idle : flight = [])
      (ready : Ready (world.drained ref payload).countSn.node ref ke burst [payload]) :
      Turned world ref ke flight written (.ok (true, burst), (world.drained ref payload).countSn)
  | appended {written : Bool} {payload : CdrPayload} {rest : List CdrPayload} {burst : Burst}
      (waiting : (world.statics ref).pending = payload :: rest) (flying : flight ≠ [])
      (ready : Ready (world.drained ref payload).node ref ke burst (flight ++ [payload])) :
      Turned world ref ke flight written (.ok (true, burst), world.drained ref payload)
  | flushed {payload : CdrPayload} {rest : List CdrPayload} {burst : Burst}
      (waiting : (world.statics ref).pending = payload :: rest) (flying : flight ≠ [])
      (ready : Ready (world.drained ref payload).countSn.node ref ke burst [payload]) :
      Turned world ref ke flight true (.ok (true, burst),
        ((world.drained ref payload).note [.wrote ref (flightFrame world.node ke flight)]).countSn)
  | flushFailed {payload : CdrPayload} {rest : List CdrPayload}
      (waiting : (world.statics ref).pending = payload :: rest) (flying : flight ≠ []) :
      Turned world ref ke flight false
        (.err (.transport .io),
          ((world.drained ref payload).note [.failed .full ref (flightFrame world.node ke flight)]).stashed ref payload)

section Turn
variable [Target] {world : World} {ref : PubRef} {ke : HeaplessString maxKeyExprLen} {burst : Burst}
  {flight : List CdrPayload}

theorem drainBody_sends {payload : CdrPayload} {rest : List CdrPayload} (ready : Ready world.node ref ke burst flight)
    (waiting : (world.statics ref).pending = payload :: rest) (written : Bool) :
    payload.data.length ≤ cdrDrainBuf ∧ (burst.copied payload).payload payload.drained = payload ∧
      Batched (world.drained ref payload).node ref ke (burst.copied payload) flight ∧
      drainBody written burst world =
        ((flushIfFull written ke payload.drained (burst.copied payload) >>= fun burst =>
          appendMessage ke payload.drained burst) >>= fun burst => pure (true, burst)) (world.drained ref payload) := by
  have length : burst.cdrScratch.length = cdrDrainBuf := ready.sized.1
  obtain rfl := ready.drain
  have small : payload.data.length ≤ cdrDrainBuf :=
    Publisher.pending_data_length_le (waiting ▸ List.mem_cons_self ..)
  refine ⟨small, Burst.copied_payload length small, ?_, ?_⟩
  · exact { ready.toBatched with sized := Burst.copied_sized ready.sized payload }
  · unfold drainBody
    rw [drainMessage_cons length waiting, ready.key]
    rfl

theorem drainBody_first {payload : CdrPayload} {rest : List CdrPayload} (ready : Ready world.node ref ke burst [])
    (waiting : (world.statics ref).pending = payload :: rest) (written : Bool) :
    ∃ next, Ready (world.drained ref payload).countSn.node ref ke next [payload] ∧
      drainBody written burst world = (.ok (true, next), (world.drained ref payload).countSn) := by
  obtain ⟨small, taken, batched, body⟩ := drainBody_sends ready waiting written
  have idle : (burst.copied payload).batchStarted = false := batched.started
  obtain ⟨next, ready, ran⟩ := appendMessage_first batched.drain batched.key batched.sized idle taken small
  refine ⟨next, ready, ?_⟩
  rw [body, Action.bind_of_ok ((Action.bind_of_ok (flushIfFull_keeps written (by simp [idle]))).trans ran)]
  rfl

theorem drainBody_behind {payload : CdrPayload} {rest : List CdrPayload} (ready : Ready world.node ref ke burst flight)
    (waiting : (world.statics ref).pending = payload :: rest) (flying : flight ≠ [])
    (fits : burst.pos + msgEst ke payload.data.length ≤ txFrameBuf) (written : Bool) :
    ∃ next, Ready (world.drained ref payload).node ref ke next (flight ++ [payload]) ∧
      drainBody written burst world = (.ok (true, next), world.drained ref payload) := by
  obtain ⟨small, taken, batched, body⟩ := drainBody_sends ready waiting written
  obtain ⟨next, ready, ran⟩ := appendMessage_begun batched flying taken rfl small fits
  refine ⟨next, ready, ?_⟩
  rw [body, Action.bind_of_ok ((Action.bind_of_ok
    (flushIfFull_keeps written fun both => absurd both.2 (Nat.not_lt.mpr fits))).trans ran)]
  rfl

theorem drainBody_flushed {payload : CdrPayload} {rest : List CdrPayload} (ready : Ready world.node ref ke burst flight)
    (waiting : (world.statics ref).pending = payload :: rest) (flying : flight ≠ [])
    (full : burst.pos + msgEst ke payload.data.length > txFrameBuf) :
    ∃ next, Ready (world.drained ref payload).countSn.node ref ke next [payload] ∧
      drainBody true burst world = (.ok (true, next),
        ((world.drained ref payload).note [.wrote ref (flightFrame world.node ke flight)]).countSn) := by
  obtain ⟨small, taken, batched, body⟩ := drainBody_sends ready waiting true
  let cleared : Burst := { burst.copied payload with pos := 0, batchStarted := false }
  obtain ⟨next, ready, ran⟩ := @appendMessage_first _
    ((world.drained ref payload).note [.wrote ref (flightFrame world.node ke flight)]) ref ke cleared _ _
    batched.drain batched.key batched.sized rfl taken small
  refine ⟨next, ready, ?_⟩
  rw [body, Action.bind_of_ok ((Action.bind_of_ok (flushIfFull_writes batched flying taken full true)).trans ran)]
  rfl

theorem drainBody_refused {payload : CdrPayload} {rest : List CdrPayload} (ready : Ready world.node ref ke burst flight)
    (waiting : (world.statics ref).pending = payload :: rest) (flying : flight ≠ [])
    (full : burst.pos + msgEst ke payload.data.length > txFrameBuf) :
    drainBody false burst world = (.err (.transport .io),
      ((world.drained ref payload).note [.failed .full ref (flightFrame world.node ke flight)]).stashed ref payload) := by
  obtain ⟨small, taken, batched, body⟩ := drainBody_sends ready waiting false
  have run := flushIfFull_writes batched flying taken full false
  rw [body, Action.bind_of_err (Action.bind_of_err run)]
  rfl

theorem drainBody_ends (ready : Ready world.node ref ke burst flight) (empty : (world.statics ref).pending = [])
    (written : Bool) :
    drainBody written burst world = (finishBatch written burst >>= fun _ => pure (false, burst)) world := by
  obtain rfl := ready.drain
  exact drainMessage_nil ready.sized.1 empty

theorem drainBody_nothing (ready : Ready world.node ref ke burst []) (empty : (world.statics ref).pending = [])
    (written : Bool) : drainBody written burst world = (.ok (false, burst), world) := by
  have idle : burst.batchStarted = false := ready.started
  rw [drainBody_ends ready empty, finishBatch, if_neg (by simp [idle]), Action.bind_of_ok (Action.pure_run _ _)]
  rfl

theorem drainBody_finished (ready : Ready world.node ref ke burst flight) (empty : (world.statics ref).pending = [])
    (flying : flight ≠ []) :
    drainBody true burst world =
      (.ok (false, burst), world.note [.wrote ref (flightFrame world.node ke flight)]) := by
  have run := writeOrStash_batched ready.toBatched flying true .drained burst.lastPayload
  rw [drainBody_ends ready empty, finishBatch, if_pos (by simp [ready.started, flying]), Action.bind_of_ok run]
  rfl

theorem drainBody_finishFailed (ready : Ready world.node ref ke burst flight)
    (empty : (world.statics ref).pending = []) {last : CdrPayload} (flying : last ∈ flight.getLast?) :
    drainBody false burst world = (.err (.transport .io),
      (world.note [.failed .drained ref (flightFrame world.node ke flight)]).stashed ref last) ∧
        last.data.length ≤ cdrDrainBuf := by
  have length : burst.cdrScratch.length = cdrDrainBuf := ready.sized.1
  have nonempty : flight ≠ [] := by
    rintro rfl
    cases flying
  have same := ready.last last flying
  have run := writeOrStash_batched ready.toBatched nonempty false .drained burst.lastPayload
  rw [drainBody_ends ready empty, finishBatch, if_pos (by simp [ready.started, nonempty]), Action.bind_of_err run, same]
  refine ⟨rfl, ?_⟩
  rw [← same, Burst.lastPayload, Burst.payload, List.length_take, length]
  exact Nat.min_le_right _ _

theorem drainBody_turned (ready : Ready world.node ref ke burst flight) (written : Bool) :
    Turned world ref ke flight written (drainBody written burst world) := by
  cases waiting : (world.statics ref).pending with
  | nil =>
    by_cases flying : flight = []
    · subst flying
      rw [drainBody_nothing ready waiting]
      exact .nothing waiting rfl ready.sized
    cases written with
    | true =>
      rw [drainBody_finished ready waiting flying]
      exact .finished waiting flying ready.sized
    | false =>
      obtain ⟨ran, small⟩ := drainBody_finishFailed ready waiting (List.getLast?_eq_some_getLast flying)
      rw [ran]
      exact .finishFailed waiting (List.dropLast_concat_getLast flying).symm small
  | cons payload rest =>
    by_cases flying : flight = []
    · subst flying
      obtain ⟨next, again, ran⟩ := drainBody_first ready waiting written
      rw [ran]
      exact .started waiting rfl again
    by_cases full : burst.pos + msgEst ke payload.data.length > txFrameBuf
    · cases written with
      | true =>
        obtain ⟨next, again, ran⟩ := drainBody_flushed ready waiting flying full
        rw [ran]
        exact .flushed waiting flying again
      | false =>
        rw [drainBody_refused ready waiting flying full]
        exact .flushFailed waiting flying
    · obtain ⟨next, again, ran⟩ := drainBody_behind ready waiting flying (Nat.le_of_not_gt full) written
      rw [ran]
      exact .appended waiting flying again

end Turn
end Sdk

structure LocalBurst (ref : PubRef) (burst : Burst) : Prop where
  drain : burst.drain = ref
  key : burst.ke = none
  sized : burst.buffers.Sized
  idle : burst.batchStarted = false

theorem LocalBurst.start (ref : PubRef) {buffers : Buffers} (sized : buffers.Sized) :
    LocalBurst ref (.start ref none buffers) := ⟨rfl, rfl, sized, rfl⟩

section LocalTurn
variable [Target] {world : World} {ref : PubRef} {burst : Burst}

theorem Sdk.drainBody_local_nil (ready : LocalBurst ref burst) (empty : (world.statics ref).pending = [])
    (written : Bool) : Sdk.drainBody written burst world = (.ok (false, burst), world) := by
  obtain rfl := ready.drain
  rw [Sdk.drainBody, drainMessage_nil ready.sized.1 empty, Sdk.finishBatch, if_neg (by simp [ready.idle])]
  rfl

theorem Sdk.drainBody_local_cons (ready : LocalBurst ref burst) {payload : CdrPayload} {rest : List CdrPayload}
    (waiting : (world.statics ref).pending = payload :: rest) (written : Bool) :
    ∃ next, LocalBurst ref next ∧
      Sdk.drainBody written burst world = (.ok (true, next), world.drained ref payload) := by
  obtain rfl := ready.drain
  refine ⟨burst.copied payload, ⟨rfl, ready.key, Burst.copied_sized ready.sized payload, ready.idle⟩, ?_⟩
  rw [Sdk.drainBody, drainMessage_cons ready.sized.1 waiting, ready.key]
  rfl

end LocalTurn
end ZenohRos2
