import ZenohRos2.Lib.Outbox
import ZenohRos2.Sdk.DrainStep

/-! The drain machine refines the outbox.

For each publisher, what stands in written frames, in the frame buffer, in the
retry slot and in the channel makes up a box, and every step of the machine is
a step of the box or leaves it alone.
-/

set_option autoImplicit false

namespace ZenohRos2
open Rust

def Event.sentBy (ref : PubRef) : Event → List CdrPayload
  | .sent owner payload => if owner = ref then [payload.clip] else []
  | _ => []

/-- A stash found the slot free. -/
def Event.Unoccupied : Event → Prop
  | .stashed _ _ occupied => occupied = false
  | _ => True

section Events
variable [Target]

def Event.wire (ref : PubRef) : Event → List CdrPayload
  | .wrote owner frame => if owner = ref then publications frame else []
  | _ => []

/-- The messages lost with a frame: all but the one drained last, which at the
end of a burst is the last of the frame, and before that not in the frame yet. -/
def Event.lost (ref : PubRef) : Event → List CdrPayload
  | .failed .drained owner frame => if owner = ref then (publications frame).dropLast else []
  | .failed _ owner frame => if owner = ref then publications frame else []
  | _ => []

def World.box (world : World) (ref : PubRef) (flight : List CdrPayload) : Outbox.Box CdrPayload where
  wire := world.log.flatMap (Event.wire ref)
  batch := flight
  slot := (world.statics ref).retrySlot.map RetryPayload.payload
  queue := (world.statics ref).channel.map CdrPayload.clip
  lost := world.log.flatMap (Event.lost ref)

/-- The messages of a publisher in the frame buffer. -/
def Control.flight (ref : PubRef) : Control → List CdrPayload
  | .inner _ burst =>
    if burst.drain = ref ∧ burst.batchStarted then publications (burst.frameBuf.take burst.pos) else []
  | _ => []

def System.box (system : System) (ref : PubRef) : Outbox.Box CdrPayload :=
  system.world.box ref (system.control.flight ref)

end Events

section Projections
variable (world : World) (ref : PubRef) (publisher : Publisher) (events : List Event) (payload : CdrPayload)

@[simp] theorem World.note_statics : (world.note events).statics = world.statics := rfl
@[simp] theorem World.note_node : (world.note events).node = world.node := rfl
@[simp] theorem World.note_log : (world.note events).log = world.log ++ events := rfl
@[simp] theorem World.setPublisher_statics :
    (world.setPublisher ref publisher).statics = Function.update world.statics ref publisher := rfl
@[simp] theorem World.setPublisher_node : (world.setPublisher ref publisher).node = world.node := rfl
@[simp] theorem World.setPublisher_log : (world.setPublisher ref publisher).log = world.log := rfl
@[simp] theorem World.countSn_statics : world.countSn.statics = world.statics := rfl
@[simp] theorem World.countSn_log : world.countSn.log = world.log := rfl
@[simp] theorem World.countSn_gid : world.countSn.node.gid = world.node.gid := rfl
@[simp] theorem World.drained_statics :
    (world.drained ref payload).statics = Function.update world.statics ref (world.statics ref).taken := rfl
@[simp] theorem World.drained_node : (world.drained ref payload).node = world.node := rfl
@[simp] theorem World.drained_log : (world.drained ref payload).log = world.log ++ world.pushes ref payload := rfl
@[simp] theorem World.stashed_node : (world.stashed ref payload).node = world.node := rfl

variable [Target] (other : PubRef)

@[simp] theorem World.pushes_wire : (world.pushes ref payload).flatMap (Event.wire other) = [] := by
  unfold World.pushes
  split <;> simp [List.flatMap_map, Event.wire]

@[simp] theorem World.pushes_lost : (world.pushes ref payload).flatMap (Event.lost other) = [] := by
  unfold World.pushes
  split <;> simp [List.flatMap_map, Event.lost]

end Projections

theorem Publisher.channel_of_slot {publisher : Publisher} (free : publisher.retrySlot = none) :
    publisher.channel.map CdrPayload.clip = publisher.pending := by
  simp [Publisher.pending, free]

theorem Publisher.taken_channel {publisher : Publisher} {payload : CdrPayload} {rest : List CdrPayload}
    (waiting : publisher.pending = payload :: rest) : publisher.taken.channel.map CdrPayload.clip = rest := by
  rw [channel_of_slot publisher.taken_retrySlot, taken_pending, waiting, List.tail_cons]

theorem Publisher.pending_eq_nil {publisher : Publisher} (empty : publisher.pending = []) :
    publisher.retrySlot = none ∧ publisher.channel = [] := by
  simpa [Publisher.pending] using empty

theorem World.stashed_box [Target] {world : World} {ref : PubRef} {payload : CdrPayload}
    (small : payload.data.length ≤ cdrDrainBuf) (flight : List CdrPayload) :
    (world.stashed ref payload).box ref flight =
      { world.box ref flight with slot := some payload } := by
  have kept : payload.data.take retryCdrCap = payload.data := List.take_of_length_le small
  simp [World.box, World.stashed, Publisher.stashRetry, Event.wire, Event.lost, kept]

section Turns
variable [Target] {world after : World} {ref : PubRef} {ke : HeaplessString maxKeyExprLen}
  {flight : List CdrPayload} {written : Bool} {result : Outcome Error (Bool × Burst)}

theorem Sdk.Batched.publications {burst : Burst} (batched : Batched world.node ref ke burst flight)
    (flying : flight ≠ []) : ZenohRos2.publications (flightFrame world.node ke flight) = flight := by
  apply publications_batchFrame
  exact le_isizeMax (Nat.lt_of_le_of_lt (batched.frame_length_le flying) (by decide))

inductive Sdk.Flies (node : Node) (ref : PubRef) (ke : HeaplessString maxKeyExprLen) :
    Outcome Error (Bool × Burst) → List CdrPayload → Prop where
  | again {burst : Burst} {flight : List CdrPayload} (ready : Ready node ref ke burst flight) :
      Flies node ref ke (.ok (true, burst)) flight
  | ended {burst : Burst} (sized : burst.buffers.Sized) : Flies node ref ke (.ok (false, burst)) []
  | failed {error : Error} : Flies node ref ke (.err error) []

theorem Sdk.Turned.box (turned : Turned world ref ke flight written (result, after))
    (read : flight ≠ [] → publications (flightFrame world.node ke flight) = flight) :
    ∃ next, Flies after.node ref ke result next ∧
      (after.box ref next = world.box ref flight ∨ Outbox.Step (world.box ref flight) (after.box ref next)) := by
  -- Every way in which a turn may end is a step of the box, or leaves it alone.
  cases turned with
  | nothing empty idle sized =>
    subst idle
    exact ⟨[], .ended sized, .inl rfl⟩
  | finished empty flying sized =>
    obtain ⟨free, drained⟩ := Publisher.pending_eq_nil empty
    refine ⟨[], .ended sized, .inr ?_⟩
    simp only [World.box, World.note_statics, World.note_log, List.flatMap_append, free, drained, Event.wire,
      Event.lost, List.flatMap_cons, List.flatMap_nil, List.append_nil, read flying, if_true]
    exact .finish
  | @finishFailed init last empty flying small =>
    subst flying
    obtain ⟨free, drained⟩ := Publisher.pending_eq_nil empty
    refine ⟨[], .failed, .inr ?_⟩
    rw [World.stashed_box small]
    simp only [World.box, World.note_statics, World.note_log, List.flatMap_append, free, drained, Event.wire,
      Event.lost, List.flatMap_cons, List.flatMap_nil, List.append_nil, read (by simp), if_true,
      List.dropLast_concat]
    exact .finishFailed
  | @started written payload rest burst waiting idle ready =>
    subst idle
    refine ⟨[payload], .again ready, .inr ?_⟩
    simp only [World.box, World.countSn_statics, World.countSn_log, World.drained_statics, World.drained_log,
      Function.update_self, Publisher.taken_retrySlot, Publisher.taken_channel waiting, List.flatMap_append,
      World.pushes_wire, World.pushes_lost, List.append_nil]
    exact .append waiting
  | @appended written payload rest burst waiting flying ready =>
    refine ⟨flight ++ [payload], .again ready, .inr ?_⟩
    simp only [World.box, World.drained_statics, World.drained_log,
      Function.update_self, Publisher.taken_retrySlot, Publisher.taken_channel waiting, List.flatMap_append,
      World.pushes_wire, World.pushes_lost, List.append_nil]
    exact .append waiting
  | @flushed payload rest burst waiting flying ready =>
    refine ⟨[payload], .again ready, .inr ?_⟩
    simp only [World.box, World.countSn_statics, World.countSn_log, World.note_statics, World.note_log,
      World.drained_statics, World.drained_log, Function.update_self, Publisher.taken_retrySlot,
      Publisher.taken_channel waiting, List.flatMap_append, World.pushes_wire, World.pushes_lost, List.append_nil,
      Event.wire, Event.lost, List.flatMap_cons, List.flatMap_nil, read flying, if_true]
    exact .flush waiting
  | @flushFailed payload rest waiting flying =>
    -- The message at hand goes to the slot; the flight is gone with its frame.
    have small := Publisher.pending_data_length_le (waiting ▸ List.mem_cons_self ..)
    refine ⟨[], .failed, .inr ?_⟩
    rw [World.stashed_box small]
    simp only [World.box, World.note_statics, World.note_log,
      World.drained_statics, World.drained_log, Function.update_self, Publisher.taken_retrySlot,
      Publisher.taken_channel waiting, List.flatMap_append, World.pushes_wire, World.pushes_lost, List.append_nil,
      Event.wire, Event.lost, List.flatMap_cons, List.flatMap_nil, read flying, if_true]
    exact .flushFailed waiting

end Turns

structure Publisher.SameIntake (before after : Publisher) : Prop where
  topic : after.topic = before.topic
  locality : after.locality = before.locality
  seqNum : after.seqNum = before.seqNum
  stamped : after.stamped = before.stamped

theorem Publisher.SameIntake.refl (publisher : Publisher) : publisher.SameIntake publisher := ⟨rfl, rfl, rfl, rfl⟩

theorem Publisher.SameIntake.trans {before middle after : Publisher} (first : before.SameIntake middle)
    (second : middle.SameIntake after) : before.SameIntake after :=
  ⟨second.topic.trans first.topic, second.locality.trans first.locality, second.seqNum.trans first.seqNum,
    second.stamped.trans first.stamped⟩

theorem Publisher.sameIntake_taken (publisher : Publisher) : publisher.SameIntake publisher.taken :=
  ⟨publisher.taken_topic, publisher.taken_locality, publisher.taken_seqNum, publisher.taken_stamped⟩

section Turns
variable [Target]

structure World.DrainOf (ref : PubRef) (world after : World) : Prop where
  intake : ∀ other, (world.statics other).SameIntake (after.statics other)
  sent : ∀ other, after.log.flatMap (Event.sentBy other) = world.log.flatMap (Event.sentBy other)
  others : ∀ other, other ≠ ref → ∀ flight, after.box other flight = world.box other flight
  unoccupied : (∀ event ∈ world.log, event.Unoccupied) → ∀ event ∈ after.log, event.Unoccupied
  tables : after.node.subscribers = world.node.subscribers

namespace World.DrainOf
variable {ref : PubRef} {world middle after : World}

theorem refl (ref : PubRef) (world : World) : DrainOf ref world world :=
  ⟨fun _ => .refl _, fun _ => rfl, fun _ _ _ => rfl, id, rfl⟩

theorem trans (first : DrainOf ref world middle) (second : DrainOf ref middle after) : DrainOf ref world after where
  intake other := (first.intake other).trans (second.intake other)
  sent other := (second.sent other).trans (first.sent other)
  others other different flight := (second.others other different flight).trans (first.others other different flight)
  unoccupied := second.unoccupied ∘ first.unoccupied
  tables := second.tables.trans first.tables

theorem setPublisher {publisher : Publisher} (same : (world.statics ref).SameIntake publisher) :
    DrainOf ref world (world.setPublisher ref publisher) where
  intake other := by
    by_cases own : other = ref
    · subst own
      simpa using same
    · simpa [own] using Publisher.SameIntake.refl _
  sent _ := rfl
  others other different flight := by simp [World.box, different]
  unoccupied := id
  tables := rfl

theorem note {events : List Event} (silent : ∀ event ∈ events, ∀ other, other ≠ ref →
      event.wire other = [] ∧ event.lost other = []) (unsent : ∀ event ∈ events, ∀ other, event.sentBy other = [])
    (free : ∀ event ∈ events, event.Unoccupied) : DrainOf ref world (world.note events) where
  intake _ := .refl _
  sent other := by
    have none : events.flatMap (Event.sentBy other) = [] :=
      List.flatMap_eq_nil_iff.mpr fun event member => unsent event member other
    simp [none]
  others other different flight := by
    have wire : events.flatMap (Event.wire other) = [] :=
      List.flatMap_eq_nil_iff.mpr fun event member => (silent event member other different).1
    have lost : events.flatMap (Event.lost other) = [] :=
      List.flatMap_eq_nil_iff.mpr fun event member => (silent event member other different).2
    simp [World.box, wire, lost]
  unoccupied before event member := (List.mem_append.mp member).elim (before event) (free event)
  tables := rfl

theorem wrote (world : World) (frame : Bytes) : DrainOf ref world (world.note [.wrote ref frame]) :=
  note (by simp +contextual [Event.wire, Event.lost, eq_comm]) (by simp [Event.sentBy]) (by simp [Event.Unoccupied])

theorem failed (world : World) (point : FlushPoint) (frame : Bytes) :
    DrainOf ref world (world.note [.failed point ref frame]) := by
  refine note ?_ (by simp [Event.sentBy]) (by simp [Event.Unoccupied])
  cases point <;> simp +contextual [Event.wire, Event.lost, eq_comm]

theorem stashed (payload : CdrPayload) (free : (world.statics ref).retrySlot = none) :
    DrainOf ref world (world.stashed ref payload) := by
  have same : (world.statics ref).SameIntake
      ((world.statics ref).stashRetry payload.data payload.seqNum payload.timestampNs) := ⟨rfl, rfl, rfl, rfl⟩
  refine (setPublisher same).trans (note ?_ ?_ ?_)
  · simp [Event.wire, Event.lost]
  · simp [Event.sentBy]
  · simp [Event.Unoccupied, free]

theorem countSn (world : World) : DrainOf ref world world.countSn :=
  ⟨fun _ => .refl _, fun _ => rfl, fun _ _ _ => rfl, id, rfl⟩

theorem drained (world : World) (payload : CdrPayload) : DrainOf ref world (world.drained ref payload) := by
  have pushed (event : Event) (member : event ∈ world.pushes ref payload) :
      ∃ entry, event = .pushed ref payload entry := by
    unfold World.pushes at member
    split at member
    · obtain ⟨entry, -, same⟩ := List.mem_map.mp member
      exact ⟨entry, same.symm⟩
    · cases member
  refine (setPublisher (world.statics ref).sameIntake_taken).trans (note ?_ ?_ ?_)
  · intro event member other _
    obtain ⟨entry, rfl⟩ := pushed event member
    exact ⟨rfl, rfl⟩
  · intro event member other
    obtain ⟨entry, rfl⟩ := pushed event member
    rfl
  · intro event member
    obtain ⟨entry, rfl⟩ := pushed event member
    trivial

end World.DrainOf

theorem Sdk.Turned.drainOf {world after : World} {ref : PubRef} {ke : HeaplessString maxKeyExprLen}
    {flight : List CdrPayload} {written : Bool} {result : Outcome Error (Bool × Burst)}
    (turned : Turned world ref ke flight written (result, after)) : world.DrainOf ref after := by
  cases turned with
  | nothing => exact .refl ref world
  | finished => exact .wrote world _
  | finishFailed empty =>
    exact (World.DrainOf.failed world _ _).trans (.stashed _ (Publisher.pending_eq_nil empty).1)
  | started => exact (World.DrainOf.drained world _).trans (.countSn _)
  | appended => exact .drained world _
  | flushed => exact ((World.DrainOf.drained world _).trans (.wrote _ _)).trans (.countSn _)
  | flushFailed =>
    refine ((World.DrainOf.drained world _).trans (.failed _ _ _)).trans (.stashed _ ?_)
    simp

end Turns

inductive Control.Sound (world : World) : Control → Prop where
  | idle {returned : Option (Outcome Error Unit)} : Sound world (.idle returned)
  | outer {i : Nat} {buffers : Buffers} (sized : buffers.Sized) : Sound world (.outer i buffers)
  | session {i : Nat} {burst : Burst} (only : (world.statics burst.drain).locality = .sessionLocal)
      (ready : LocalBurst burst.drain burst) : Sound world (.inner i burst)
  | network {i : Nat} {burst : Burst} {ke : HeaplessString maxKeyExprLen} {flight : List CdrPayload}
      (remote : (world.statics burst.drain).locality ≠ .sessionLocal)
      (ready : Sdk.Ready world.node burst.drain ke burst flight) : Sound world (.inner i burst)

section Flight
variable [Target] {i : Nat} {burst : Burst} {world : World} {ke : HeaplessString maxKeyExprLen}
  {flight : List CdrPayload}

theorem Control.flight_network (ready : Sdk.Ready world.node burst.drain ke burst flight) :
    (Control.inner i burst).flight burst.drain = flight := by
  rw [Control.flight]
  by_cases flying : flight = []
  · subst flying
    rw [if_neg (by simp [ready.started])]
  · rw [if_pos ⟨rfl, by simp [ready.started, flying]⟩, ready.batch flying, ready.toBatched.publications flying]

theorem Control.flight_other {other : PubRef} (different : other ≠ burst.drain) :
    (Control.inner i burst).flight other = [] := by
  rw [Control.flight, if_neg fun same => different same.1.symm]

theorem Control.flight_local (ready : LocalBurst burst.drain burst) (other : PubRef) :
    (Control.inner i burst).flight other = [] := by
  rw [Control.flight, if_neg (by simp [ready.idle])]

end Flight

section Steps
variable [Target]

def System.sent (system : System) (ref : PubRef) : List CdrPayload :=
  system.world.log.flatMap (Event.sentBy ref)

inductive System.Moves (ref : PubRef) (system next : System) : Act → Prop where
  | stays {act : Act} (intake : (system.world.statics ref).SameIntake (next.world.statics ref))
      (sent : next.sent ref = system.sent ref) (box : next.box ref = system.box ref) :
      Moves ref system next act
  | drains {written : Bool} (intake : (system.world.statics ref).SameIntake (next.world.statics ref))
      (sent : next.sent ref = system.sent ref) (box : Outbox.Step (system.box ref) (next.box ref)) :
      Moves ref system next (.turn written)
  | discards {written : Bool} (payload : CdrPayload)
      (intake : (system.world.statics ref).SameIntake (next.world.statics ref))
      (sent : next.sent ref = system.sent ref)
      (only : (system.world.statics ref).locality = .sessionLocal)
      (waiting : (system.world.statics ref).pending = payload :: (next.world.statics ref).pending)
      (same : ∀ flight, (next.world.box ref flight).wire = (system.world.box ref flight).wire ∧
        (next.world.box ref flight).lost = (system.world.box ref flight).lost)
      (still : system.control.flight ref = [] ∧ next.control.flight ref = []) :
      Moves ref system next (.turn written)
  | stamps {data : Bytes} {timestampNs : Int64}
      (stamped : (system.world.statics ref).stamp data timestampNs = some (next.world.statics ref))
      (sent : next.sent ref = system.sent ref) (box : next.box ref = system.box ref) :
      Moves ref system next (.stamp ref data timestampNs)
  | enqueues {waiting : Nat} {payload : CdrPayload}
      (entered : (system.world.statics ref).enqueue waiting = some (payload, next.world.statics ref))
      (sent : next.sent ref = system.sent ref ++ [payload.clip])
      (box : next.box ref = Outbox.enqueue (system.box ref) payload.clip) :
      Moves ref system next (.enqueue ref waiting)

structure System.Stepped (system next : System) (act : Act) : Prop where
  sound : next.control.Sound next.world
  moves : ∀ ref, Moves ref system next act
  unoccupied : (∀ event ∈ system.world.log, event.Unoccupied) → ∀ event ∈ next.world.log, event.Unoccupied
  tables : (∀ node, act ≠ .reconnect node) → next.world.node.subscribers = system.world.node.subscribers

def World.entered (world : World) (i : Nat) (buffers : Buffers) : Control :=
  match world.node.publishers[i]? with
  | none => .idle (some (.ok ()))
  | some drain =>
    if (world.statics drain).locality = .sessionLocal then .inner i (.start drain none buffers)
    else
      match (world.statics drain).topic.toKeyExpr with
      | none => .idle (some (.err .invalidArgument))
      | some ke => .inner i (.start drain (some ke) buffers)

omit [Target] in
theorem turn_entered (body : Body) (written : Bool) (world : World) (i : Nat) (buffers : Buffers) :
    turn body written ⟨world, .outer i buffers⟩ = ⟨world, world.entered i buffers⟩ := by
  change settle id (outerTurn i buffers world) = _
  unfold outerTurn World.entered
  rw [Action.bind_of_ok (Action.get_run _)]
  cases world.node.publishers[i]? with
  | none => rfl
  | some drain =>
    by_cases only : (world.statics drain).locality = .sessionLocal
    · simp only [if_pos only]
      rfl
    · simp only [if_neg only]
      cases (world.statics drain).topic.toKeyExpr <;> rfl

theorem turn_outer (body : Body) (written : Bool) (world : World) (i : Nat) {buffers : Buffers}
    (sized : buffers.Sized) :
    ∃ control, turn body written ⟨world, .outer i buffers⟩ = ⟨world, control⟩ ∧ control.Sound world ∧
      ∀ ref, control.flight ref = [] := by
  refine ⟨_, turn_entered body written world i buffers, ?_⟩
  unfold World.entered
  cases found : world.node.publishers[i]? with
  | none => exact ⟨.idle, fun _ => rfl⟩
  | some drain =>
    by_cases only : (world.statics drain).locality = .sessionLocal
    · have ready := LocalBurst.start drain sized
      simp only [if_pos only]
      exact ⟨.session only ready, Control.flight_local ready⟩
    simp only [if_neg only]
    cases key : (world.statics drain).topic.toKeyExpr with
    | none => exact ⟨.idle, fun _ => rfl⟩
    | some ke =>
      have ready := Sdk.Ready.start world.node drain ke sized
      refine ⟨.network only ready, fun ref => ?_⟩
      by_cases own : ref = drain
      · rw [own]
        exact Control.flight_network ready
      · exact Control.flight_other own

theorem Sdk.Flies.settle {world : World} {ref : PubRef} {ke : HeaplessString maxKeyExprLen}
    {flight : List CdrPayload} {result : Outcome Error (Bool × Burst)} (flies : Flies world.node ref ke result flight)
    (remote : (world.statics ref).locality ≠ .sessionLocal) (i : Nat) :
    ∃ control, ZenohRos2.settle (innerNext i) (result, world) = ⟨world, control⟩ ∧ control.Sound world ∧
      control.flight ref = flight ∧ ∀ other, other ≠ ref → control.flight other = [] := by
  cases flies with
  | @again burst flight ready =>
    obtain rfl := ready.drain
    exact ⟨.inner i burst, rfl, .network remote ready, Control.flight_network ready,
      fun other different => Control.flight_other different⟩
  | @ended burst sized => exact ⟨.outer (i + 1) burst.buffers, rfl, .outer sized, rfl, fun _ _ => rfl⟩
  | @failed error => exact ⟨.idle (some (.err error)), rfl, .idle, rfl, fun _ _ => rfl⟩

omit [Target] in
@[simp] theorem settle_world {α : Type} (next : α → Control) (result : Outcome Error α) (world : World) :
    (settle next (result, world)).world = world := by
  cases result <;> rfl

inductive InnerTurned (world : World) (i : Nat) (burst : Burst) (written : Bool) : System → Prop where
  | emptied (only : (world.statics burst.drain).locality = .sessionLocal) (ready : LocalBurst burst.drain burst)
      (empty : (world.statics burst.drain).pending = []) :
      InnerTurned world i burst written ⟨world, .outer (i + 1) burst.buffers⟩
  | passed {payload : CdrPayload} {rest : List CdrPayload} {next : Burst}
      (only : (world.statics burst.drain).locality = .sessionLocal) (ready : LocalBurst burst.drain burst)
      (waiting : (world.statics burst.drain).pending = payload :: rest) (again : LocalBurst burst.drain next) :
      InnerTurned world i burst written ⟨world.drained burst.drain payload, .inner i next⟩
  | sent {ke : HeaplessString maxKeyExprLen} {flight : List CdrPayload} {result : Outcome Error (Bool × Burst)}
      {after : World} (remote : (world.statics burst.drain).locality ≠ .sessionLocal)
      (ready : Sdk.Ready world.node burst.drain ke burst flight)
      (turned : Sdk.Turned world burst.drain ke flight written (result, after)) :
      InnerTurned world i burst written (settle (innerNext i) (result, after))

theorem turn_innerTurned {world : World} {i : Nat} {burst : Burst} (sound : (Control.inner i burst).Sound world)
    (written : Bool) : InnerTurned world i burst written (turn Sdk.drainBody written ⟨world, .inner i burst⟩) := by
  change InnerTurned world i burst written (settle (innerNext i) (Sdk.drainBody written burst world))
  cases sound with
  | session only ready =>
    cases waiting : (world.statics burst.drain).pending with
    | nil =>
      rw [Sdk.drainBody_local_nil ready waiting]
      exact .emptied only ready waiting
    | cons payload rest =>
      obtain ⟨next, again, ran⟩ := Sdk.drainBody_local_cons ready waiting written
      rw [ran]
      exact .passed only ready waiting again
  | network remote ready => exact .sent remote ready (Sdk.drainBody_turned ready written)

theorem Sdk.Turned.stepped {world after : World} {i : Nat} {burst : Burst} {ke : HeaplessString maxKeyExprLen}
    {flight : List CdrPayload} {written : Bool} {result : Outcome Error (Bool × Burst)}
    (remote : (world.statics burst.drain).locality ≠ .sessionLocal) (ready : Ready world.node burst.drain ke burst flight)
    (turned : Turned world burst.drain ke flight written (result, after)) :
    System.Stepped ⟨world, .inner i burst⟩ (ZenohRos2.settle (innerNext i) (result, after)) (.turn written) := by
  have drain := turned.drainOf
  obtain ⟨next, flies, box⟩ := turned.box ready.toBatched.publications
  have same : (after.statics burst.drain).locality ≠ .sessionLocal := by rwa [(drain.intake _).locality]
  obtain ⟨control, settled, sound, own, others⟩ := flies.settle same i
  rw [settled]
  refine ⟨sound, fun ref => ?_, drain.unoccupied, fun _ => drain.tables⟩
  -- One publisher is drained; for every other one nothing changes.
  by_cases mine : ref = burst.drain
  · subst mine
    have same := Control.flight_network (i := i) ready
    rcases box with still | step
    · exact .stays (drain.intake _) (drain.sent _) (by simpa only [System.box, own, same] using still)
    · exact .drains (drain.intake _) (drain.sent _) (by simpa only [System.box, own, same] using step)
  · refine .stays (drain.intake _) (drain.sent _) ?_
    simp only [System.box, others ref mine, Control.flight_other mine]
    exact drain.others ref mine []

theorem System.stepped_passed {world : World} {i : Nat} {burst next : Burst} {payload : CdrPayload}
    {rest : List CdrPayload} {written : Bool} (only : (world.statics burst.drain).locality = .sessionLocal)
    (ready : LocalBurst burst.drain burst) (waiting : (world.statics burst.drain).pending = payload :: rest)
    (again : LocalBurst burst.drain next) :
    Stepped ⟨world, .inner i burst⟩ ⟨world.drained burst.drain payload, .inner i next⟩ (.turn written) := by
  have drain : world.DrainOf burst.drain (world.drained burst.drain payload) := .drained world payload
  have ready' : LocalBurst next.drain next := ⟨rfl, again.key, again.sized, again.idle⟩
  have only' : ((world.drained burst.drain payload).statics next.drain).locality = .sessionLocal := by
    rwa [again.drain, (drain.intake _).locality]
  refine ⟨.session only' ready', fun ref => ?_, drain.unoccupied, fun _ => drain.tables⟩
  have idle (other : PubRef) : (Control.inner i next).flight other = [] := Control.flight_local ready' other
  by_cases mine : ref = burst.drain
  · subst mine
    refine .discards payload (drain.intake _) (drain.sent _) only ?_ ?_ ⟨Control.flight_local ready _, idle _⟩
    · change _ = payload :: ((world.drained burst.drain payload).statics burst.drain).pending
      rw [World.drained_statics, Function.update_self, Publisher.taken_pending, waiting, List.tail_cons]
    · intro flight
      simp only [World.box, World.drained_log, List.flatMap_append, World.pushes_wire, World.pushes_lost,
        List.append_nil, and_self]
  · refine .stays (drain.intake _) (drain.sent _) ?_
    simp only [System.box, idle, Control.flight_local ready]
    exact drain.others ref mine []

theorem turn_stepped {system : System} (sound : system.control.Sound system.world) (written : Bool) :
    System.Stepped system (turn Sdk.drainBody written system) (.turn written) := by
  obtain ⟨world, control⟩ := system
  cases control with
  | idle => exact ⟨.idle, fun ref => .stays (.refl _) rfl rfl, id, fun _ => rfl⟩
  | outer i buffers =>
    have sized : buffers.Sized := by
      cases sound with
      | outer sized => exact sized
    obtain ⟨control, turned, sound, still⟩ := turn_outer Sdk.drainBody written world i sized
    rw [turned]
    refine ⟨sound, fun ref => .stays (.refl _) rfl ?_, id, fun _ => rfl⟩
    simp only [System.box, still]
    rfl
  | inner i burst =>
    have turned := turn_innerTurned sound written
    generalize turn Sdk.drainBody written ⟨world, .inner i burst⟩ = next at turned
    cases turned with
    | emptied only ready =>
      refine ⟨.outer ready.sized, fun ref => .stays (.refl _) rfl ?_, id, fun _ => rfl⟩
      simp only [System.box, Control.flight_local ready]
      rfl
    | passed only ready waiting again => exact System.stepped_passed only ready waiting again
    | sent remote ready turned => exact turned.stepped remote ready

omit [Target] in
theorem Control.Sound.of_same {world after : World} {control : Control} (sound : control.Sound world)
    (node : after.node = world.node) (locality : ∀ ref, (after.statics ref).locality = (world.statics ref).locality) :
    control.Sound after := by
  cases sound with
  | idle => exact .idle
  | outer sized => exact .outer sized
  | session only ready => exact .session ((locality _).trans only) ready
  | network remote ready => exact .network (by rwa [locality]) (node ▸ ready)

omit [Target] in
theorem World.setPublisher_locality {world : World} {ref : PubRef} {publisher : Publisher}
    (same : publisher.locality = (world.statics ref).locality) (other : PubRef) :
    ((world.setPublisher ref publisher).statics other).locality = (world.statics other).locality := by
  by_cases own : other = ref
  · subst own
    simpa using same
  · simp [own]

omit [Target] in
theorem System.setPublisher_sound {system : System} (sound : system.control.Sound system.world) {ref : PubRef}
    {publisher : Publisher} (same : publisher.locality = (system.world.statics ref).locality) :
    system.control.Sound (system.world.setPublisher ref publisher) :=
  sound.of_same rfl (World.setPublisher_locality same)

theorem System.stamp_moves {system : System} {ref : PubRef} {data : Bytes} {timestampNs : Int64}
    {publisher : Publisher} (stamped : (system.world.statics ref).stamp data timestampNs = some publisher)
    (other : PubRef) :
    Moves other system { system with world := system.world.setPublisher ref publisher } (.stamp ref data timestampNs) := by
  by_cases own : other = ref
  · subst own
    refine .stamps (by simpa using stamped) rfl ?_
    simp [System.box, World.box, Publisher.stamp_eq_some stamped]
  · refine .stays ?_ rfl ?_
    · simpa [own] using Publisher.SameIntake.refl _
    · simp [System.box, World.box, own]

theorem System.enqueue_moves {system : System} {ref : PubRef} {waiting : Nat} {payload : CdrPayload}
    {publisher : Publisher} (entered : (system.world.statics ref).enqueue waiting = some (payload, publisher))
    (other : PubRef) :
    Moves other system
      { system with world := (system.world.setPublisher ref publisher).note [.sent ref payload] }
      (.enqueue ref waiting) := by
  by_cases own : other = ref
  · subst own
    refine .enqueues (by simpa using entered) ?_ ?_
    · simp [System.sent, Event.sentBy]
    · simp [System.box, World.box, Outbox.enqueue, (Publisher.enqueue_eq_some entered).2, Event.wire, Event.lost]
  · refine .stays ?_ ?_ ?_
    · simpa [own] using Publisher.SameIntake.refl _
    · simp [System.sent, Event.sentBy, Ne.symm own]
    · simp [System.box, World.box, own, Event.wire, Event.lost]

-- What a step of each kind needs and does; the other two are `Publisher.stamp` and `Publisher.enqueue`.
section Inversion
variable {system next : System}

theorem System.step_call (step : system.step .call = some next) :
    (∃ returned, system.control = .idle returned) ∧ next = called system.world := by
  obtain ⟨world, control⟩ := system
  cases control with
  | idle returned =>
    cases step
    exact ⟨⟨returned, rfl⟩, rfl⟩
  | outer i buffers => cases step
  | inner i burst => cases step

theorem System.step_turn {written : Bool} (step : system.step (.turn written) = some next) :
    (∀ returned, system.control ≠ .idle returned) ∧ next = turn Sdk.drainBody written system := by
  obtain ⟨world, control⟩ := system
  cases control with
  | idle returned => cases step
  | outer i buffers =>
    cases step
    exact ⟨by simp, rfl⟩
  | inner i burst =>
    cases step
    exact ⟨by simp, rfl⟩

theorem System.step_reconnect {node : Node} (step : system.step (.reconnect node) = some next) :
    (∃ returned, system.control = .idle returned) ∧ next = ⟨{ system.world with node := node }, .idle none⟩ := by
  obtain ⟨world, control⟩ := system
  cases control with
  | idle returned =>
    cases step
    exact ⟨⟨returned, rfl⟩, rfl⟩
  | outer i buffers => cases step
  | inner i burst => cases step

end Inversion

theorem System.stepped_of_step {system next : System} {act : Act} (sound : system.control.Sound system.world)
    (step : system.step act = some next) : Stepped system next act := by
  cases act with
  | stamp ref data timestampNs =>
    obtain ⟨publisher, stamped, same⟩ := Option.map_eq_some_iff.mp step
    cases same
    exact ⟨setPublisher_sound sound (by rw [Publisher.stamp_eq_some stamped]), stamp_moves stamped, id, fun _ => rfl⟩
  | enqueue ref waiting =>
    obtain ⟨⟨payload, publisher⟩, entered, same⟩ := Option.map_eq_some_iff.mp step
    cases same
    have entering : system.control.Sound (system.world.setPublisher ref publisher) :=
      setPublisher_sound sound (by rw [(Publisher.enqueue_eq_some entered).2])
    refine ⟨entering.of_same rfl fun _ => rfl, enqueue_moves entered, fun before event member => ?_, fun _ => rfl⟩
    rcases List.mem_append.mp member with old | new
    · exact before event old
    · rw [List.mem_singleton.mp new]
      trivial
  | call =>
    obtain ⟨⟨returned, idle⟩, rfl⟩ := step_call step
    refine ⟨.outer Buffers.zeroed_sized, fun ref => .stays (.refl _) rfl ?_, id, fun _ => rfl⟩
    simp [System.box, idle, called, Control.flight]
  | turn written =>
    rw [(step_turn step).2]
    exact turn_stepped sound written
  | reconnect node =>
    obtain ⟨⟨returned, idle⟩, rfl⟩ := step_reconnect step
    refine ⟨.idle, fun ref => .stays (.refl _) rfl ?_, id, fun other => absurd rfl (other node)⟩
    simp [System.box, World.box, idle, Control.flight]

end Steps
end ZenohRos2
