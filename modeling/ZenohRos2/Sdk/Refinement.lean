import ZenohRos2.Sdk.Batching

/-! Whole calls of both drains.

What a call sends is a function of the table and of the pending messages. Any
body whose bursts send what is pending sends just that, so the two drains agree
but for the frames they cut it into.
-/

set_option autoImplicit false

namespace ZenohRos2
open Rust

def emptiedAll (refs : List PubRef) (statics : PubRef → Publisher) : PubRef → Publisher := fun ref =>
  if ref ∈ refs then (statics ref).emptied else statics ref

/-- What the publishers send to the network, in order. One that is listed again has nothing left. -/
def outgoing (gid : ZenohId) : List PubRef → (PubRef → Publisher) → List Received
  | [], _ => []
  | ref :: rest, statics =>
    (statics ref).outgoing gid ++ outgoing gid rest (Function.update statics ref (statics ref).emptied)

def outgoingPushes (node : Node) : List PubRef → (PubRef → Publisher) → List Event
  | [], _ => []
  | ref :: rest, statics =>
    (statics ref).pending.flatMap (World.pushes ⟨statics, node, []⟩ ref) ++
      outgoingPushes node rest (Function.update statics ref (statics ref).emptied)

theorem emptiedAll_cons (ref : PubRef) (rest : List PubRef) (statics : PubRef → Publisher) :
    emptiedAll rest (Function.update statics ref (statics ref).emptied) = emptiedAll (ref :: rest) statics := by
  funext other
  unfold emptiedAll
  by_cases same : other = ref
  · subst same
    simp [Publisher.emptied]
  · simp [same]

theorem emptiedAll_pending {refs : List PubRef} {ref : PubRef} (member : ref ∈ refs) (statics : PubRef → Publisher) :
    (emptiedAll refs statics ref).pending = [] := by
  rw [emptiedAll, if_pos member, Publisher.emptied_pending]

theorem outgoingPushes_congr {node other : Node} (same : node.subscribers = other.subscribers) (refs : List PubRef)
    (statics : PubRef → Publisher) : outgoingPushes node refs statics = outgoingPushes other refs statics := by
  induction refs generalizing statics with
  | nil => rfl
  | cons ref rest ih =>
    have pushes : World.pushes ⟨statics, node, []⟩ ref = World.pushes ⟨statics, other, []⟩ ref := by
      funext payload
      simp only [World.pushes, same]
    rw [outgoingPushes, outgoingPushes, pushes, ih]

theorem outerTurn_named {world : World} {i : Nat} {buffers : Buffers} {ref : PubRef} {rest : List PubRef}
    (left : world.node.publishers.drop i = ref :: rest) (named : (world.statics ref).Named) :
    outerTurn i buffers world = (.ok (.inner i (.start ref (world.statics ref).networkKey buffers)), world) := by
  have found : world.node.publishers[i]? = some ref := by
    rw [← List.head?_drop, left, List.head?_cons]
  unfold outerTurn Publisher.networkKey
  rw [Action.bind_of_ok (Action.get_run _)]
  simp only [found]
  by_cases only : (world.statics ref).locality = .sessionLocal
  · rw [if_pos only, if_pos only]
    rfl
  · obtain ⟨ke, key⟩ := Option.isSome_iff_exists.mp (named only)
    rw [if_neg only, if_neg only, key]
    rfl

section Calls
variable [Target] {good : Nat → Prop} {body : Body}

theorem DrainsBursts.advances (drains : DrainsBursts good body) (refs : List PubRef) {rest : List PubRef} {world : World}
    {i : Nat} {buffers : Buffers} (left : world.node.publishers.drop i = refs ++ rest) (sized : buffers.Sized)
    (named : ∀ ref ∈ refs, (world.statics ref).Named) :
    ∃ after buffered written, Reaches body ⟨world, .outer i buffers⟩ ⟨after, .outer (i + refs.length) buffered⟩ ∧
      buffered.Sized ∧
      world.Writes good world.node.sn after written (outgoing world.node.gid refs world.statics)
        (outgoingPushes world.node refs world.statics) ∧
      after.statics = emptiedAll refs world.statics := by
  -- By induction on the publishers that it goes past.
  induction refs generalizing world i buffers with
  | nil =>
    refine ⟨world, buffers, [], .refl _, sized, .refl world, ?_⟩
    funext ref
    simp [emptiedAll]
  | cons ref refs ih =>
    have entered : turn body true ⟨world, .outer i buffers⟩ =
        ⟨world, .inner i (.start ref (world.statics ref).networkKey buffers)⟩ := by
      simp only [turn, outerTurn_named left (named ref (List.mem_cons_self ..))]
      rfl
    obtain ⟨middle, next, written, burst, sized, writes, count, emptied⟩ := drains world ref i buffers sized
    have table : middle.node.publishers.drop (i + 1) = refs ++ rest := by
      rw [writes.node, ← List.tail_drop, left, List.cons_append, List.tail_cons]
    have gid : middle.node.gid = world.node.gid := by rw [writes.node]
    have subscribers : middle.node.subscribers = world.node.subscribers := by rw [writes.node]
    -- Draining changes neither the topic nor the locality, so the others are still named.
    have still : ∀ other ∈ refs, (middle.statics other).Named := by
      intro other member
      have before := named other (List.mem_cons_of_mem _ member)
      rw [emptied]
      by_cases same : other = ref
      · subst same
        rwa [Function.update_self]
      · rwa [Function.update_of_ne same]
    obtain ⟨after, buffered, later, reached, again, wrote, all⟩ := ih table sized still
    rw [gid, outgoingPushes_congr subscribers, emptied] at wrote
    refine ⟨after, buffered, written ++ later, ?_, again, writes.trans wrote count, ?_⟩
    · rw [List.length_cons, Nat.add_comm refs.length, ← Nat.add_assoc]
      exact .head entered (burst.trans reached)
    · rw [all, emptied, emptiedAll_cons]

theorem DrainsBursts.completes (drains : DrainsBursts good body) (refs : List PubRef) {world : World} {i : Nat}
    {buffers : Buffers} (left : world.node.publishers.drop i = refs) (sized : buffers.Sized)
    (named : ∀ ref ∈ refs, (world.statics ref).Named) :
    ∃ after written, Reaches body ⟨world, .outer i buffers⟩ ⟨after, .idle (some (.ok ()))⟩ ∧
      world.Writes good world.node.sn after written (outgoing world.node.gid refs world.statics)
        (outgoingPushes world.node refs world.statics) ∧
      after.statics = emptiedAll refs world.statics := by
  obtain ⟨after, buffered, written, reached, -, writes, emptied⟩ :=
    drains.advances refs (left.trans (List.append_nil refs).symm) sized named
  have ended : after.node.publishers[i + refs.length]? = none := by
    rw [writes.node, ← List.getElem?_drop, left, List.getElem?_eq_none (Nat.le_refl _)]
  refine ⟨after, written, reached.trans (.head ?_ (.refl _)), writes, emptied⟩
  simp only [turn, outerTurn, Action.bind_of_ok (Action.get_run _), ended]
  rfl

/-- The batching drain refines the plain one: both calls return, leave the
publishers empty and push the same, and the frames of both hold the same
messages in the same order, whatever number each node starts with. -/
theorem batched_drain_refines_plain (statics : PubRef → Publisher) (node : Node) (sn : UInt64)
    (named : ∀ ref ∈ node.publishers, (statics ref).Named) :
    ∃ batched plain : World,
      Reaches Sdk.drainBody (called ⟨statics, node, []⟩) ⟨batched, .idle (some (.ok ()))⟩ ∧
      Reaches Ros2.drainBody (called ⟨statics, { node with sn := sn }, []⟩) ⟨plain, .idle (some (.ok ()))⟩ ∧
      (∀ ref ∈ node.publishers, (batched.statics ref).pending = []) ∧
      (∀ frame ∈ batched.frames, frame.length ≤ txFrameBuf ∧ 0 < (received frame).length) ∧
      Numbered node.sn batched.frames ∧
      (∀ frame ∈ plain.frames, (received frame).length = 1) ∧
      batched.frames.flatMap received = plain.frames.flatMap received ∧
      batched.localPushes = plain.localPushes ∧ batched.statics = plain.statics := by
  obtain ⟨batched, frames, returned, writes, emptied⟩ := Sdk.drainsBursts.completes node.publishers
    (show (World.mk statics node []).node.publishers.drop 0 = _ from List.drop_zero) Buffers.zeroed_sized named
  obtain ⟨plain, singles, ended, wrote, cleared⟩ := Ros2.drainsBursts.completes node.publishers
    (show (World.mk statics { node with sn := sn } []).node.publishers.drop 0 = _ from List.drop_zero)
    Buffers.zeroed_sized named
  have all : batched.frames = frames := writes.frames
  have each : plain.frames = singles := wrote.frames
  refine ⟨batched, plain, returned, ended, ?_, ?_, ?_, ?_, ?_, ?_, emptied.trans cleared.symm⟩
  · intro ref member
    rw [emptied]
    exact emptiedAll_pending member statics
  · rw [all]
    exact writes.sized
  · rw [all]
    exact writes.numbered
  · intro frame member
    rw [each] at member
    exact (wrote.sized frame member).2
  · rw [all, each, writes.messages, wrote.messages]
  · rw [writes.pushed, wrote.pushed]
    exact congrArg _ (outgoingPushes_congr (show node.subscribers = { node with sn := sn }.subscribers from rfl) _ _)

omit [Target] in
theorem batched_drain_refines_plain_two :
    let publisher := { Publisher.fresh ⟨0, "chatter", "String", "hash"⟩ .any 144 4 with
      channel := [⟨[0, 1, 0, 0, 1], 0, 0⟩, ⟨[0, 1, 0, 0, 2], 1, 1000⟩] }
    let node := { Node.built "talker" "" 0 (ZenohId.fromBytes [7]) 10000 10000 with
      publishers := [0]
      subscribers := [⟨1, .any, publisher.topic, 3⟩] }
    letI := target64
    ∃ batched plain : World,
      Reaches Sdk.drainBody (called ⟨fun _ => publisher, node, []⟩) ⟨batched, .idle (some (.ok ()))⟩ ∧
      Reaches Ros2.drainBody (called ⟨fun _ => publisher, { node with sn := 5 }, []⟩)
        ⟨plain, .idle (some (.ok ()))⟩ ∧
      batched.frames.flatMap received = plain.frames.flatMap received := by
  intro publisher node
  let := target64
  obtain ⟨batched, plain, returned, ended, -, -, -, -, same, -⟩ :=
    batched_drain_refines_plain (fun _ => publisher) node 5 (by decide +kernel)
  exact ⟨batched, plain, returned, ended, same⟩

end Calls
end ZenohRos2
