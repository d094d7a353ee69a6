import ZenohRos2.Sdk.Routing
import ZenohRos2.Sdk.Spin
import ZenohRos2.Sdk.Switching

/-! Bytes that arrive in the middle of a stream of frames.

Frames may be written to the link while others are being read, and a chunk may
end anywhere. Frames that every assembler handles alike and that do not end the
loop are pushed one after the other, each as soon as its last byte is there.
-/

set_option autoImplicit false

namespace ZenohRos2
open Rust

section Pushes
variable [Target] (node : Node)

/-- The pushes of a loop, for the frames that it hands to its dispatch function. -/
def deliveries : FragmentAssembler → List Bytes → List Delivery
  | _, [] => []
  | fragAsm, frame :: frames =>
    match dispatchFrame node frame fragAsm with
    | .ok (handled, fragAsm) => handled.pushes ++ deliveries fragAsm frames
    | _ => []

/-- The frame pushes this, whatever fragments came before it, and the loop goes on. -/
def Steady (frame : Bytes) (pushes : List Delivery) : Prop :=
  ∀ fragAsm, ∃ handled, dispatchFrame node frame fragAsm = .ok (handled, fragAsm) ∧ handled.pushes = pushes

variable {node}

theorem steady_of_dispatch {frame : Bytes} {handled : Handled} {after : FragmentAssembler}
    (whole : frame.head?.map parseTransportMsgKind ≠ some .fragment)
    (ran : dispatchFrame node frame .new = .ok (handled, after)) : Steady node frame handled.pushes := by
  intro fragAsm
  refine ⟨handled, ?_, rfl⟩
  unfold dispatchFrame dispatchWith at ran ⊢
  cases frame with
  | nil =>
    cases ran
    rfl
  | cons first rest =>
    have kind : parseTransportMsgKind first ≠ .fragment := fun same => whole (congrArg some same)
    rw [if_neg (by simp)] at ran ⊢
    rw [show (index (first :: rest) 0 : Outcome Error UInt8) = .ok first from rfl, Outcome.ok_bind] at ran ⊢
    cases found : parseTransportMsgKind first with
    | fragment => exact absurd found kind
    | frame =>
      rw [found] at ran
      obtain ⟨body, handledBody, same⟩ := Outcome.bind_eq_ok.mp ran
      cases same
      exact Outcome.bind_eq_ok.mpr ⟨_, handledBody, rfl⟩
    | close =>
      rw [found] at ran
      cases ran
    | _ =>
      rw [found] at ran
      cases ran
      rfl

theorem deliveries_cons {frame : Bytes} {pushes : List Delivery} (steady : Steady node frame pushes)
    (fragAsm : FragmentAssembler) (frames : List Bytes) :
    deliveries node fragAsm (frame :: frames) = pushes ++ deliveries node fragAsm frames := by
  obtain ⟨handled, ran, same⟩ := steady fragAsm
  rw [deliveries, ran, ← same]

theorem hand_steady {frame : Bytes} {pushes : List Delivery} (steady : Steady node frame pushes)
    (fragAsm : FragmentAssembler) : Spin.hand (.ok ()) (dispatchFrame node) fragAsm frame = ⟨some .start, fragAsm⟩ := by
  obtain ⟨handled, ran, -⟩ := steady fragAsm
  rw [Spin.hand, Spin.accept, ran]
  rfl

/-- A loop in the middle of a stream: what it has read of a frame, and what is still on the link, are whole frames. -/
structure Spin.Awaits (statics : PubRef → Publisher) (node : Node) (spin : Spin) (link : Bytes)
    (frames : List (Bytes × List Delivery)) : Prop where
  drains : Drains statics node
  steady : ∀ frame ∈ frames, Steady node frame.1 frame.2
  reads : ∃ reading, spin.reading = some reading ∧ reading.Amid rxBufSize link (frames.map Prod.fst)

namespace Spin.Awaits
variable {statics : PubRef → Publisher} {spin : Spin} {link : Bytes} {frames : List (Bytes × List Delivery)}

theorem start (drains : Drains statics node) : Awaits statics node (.start statics node) [] [] where
  drains := drains
  steady := by simp
  reads := by
    rw [(start_of_drains drains).2]
    exact ⟨.start, rfl, .nil⟩

theorem write (awaits : Awaits statics node spin link frames) {frame : Bytes} {pushes : List Delivery}
    (steady : Steady node frame pushes) (fits : frame.length ≤ rxBufSize) :
    Awaits statics node spin (link ++ framed frame) (frames ++ [(frame, pushes)]) := by
  obtain ⟨reading, pending, amid⟩ := awaits.reads
  refine ⟨awaits.drains, fun other member => ?_, reading, pending, ?_⟩
  · rcases List.mem_append.mp member with before | new
    · exact awaits.steady other before
    · rw [List.mem_singleton.mp new]
      exact steady
  · rw [List.map_append]
    exact amid.write fits

theorem drop_eq (awaits : Awaits statics node spin link frames) (idle : spin.held = 0) :
    (spinReader statics node).drop spin = spin := by
  obtain ⟨reading, pending, amid⟩ := awaits.reads
  obtain ⟨_, fragAsm⟩ := spin
  cases pending
  obtain rfl := amid.eq_start idle
  rw [spinReader_of_drains awaits.drains]
  rfl

theorem feedAll {data : Bytes} (awaits : Awaits statics node spin (data ++ link) frames) :
    ∃ done rest, frames = done ++ rest ∧
      Awaits statics node ((spinReader statics node).feedAll spin data).1 link rest ∧
      ((spinReader statics node).feedAll spin data).1.fragAsm = spin.fragAsm ∧
      deliveries node spin.fragAsm ((spinReader statics node).feedAll spin data).2 = done.flatMap Prod.snd := by
  have reader := spinReader_of_drains awaits.drains
  -- Byte by byte: only the last byte of a frame hands it over, and the loop waits for the next one.
  induction data generalizing spin frames with
  | nil => exact ⟨[], frames, rfl, awaits, rfl, rfl⟩
  | cons byte data ih =>
    obtain ⟨reading, pending, amid⟩ := awaits.reads
    obtain ⟨_, fragAsm⟩ := spin
    cases pending
    rw [List.cons_append] at amid
    rw [reader, Feed.Consumer.feedAll_cons]
    rcases amid.poll (by decide) with ⟨next, polled, amid⟩ | ⟨frame, later, split, polled, amid⟩
    · rw [feed_pending polled, List.nil_append, ← reader]
      exact ih ⟨awaits.drains, awaits.steady, next, rfl, amid⟩
    · obtain ⟨first, behind, rfl, rfl, rfl⟩ := List.map_eq_cons_iff.mp split
      have steady := awaits.steady first List.mem_cons_self
      rw [feed_ready polled, hand_steady steady, ← reader]
      obtain ⟨done, rest, rfl, after, same, pushed⟩ := @ih ⟨some .start, fragAsm⟩ behind
        ⟨awaits.drains, fun other member => awaits.steady other (List.mem_cons_of_mem _ member), .start, rfl, amid⟩
      refine ⟨first :: done, rest, rfl, after, same, ?_⟩
      rw [List.singleton_append, deliveries_cons steady, pushed, List.flatMap_cons]

theorem arrive (awaits : Awaits statics node spin link frames) (n : Nat) :
    ∃ done rest, frames = done ++ rest ∧
      Awaits statics node ((spinReader statics node).feedAll spin (link.take n)).1 (link.drop n) rest ∧
      ((spinReader statics node).feedAll spin (link.take n)).1.fragAsm = spin.fragAsm ∧
      deliveries node spin.fragAsm ((spinReader statics node).feedAll spin (link.take n)).2 = done.flatMap Prod.snd :=
  feedAll (by rwa [List.take_append_drop])

end Spin.Awaits
end Pushes
end ZenohRos2
