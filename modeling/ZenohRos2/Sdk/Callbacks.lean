import ZenohRos2.Lib.Machine
import ZenohRos2.Sdk.Incoming
import ZenohRos2.Transport.Body

/-! What `on_message` tells of the messages that were delivered.

The callback is called for every Put that is decoded, whether or not a
subscription takes it, and is given the suffix that stands in the Put. A Put
that names its key by a mapped scope alone has no suffix.
-/

set_option autoImplicit false

namespace ZenohRos2
open Rust

/-- What a loop with callbacks did with the frames so far. -/
structure Reported where
  fragAsm : FragmentAssembler
  frames : List Handled

namespace Reported

/-- The callback is called for the Puts that are delivered, and for no other. -/
def Announced (handled : Handled) : Prop := handled.messages ≠ [] ↔ handled.pushes ≠ []

/-- If the two were delivered on different topics, the callback was given different topics. -/
def TellsApart (one other : Handled) : Prop :=
  ∀ push ∈ one.pushes, ∀ second ∈ other.pushes, push.entry.topic ≠ second.entry.topic →
    ∀ message ∈ one.messages, ∀ later ∈ other.messages, message.1 ≠ later.1

structure Faithful (reported : Reported) : Prop where
  announced : ∀ handled ∈ reported.frames, Announced handled
  tellsApart : ∀ one ∈ reported.frames, ∀ other ∈ reported.frames, TellsApart one other

instance (handled : Handled) : Decidable (Announced handled) := inferInstanceAs (Decidable (_ ↔ _))

instance (one other : Handled) : Decidable (TellsApart one other) :=
  inferInstanceAs (Decidable (∀ push ∈ one.pushes, _))

instance : DecidablePred Faithful := fun reported =>
  decidable_of_iff ((∀ handled ∈ reported.frames, Announced handled) ∧
      ∀ one ∈ reported.frames, ∀ other ∈ reported.frames, TellsApart one other)
    ⟨fun both => ⟨both.1, both.2⟩, fun faithful => ⟨faithful.announced, faithful.tellsApart⟩⟩

section Steps
variable [Target]

def step (node : Node) (reported : Reported) (frame : Bytes) : Option Reported :=
  match dispatchFrameWithCallbacks node frame reported.fragAsm with
  | .ok (handled, fragAsm) => some ⟨fragAsm, reported.frames ++ [handled]⟩
  | _ => none

/-- The Put of the frame has a subscription, and its suffix was not given to
the callback with a Put for a subscription on another topic. -/
def Suffixed (node : Node) (reported : Reported) (frame : Bytes) : Prop :=
  ∀ put, incomingPut frame reported.fragAsm = some put →
    ∃ entry, routedEntry node.subscribers put.scope = some entry ∧
      ∀ handled ∈ reported.frames, ∀ push ∈ handled.pushes, push.entry.topic ≠ entry.topic →
        ∀ message ∈ handled.messages, message.1 ≠ put.keySuffix

variable {node : Node} {reported next : Reported} {frame : Bytes}

theorem step_eq_some (step : reported.step node frame = some next) :
    ∃ fragAsm, next = ⟨fragAsm, reported.frames ++ [.ofPut
      (fun put => ⟨routeToSubscribers node.subscribers put, [(put.keySuffix, put.payload)]⟩)
      (incomingPut frame reported.fragAsm)]⟩ := by
  unfold Reported.step at step
  split at step
  · rename_i handled fragAsm ran
    cases step
    exact ⟨fragAsm, by rw [(dispatchWith_ok ran).1]⟩
  · cases step

omit [Target] in
theorem tellsApart_comm {one other : Handled} (apart : TellsApart one other) : TellsApart other one :=
  fun push member second inside different message given later heard =>
    (apart second inside push member different.symm later heard message given).symm

omit [Target] in
theorem faithful_append {fragAsm : FragmentAssembler} {frames : List Handled} {handled : Handled}
    (faithful : (⟨fragAsm, frames⟩ : Reported).Faithful) (own : TellsApart handled handled) (after : FragmentAssembler) :
    (⟨after, frames ++ [handled]⟩ : Reported).Faithful ↔
      Announced handled ∧ ∀ earlier ∈ frames, TellsApart earlier handled := by
  constructor
  · intro whole
    exact ⟨whole.announced handled (by simp), fun earlier member =>
      whole.tellsApart earlier (by simp [member]) handled (by simp)⟩
  · rintro ⟨announced, apart⟩
    constructor
    · intro one member
      rcases List.mem_append.mp member with old | new
      · exact faithful.announced one old
      · rw [List.mem_singleton.mp new]
        exact announced
    · intro one member other inside
      rcases List.mem_append.mp member with old | new
      · rcases List.mem_append.mp inside with early | last
        · exact faithful.tellsApart one old other early
        · rw [List.mem_singleton.mp last]
          exact apart one old
      · rw [List.mem_singleton.mp new]
        rcases List.mem_append.mp inside with early | last
        · exact tellsApart_comm (apart other early)
        · rw [List.mem_singleton.mp last]
          exact own

theorem Faithful.step_iff (faithful : reported.Faithful) (step : reported.step node frame = some next) :
    next.Faithful ↔ Suffixed node reported frame := by
  obtain ⟨fragAsm, rfl⟩ := step_eq_some step
  unfold Suffixed
  cases arrived : incomingPut frame reported.fragAsm with
  | none =>
    rw [faithful_append faithful (by simp [TellsApart, Handled.ofPut, Handled.nothing])]
    simp [Handled.ofPut, Handled.nothing, Announced, TellsApart]
  | some put =>
    cases routed : routedEntry node.subscribers put.scope with
    | none =>
      rw [faithful_append faithful (by simp [TellsApart, Handled.ofPut, routeToSubscribers, routed])]
      simp [Handled.ofPut, routeToSubscribers, routed, Announced]
    | some entry =>
      rw [faithful_append faithful (by simp [TellsApart, Handled.ofPut, routeToSubscribers, routed])]
      simp [Handled.ofPut, routeToSubscribers, routed, Announced, TellsApart]

/-- In every run, the callback is called just for what is delivered, and tells
the topics apart, if and only if every Put has a subscription and the suffix of
no other topic's Put. -/
theorem faithful_iff_suffixed (node : Node) (fragAsm : FragmentAssembler) (frames : List Bytes) :
    Machine.Always (step node) Faithful ⟨fragAsm, []⟩ frames ↔
      Machine.Meets (step node) (Suffixed node) ⟨fragAsm, []⟩ frames :=
  Machine.always_iff_meets (fun _ => True) (fun _ _ => trivial) (fun _ => Faithful.step_iff) trivial
    ⟨by simp, by simp⟩

omit [Target] in
/-- Two subscriptions, each with a Put that names its key by the declared id
alone: both are reported with an empty topic. -/
theorem mapped_puts_confused :
    let chatter : SubscriberEntry := ⟨1, .any, ⟨0, "chatter", "String", "hash"⟩, 0⟩
    let scan : SubscriberEntry := ⟨2, .any, ⟨0, "scan", "String", "hash"⟩, 1⟩
    let node := { Node.built "listener" "" 0 (ZenohId.fromBytes [7]) 10000 10000 with subscribers := [chatter, scan] }
    let first : PushPut := ⟨1, false, none, [], none, none, [], [5]⟩
    let second : PushPut := ⟨2, false, none, [], none, none, [], [6]⟩
    let frames := [frameOf ⟨3, true, []⟩ [first], frameOf ⟨4, true, []⟩ [second]]
    letI := target64
    (Machine.execute (step node) (fun _ _ => True) frames ⟨.new, []⟩).map Reported.frames =
        some [⟨[⟨chatter, [5]⟩], [("", [5])]⟩, ⟨[⟨scan, [6]⟩], [("", [6])]⟩] ∧
      ¬Machine.Always (step node) Faithful ⟨.new, []⟩ frames := by
  decide +kernel

end Steps
end Reported
end ZenohRos2
