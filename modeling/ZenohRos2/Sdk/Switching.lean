import ZenohRos2.Lib.Machine
import ZenohRos2.Ros2.Subscription
import ZenohRos2.Sdk.Incoming
import ZenohRos2.Sdk.Service
import ZenohRos2.Transport.Body
import ZenohRos2.Transport.Response

/-! The wait of a service call next to `spin`.

Both loops push what they receive into the subscriptions. They are compared
through the Put that a message hands over: a loop pushes it, or does not get to
see it. The wait looks at Frames only, and each loop begins with an assembler
of its own, so a switch of the loops loses the fragments that were held.
-/

set_option autoImplicit false

namespace ZenohRos2
open Rust Cdr

section Pushing
variable [Target] (ty : Ty) (requestId : UInt32) (node : Node)

def Waiting.handlePushing (waiting : Waiting) (frameBuf : Bytes) :
    Outcome Error (Option ty.Val × List Delivery × Waiting) :=
  ifOk (decodeFrameHeader frameBuf) (none, [], waiting) fun (_, _, bodyPos) => do
    let body ← sliceFrom frameBuf bodyPos
    match ← matchResponse ty requestId body with
    | some resp => .ok (some resp, [], waiting)
    | none =>
      match dispatchFrame node frameBuf waiting.fragAsm with
      | .ok (handled, fragAsm) => .ok (none, handled.pushes, { waiting with fragAsm := fragAsm })
      | .err _ => .ok (none, [], waiting)
      | .panic fault => .panic fault

def Waiting.takePushing (waiting : Waiting) (payload : Bytes) :
    Outcome Error (Option ty.Val × List Delivery × Waiting) := do
  let waiting := { waiting with rxBuf := payload ++ waiting.rxBuf.drop payload.length }
  let first ← index waiting.rxBuf 0
  if messageId first = transportId.frame then
    waiting.handlePushing ty requestId node (waiting.rxBuf.take payload.length)
  else if messageId first = transportId.close then .err (.transport .connectionClosed)
  else .ok (none, [], waiting)

/-- The pushes aside, these are the same loops. -/
theorem Waiting.handle_eq (waiting : Waiting) (frameBuf : Bytes) :
    waiting.handle ty requestId node frameBuf =
      (waiting.handlePushing ty requestId node frameBuf >>= fun (found, _, waiting) => .ok (found, waiting)) := by
  unfold handle handlePushing
  cases decodeFrameHeader frameBuf with
  | ok header =>
    simp only [ifOk]
    cases (sliceFrom frameBuf header.2.2 : Outcome Error Bytes) with
    | ok body =>
      simp only [Outcome.ok_bind]
      cases matchResponse ty requestId body with
      | ok found =>
        cases found with
        | some resp => rfl
        | none =>
          simp only [Outcome.ok_bind]
          cases dispatchFrame node frameBuf waiting.fragAsm <;> rfl
      | err error => rfl
      | panic fault => rfl
    | err error => rfl
    | panic fault => rfl
  | err error => rfl
  | panic fault => rfl

theorem Waiting.take_eq (waiting : Waiting) (payload : Bytes) :
    waiting.take ty requestId node payload =
      (waiting.takePushing ty requestId node payload >>= fun (found, _, waiting) => .ok (found, waiting)) := by
  unfold take takePushing
  simp only
  cases (index (payload ++ waiting.rxBuf.drop payload.length) 0 : Outcome Error UInt8) with
  | ok first =>
    simp only [Outcome.ok_bind]
    by_cases frame : messageId first = transportId.frame
    · rw [if_pos frame, if_pos frame, handle_eq]
    · rw [if_neg frame, if_neg frame]
      by_cases close : messageId first = transportId.close
      · rw [if_pos close, if_pos close]
        rfl
      · rw [if_neg close, if_neg close]
        rfl
  | err error => rfl
  | panic fault => rfl

end Pushing

abbrev Pushed := SubRef × Bytes

def Delivery.pushed (push : Delivery) : Pushed := (push.entry.dispatch, push.payload)

inductive Loop where
  /-- No loop runs: messages stay on the stream. -/
  | idle
  | spinning (fragAsm : FragmentAssembler)
  | waiting (ty : Ty) (requestId : UInt32) (locals : Waiting)
  | panicked

/-- The loops of a node, next to a `spin` that is never interrupted. -/
structure Switching where
  whole : Loop
  spun : List Pushed
  loop : Loop
  pushed : List Pushed

inductive SwitchInput where
  | message (frame : Bytes)
  | call (ty : Ty) (requestId : UInt32)
  | spin

/-- A Frame, a Fragment or a KeepAlive that fits the receive buffer. -/
def Readable (frame : Bytes) : Prop :=
  frame.length ≤ rxBufSize ∧
    frame.head?.map parseTransportMsgKind ∈ [some .frame, some .fragment, some .keepAlive]

instance (frame : Bytes) : Decidable (Readable frame) := inferInstanceAs (Decidable (_ ∧ _))

section Loops
variable [Target] (node : Node)

/-- What a loop pushes when it reads a message, and how it goes on. -/
def Loop.take (loop : Loop) (frame : Bytes) : Option (List Pushed × Loop) :=
  match loop with
  | .idle => none
  | .spinning fragAsm =>
    match dispatchFrame node frame fragAsm with
    | .ok (handled, fragAsm) => some (handled.pushes.map Delivery.pushed, .spinning fragAsm)
    | .err _ => some ([], .idle)
    | .panic _ => some ([], .panicked)
  | .waiting ty requestId locals =>
    match locals.takePushing ty requestId node frame with
    | .ok (none, pushes, locals) => some (pushes.map Delivery.pushed, .waiting ty requestId locals)
    | .ok (some _, pushes, _) => some (pushes.map Delivery.pushed, .idle)
    | .err _ => some ([], .idle)
    | .panic _ => some ([], .panicked)
  | .panicked => some ([], .panicked)

def routed (put : IncomingPut) : Option Pushed :=
  (routedEntry node.subscribers put.scope).map fun entry => (entry.dispatch, put.payload)

/-- The payload that a message hands over to a subscription, in a loop that is in this state. -/
def Loop.sees (loop : Loop) (frame : Bytes) : Option Pushed :=
  match loop with
  | .spinning fragAsm => (incomingPut frame fragAsm).bind (routed node)
  | .waiting .. => ((incomingFrame frame).bind bodyPut).bind (routed node)
  | _ => none

namespace Switching

def start : Switching := ⟨.spinning .new, [], .spinning .new, []⟩

def step (switching : Switching) : SwitchInput → Option Switching
  | .message frame =>
    if Readable frame then do
      let (spun, whole) ← switching.whole.take node frame
      let (pushed, loop) ← switching.loop.take node frame
      some ⟨whole, switching.spun ++ spun, loop, switching.pushed ++ pushed⟩
    else none
  | .call ty requestId =>
    match switching.loop with
    | .idle | .spinning _ => some { switching with loop := .waiting ty requestId .start }
    | _ => none
  | .spin =>
    match switching.loop with
    | .idle | .waiting .. => some { switching with loop := .spinning .new }
    | _ => none

/-- A subscription after the pushes, the oldest first. -/
def queueAfter (subscriber : Subscriber) (sub : SubRef) (pushes : List Pushed) : Subscriber :=
  ((pushes.filter fun push => push.1 == sub).map Prod.snd).foldl Subscriber.push subscriber

/-- Every subscription, whatever its size, holds what an uninterrupted `spin` leaves in it. -/
def SameQueues (switching : Switching) : Prop :=
  ∀ subscriber sub, queueAfter subscriber sub switching.pushed = queueAfter subscriber sub switching.spun

/-- The message hands the same to a subscription in both loops. -/
def Undisturbed (switching : Switching) : SwitchInput → Prop
  | .message frame => switching.loop.sees node frame = switching.whole.sees node frame
  | _ => True

end Switching

variable {node}

section Sees
variable {frame : Bytes} {fragAsm : FragmentAssembler}

theorem pushes_of_ok {handled : Handled} {after : FragmentAssembler}
    (ran : dispatchFrame node frame fragAsm = .ok (handled, after)) :
    handled.pushes.map Delivery.pushed = ((incomingPut frame fragAsm).bind (routed node)).toList := by
  rw [(dispatchWith_ok ran).1]
  cases incomingPut frame fragAsm with
  | none => rfl
  | some put =>
    simp only [Handled.ofPut, Option.elim_some, routeToSubscribers, Option.bind_some, routed]
    cases routedEntry node.subscribers put.scope <;> rfl

theorem incomingPut_of_failed (failed : ∀ result, dispatchFrame node frame fragAsm ≠ .ok result) :
    incomingPut frame fragAsm = none := by
  cases found : incomingPut frame fragAsm with
  | none => rfl
  | some put => exact absurd (dispatchWith_of_put found) (failed _)

theorem spinning_take {pushed : List Pushed} {next : Loop}
    (took : (Loop.spinning fragAsm).take node frame = some (pushed, next)) :
    pushed = ((Loop.spinning fragAsm).sees node frame).toList := by
  unfold Loop.take at took
  change pushed = ((incomingPut frame fragAsm).bind (routed node)).toList
  cases ran : dispatchFrame node frame fragAsm with
  | ok result =>
    simp only [ran] at took
    cases took
    exact pushes_of_ok ran
  | err error =>
    simp only [ran] at took
    cases took
    rw [incomingPut_of_failed fun result same => by rw [ran] at same; cases same]
    rfl
  | panic fault =>
    simp only [ran] at took
    cases took
    rw [incomingPut_of_failed fun result same => by rw [ran] at same; cases same]
    rfl

theorem matchResponse_of_put {ty : Ty} {requestId : UInt32} {body : Bytes} {put : IncomingPut}
    (found : bodyPut body = some put) : matchResponse ty requestId body = .ok none := by
  cases body with
  | nil => rfl
  | cons first rest =>
    have push : messageId first = networkId.push := by
      by_contra other
      rw [bodyPut, decodePushPut_other other] at found
      cases found
    have other : decodeResponse (first :: rest) = .ok none :=
      decodeResponse_other (by rw [push]; decide) (by rw [push]; decide)
    rw [matchResponse, other]
    rfl

omit [Target] in
theorem messageId_of_kind {first : UInt8} (kind : parseTransportMsgKind first = .frame) :
    messageId first = transportId.frame := by
  unfold parseTransportMsgKind at kind
  grind

/-- A loop that returns has pushed what was seen; one that does not has seen nothing for a subscription. -/
inductive HandledAs {α : Type} : Outcome Error (α × List Delivery × Waiting) → Option Pushed → Prop where
  | returned {found : α} {pushes : List Delivery} {after : Waiting} {seen : Option Pushed}
      (pushed : pushes.map Delivery.pushed = seen.toList) : HandledAs (.ok (found, pushes, after)) seen
  | err {error : Error} : HandledAs (.err error) none
  | panic {fault : Fault} : HandledAs (.panic fault) none

variable {ty : Ty} {requestId : UInt32} {locals : Waiting}

theorem handlePushing_sees (kind : frame.head?.map parseTransportMsgKind = some .frame) :
    HandledAs (locals.handlePushing ty requestId node frame)
      (((incomingFrame frame).bind bodyPut).bind (routed node)) := by
  unfold Waiting.handlePushing
  cases header : decodeFrameHeader frame with
  | err error =>
    have nothing : incomingFrame frame = none := by simp [incomingFrame, kind, header]
    rw [nothing]
    exact .returned rfl
  | panic fault =>
    have nothing : incomingFrame frame = none := by simp [incomingFrame, kind, header]
    rw [nothing]
    exact .panic
  | ok result =>
    obtain ⟨sn, reliable, bodyPos⟩ := result
    by_cases inside : bodyPos ≤ frame.length
    · have incoming : incomingFrame frame = some (frame.drop bodyPos) := by
        simp [incomingFrame, kind, header, inside]
      rw [incoming, Option.bind_some]
      simp only [ifOk, sliceFrom_eq inside, Outcome.ok_bind]
      have answered (other : matchResponse ty requestId (frame.drop bodyPos) ≠ .ok none) :
          bodyPut (frame.drop bodyPos) = none := by
        cases put : bodyPut (frame.drop bodyPos) with
        | none => rfl
        | some put' => exact absurd (matchResponse_of_put put) other
      have seen (fragAsm : FragmentAssembler) : incomingPut frame fragAsm = bodyPut (frame.drop bodyPos) := by
        rw [incomingPut, incoming, Option.some_or, Option.bind_some]
      cases matched : matchResponse ty requestId (frame.drop bodyPos) with
      | ok found =>
        cases found with
        | some resp =>
          rw [answered (by rw [matched]; exact fun same => by cases same)]
          exact .returned rfl
        | none =>
          rw [← seen locals.fragAsm]
          simp only [Outcome.ok_bind]
          cases ran : dispatchFrame node frame locals.fragAsm with
          | ok result => exact .returned (pushes_of_ok ran)
          | err error =>
            rw [incomingPut_of_failed fun result same => by rw [ran] at same; cases same]
            exact .returned rfl
          | panic fault =>
            rw [incomingPut_of_failed fun result same => by rw [ran] at same; cases same]
            exact .panic
      | err error =>
        rw [answered (by rw [matched]; exact fun same => by cases same)]
        exact .err
      | panic fault =>
        rw [answered (by rw [matched]; exact fun same => by cases same)]
        exact .panic
    · have nothing : incomingFrame frame = none := by simp [incomingFrame, kind, header, inside]
      have outside : (sliceFrom frame bodyPos : Outcome Error Bytes) = .panic .outOfBounds := if_neg inside
      rw [nothing]
      simp only [ifOk, outside]
      exact .panic

theorem takePushing_sees (readable : Readable frame) :
    HandledAs (locals.takePushing ty requestId node frame)
      (((incomingFrame frame).bind bodyPut).bind (routed node)) := by
  obtain ⟨-, kind⟩ := readable
  cases frame with
  | nil => simp at kind
  | cons first rest =>
    let read : Waiting := { locals with rxBuf := first :: rest ++ locals.rxBuf.drop (first :: rest).length }
    have front : read.rxBuf.take (first :: rest).length = first :: rest := List.take_left
    change HandledAs (index read.rxBuf 0 >>= fun first' => if messageId first' = transportId.frame then
      read.handlePushing ty requestId node (read.rxBuf.take (first :: rest).length) else _) _
    rw [show (index read.rxBuf 0 : Outcome Error UInt8) = .ok first from rfl, Outcome.ok_bind, front]
    by_cases frame : messageId first = transportId.frame
    · rw [if_pos frame]
      exact handlePushing_sees (by simp [parseTransportMsgKind_frame frame])
    -- A Fragment and a KeepAlive are read and left.
    · have other : parseTransportMsgKind first ≠ .frame := fun same => frame (messageId_of_kind same)
      have nothing : incomingFrame (first :: rest) = none := by simp [incomingFrame, other]
      have open_ : messageId first ≠ transportId.close := by
        intro close
        have closed : parseTransportMsgKind first = .close := by
          rw [parseTransportMsgKind, close]
          rfl
        simp [closed] at kind
      rw [if_neg frame, if_neg open_, nothing]
      exact .returned rfl

theorem Loop.take_sees {loop next : Loop} {pushed : List Pushed} (readable : Readable frame)
    (took : loop.take node frame = some (pushed, next)) : pushed = (loop.sees node frame).toList := by
  cases loop with
  | idle => cases took
  | spinning fragAsm => exact spinning_take took
  | waiting ty requestId locals =>
    have handled : HandledAs (locals.takePushing ty requestId node frame)
        (((incomingFrame frame).bind bodyPut).bind (routed node)) := takePushing_sees readable
    unfold Loop.take at took
    simp only at took
    change pushed = (((incomingFrame frame).bind bodyPut).bind (routed node)).toList
    generalize locals.takePushing ty requestId node frame = outcome at took handled
    generalize ((incomingFrame frame).bind bodyPut).bind (routed node) = seen at handled ⊢
    cases handled with
    | @returned found pushes after seen same =>
      cases found with
      | none =>
        cases took
        exact same
      | some resp =>
        cases took
        exact same
    | err =>
      cases took
      rfl
    | panic =>
      cases took
      rfl
  | panicked =>
    cases took
    rfl

end Sees

namespace Switching

/-- The message that a Fragment completes in the assembler of a loop. A wait does not feed its own. -/
def completed (frame : Bytes) : Loop → Option Bytes
  | .spinning fragAsm => assembled frame fragAsm
  | _ => none

section Conditions
variable {switching : Switching} {frame : Bytes}

/-- A Frame hands the same to a subscription in any two loops that run. -/
theorem undisturbed_frame (kind : frame.head?.map parseTransportMsgKind = some .frame)
    (runs : ∀ loop ∈ [switching.loop, switching.whole], (∃ fragAsm, loop = .spinning fragAsm) ∨
      ∃ ty requestId locals, loop = .waiting ty requestId locals) : Undisturbed node switching (.message frame) := by
  have sees (loop : Loop) (member : loop ∈ [switching.loop, switching.whole]) :
      loop.sees node frame = ((incomingFrame frame).bind bodyPut).bind (routed node) := by
    rcases runs loop member with ⟨fragAsm, rfl⟩ | ⟨ty, requestId, locals, rfl⟩
    · have whole : assembled frame fragAsm = none := by simp [assembled, incomingFragment, kind]
      rw [Loop.sees, incomingPut, whole, Option.or_none]
    · rfl
  exact (sees _ (by simp)).trans (sees _ (by simp)).symm

/-- A Fragment has to complete the same Put for a subscription in both loops, or none. -/
theorem undisturbed_fragment_iff (kind : frame.head?.map parseTransportMsgKind = some .fragment) :
    Undisturbed node switching (.message frame) ↔
      ((completed frame switching.loop).bind bodyPut).bind (routed node) =
        ((completed frame switching.whole).bind bodyPut).bind (routed node) := by
  have none : incomingFrame frame = none := by simp [incomingFrame, kind]
  have sees (loop : Loop) : loop.sees node frame = ((completed frame loop).bind bodyPut).bind (routed node) := by
    cases loop with
    | spinning fragAsm => rw [Loop.sees, incomingPut, none, Option.none_or, completed]
    | waiting ty requestId locals => rw [Loop.sees, none]; rfl
    | idle => rfl
    | panicked => rfl
  rw [Undisturbed, sees, sees]

end Conditions

def payloadsFor (sub : SubRef) (pushes : List Pushed) : List Bytes :=
  (pushes.filter fun push => push.1 == sub).map Prod.snd

omit [Target] in
theorem exists_length_bound (payloads : List Bytes) : ∃ bound, ∀ payload ∈ payloads, payload.length ≤ bound := by
  induction payloads with
  | nil => exact ⟨0, by simp⟩
  | cons payload payloads ih =>
    obtain ⟨bound, fits⟩ := ih
    refine ⟨max payload.length bound, fun other member => ?_⟩
    rcases List.mem_cons.mp member with rfl | rest
    · exact Nat.le_max_left _ _
    · exact Nat.le_trans (fits other rest) (Nat.le_max_right _ _)

omit [Target] in
theorem sameQueues_iff (switching : Switching) :
    switching.SameQueues ↔ ∀ sub, payloadsFor sub switching.pushed = payloadsFor sub switching.spun := by
  constructor
  · intro same sub
    obtain ⟨bound, fits⟩ :=
      exists_length_bound (payloadsFor sub switching.pushed ++ payloadsFor sub switching.spun)
    let roomy := Subscriber.new bound ((payloadsFor sub switching.pushed).length + (payloadsFor sub switching.spun).length)
    have holds (pushes : List Bytes) (inside : ∀ payload ∈ pushes, payload.length ≤ bound)
        (room : pushes.length ≤ roomy.queue) : (pushes.foldl Subscriber.push roomy).channel = pushes :=
      Subscriber.foldl_push_channel inside (by simpa [roomy, Subscriber.new] using room)
    have channels : ((payloadsFor sub switching.pushed).foldl Subscriber.push roomy).channel =
        ((payloadsFor sub switching.spun).foldl Subscriber.push roomy).channel :=
      congrArg Subscriber.channel (same roomy sub)
    rwa [holds _ (fun payload member => fits payload (List.mem_append_left _ member)) (Nat.le_add_right _ _),
      holds _ (fun payload member => fits payload (List.mem_append_right _ member)) (Nat.le_add_left _ _)] at channels
  · intro same subscriber sub
    exact congrArg (List.foldl Subscriber.push subscriber) (same sub)

omit [Target] in
theorem payloadsFor_append (sub : SubRef) (before after : List Pushed) :
    payloadsFor sub (before ++ after) = payloadsFor sub before ++ payloadsFor sub after := by
  rw [payloadsFor, List.filter_append, List.map_append]
  rfl

omit [Target] in
theorem payloadsFor_eq_iff {one other : Option Pushed} :
    (∀ sub, payloadsFor sub one.toList = payloadsFor sub other.toList) ↔ one = other := by
  constructor
  · intro same
    cases one with
    | none =>
      cases other with
      | none => rfl
      | some push =>
        have here := same push.1
        simp [payloadsFor] at here
    | some push =>
      have here := same push.1
      cases other with
      | none => simp [payloadsFor] at here
      | some second =>
        by_cases own : second.1 = push.1
        · have payload : push.2 = second.2 := by simpa [payloadsFor, own] using here
          rw [Prod.ext own.symm payload]
        · simp [payloadsFor, own] at here
  · rintro rfl sub
    rfl

variable {switching next : Switching} {input : SwitchInput}

theorem SameQueues.step_iff (same : SameQueues switching) (step : switching.step node input = some next) :
    SameQueues next ↔ Undisturbed node switching input := by
  cases input with
  -- A switch of the loops pushes nothing.
  | call ty requestId =>
    apply iff_of_true _ trivial
    obtain ⟨whole, spun, loop, pushed⟩ := switching
    cases loop <;> cases step <;> exact same
  | spin =>
    apply iff_of_true _ trivial
    obtain ⟨whole, spun, loop, pushed⟩ := switching
    cases loop <;> cases step <;> exact same
  | message frame =>
    change (if Readable frame then _ else none) = some next at step
    by_cases readable : Readable frame
    · rw [if_pos readable] at step
      obtain ⟨⟨spun, whole⟩, took, rest⟩ := Option.bind_eq_some_iff.mp step
      obtain ⟨⟨pushed, loop⟩, read, last⟩ := Option.bind_eq_some_iff.mp rest
      cases last
      have before := (sameQueues_iff switching).mp same
      rw [sameQueues_iff, Loop.take_sees readable took, Loop.take_sees readable read]
      simp only [payloadsFor_append, before, List.append_cancel_left_eq]
      exact payloadsFor_eq_iff
    · rw [if_neg readable] at step
      cases step

/-- In every run, the subscriptions hold what an uninterrupted `spin` leaves in
them, just when each message hands the same to them in both loops. -/
theorem sameQueues_iff_undisturbed (node : Node) (inputs : List SwitchInput) :
    Machine.Always (step node) SameQueues start inputs ↔ Machine.Meets (step node) (Undisturbed node) start inputs :=
  Machine.always_iff_meets (fun _ => True) (fun _ _ => trivial) (fun _ => SameQueues.step_iff) trivial
    (fun _ _ => rfl)

omit [Target] in
/-- A Put in two fragments that arrive during a call is not delivered. -/
theorem fragments_ignored :
    let entry : SubscriberEntry := ⟨1, .any, ⟨0, "chatter", "String", "hash"⟩, 0⟩
    let node := { Node.built "client" "" 0 (ZenohId.fromBytes [7]) 10000 10000 with subscribers := [entry] }
    let put : PushPut := ⟨1, false, none, [], none, none, [], [5, 6]⟩
    let inputs : List SwitchInput := [.call (.prim .u8) 1, .message (0x66 :: 3 :: put.bytes.take 3),
      .message (0x26 :: 4 :: put.bytes.drop 3)]
    letI := target64
    (Machine.execute (step node) (fun _ _ => True) inputs start).map (fun last => (last.spun, last.pushed)) =
        some ([(0, [5, 6])], []) ∧
      ¬Machine.Always (step node) SameQueues start inputs := by
  intro entry node put inputs
  let := target64
  have ran : (Machine.execute (step node) (fun _ _ => True) inputs start).map (fun last => (last.spun, last.pushed)) =
      some ([(0, [5, 6])], []) := by decide +kernel
  refine ⟨ran, fun always => ?_⟩
  obtain ⟨last, reached, queues⟩ := Option.map_eq_some_iff.mp ran
  have same := (sameQueues_iff last).mp (always.last reached) 0
  obtain ⟨spun, pushed⟩ := Prod.mk.inj queues
  rw [spun, pushed] at same
  revert same
  decide

end Switching
end Loops
end ZenohRos2
