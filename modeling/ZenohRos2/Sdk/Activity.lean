import ZenohRos2.Sdk.Incoming
import ZenohRos2.Sdk.LocalPath
import ZenohRos2.Sdk.Tables

/-! Whole runs of a node: registrations, messages of other tasks, drains and received frames.

The locality of a publisher or of a subscription never changes. A log of the
pushes says where each payload came from.
-/

set_option autoImplicit false

namespace ZenohRos2
open Rust

inductive Origin where
  | drained (ref : PubRef)
  | received
  deriving DecidableEq

def Event.attempt : Event → Option (Bytes × Bool)
  | .wrote _ frame => some (frame, true)
  | .failed _ _ frame => some (frame, false)
  | _ => none

def Event.delivery : Event → Option (Origin × Delivery)
  | .pushed ref payload entry => some (.drained ref, ⟨entry, payload.data⟩)
  | _ => none

def World.attemptsSince (after before : World) : List (Bytes × Bool) :=
  (after.log.drop before.log.length).filterMap Event.attempt

def World.deliveriesSince (after before : World) : List (Origin × Delivery) :=
  (after.log.drop before.log.length).filterMap Event.delivery

/-- A node with its side of the transport, and what it pushed into subscriptions. -/
structure Activity where
  system : System
  fragAsm : FragmentAssembler
  /-- Outcome of each write to come. -/
  outcomes : Nat → Bool
  tried : Nat
  sent : List Bytes
  pushes : List (Origin × Delivery)

section Machine
variable [Target]

def sendKeepalive : Method Unit := do
  let (n, buf) ← Action.lift ((encodeKeepalive (List.replicate 8 0)).mapErr .transport)
  let payload ← Action.lift (sliceRange buf 0 n)
  Method.write payload

namespace Activity

inductive Input where
  | createPublisher (ref : PubRef)
  | createSubscription (topic : TopicKeyExpr) (dispatch : SubRef)
  | registerTimer (now period : Nat)
  | stamp (ref : PubRef) (data : Bytes) (timestampNs : Int64)
  | enqueue (ref : PubRef) (waiting : Nat)
  | drainPublishers
  /-- The drain goes on. -/
  | turn
  /-- A receive loop begins. -/
  | spin
  | receive (frame : Bytes)
  | sendKeepalive
  deriving DecidableEq

def session (activity : Activity) : Session :=
  ⟨activity.system.world.node, activity.outcomes, activity.tried, activity.sent⟩

def left (activity : Activity) (session : Session) : Activity :=
  { activity with
    system := { activity.system with world := { activity.system.world with node := session.node } }
    outcomes := session.outcomes
    tried := session.tried
    sent := session.sent }

/-- The node runs one method at a time. One that panics ends the run. -/
def call (activity : Activity) (method : Method Unit) : Option Activity :=
  match activity.system.control with
  | .idle _ =>
    match method activity.session with
    | (.panic _, _) => none
    | (_, session) => some (activity.left session)
  | _ => none

def task (activity : Activity) (act : Act) : Option Activity :=
  (activity.system.step act).map fun system =>
    let attempts := system.world.attemptsSince activity.system.world
    { activity with
      system := system
      tried := activity.tried + attempts.length
      sent := activity.sent ++ (attempts.filter (·.2)).map (·.1)
      pushes := activity.pushes ++ system.world.deliveriesSince activity.system.world }

/-- An error ends the receive loop, and the next one begins with a new assembler. -/
def receive (activity : Activity) (frame : Bytes) : Option Activity :=
  match activity.system.control with
  | .idle _ =>
    match dispatchFrame activity.system.world.node frame activity.fragAsm with
    | .ok (handled, fragAsm) => some { activity with
        fragAsm := fragAsm
        pushes := activity.pushes ++ handled.pushes.map fun push => (.received, push) }
    | .err _ => some { activity with fragAsm := .new }
    | .panic _ => none
  | _ => none

def step (localities : SubRef → Locality) (activity : Activity) : Input → Option Activity
  | .createPublisher ref => activity.call (ZenohRos2.createPublisher (activity.system.world.statics ref) ref)
  | .createSubscription topic dispatch =>
    activity.call (ZenohRos2.createSubscription topic (localities dispatch) dispatch)
  | .registerTimer now period => activity.call (Method.modifyNode fun node => (node.registerTimer now period).2)
  | .stamp ref data timestampNs => activity.task (.stamp ref data timestampNs)
  | .enqueue ref waiting => activity.task (.enqueue ref waiting)
  | .drainPublishers => activity.task .call
  -- A turn writes at most one frame.
  | .turn => activity.task (.turn (activity.outcomes activity.tried))
  | .spin =>
    match activity.system.control with
    | .idle _ => some { activity with fragAsm := .new }
    | _ => none
  | .receive frame => activity.receive frame
  | .sendKeepalive => activity.call ZenohRos2.sendKeepalive

def start (statics : PubRef → Publisher) (nodeName «namespace» : String) (domainId : UInt32) (gid : ZenohId)
    (routerLeaseMs ourLeaseMs : UInt64) (outcomes : Nat → Bool) : Activity where
  system := .initial statics (.built nodeName «namespace» domainId gid routerLeaseMs ourLeaseMs)
  fragAsm := .new
  outcomes := outcomes
  tried := 0
  sent := []
  pushes := []

/-- What was pushed stays within the localities of its publisher and its subscription. -/
structure Confined (localities : SubRef → Locality) (statics : PubRef → Publisher) (activity : Activity)
    (push : Origin × Delivery) : Prop where
  /-- What comes to a subscription of this session alone was sent through a publisher of
  this node, whose topic matches. -/
  sessionLocal : localities push.2.entry.dispatch = .sessionLocal →
    ∃ ref ∈ activity.system.world.node.publishers, push.1 = .drained ref ∧
      ((statics ref).locality = .sessionLocal ∨ (statics ref).locality = .any) ∧
      topicsMatch push.2.entry.topic (statics ref).topic ∧
      ∃ payload ∈ (statics ref).pending ++ activity.system.sent ref, payload.data = push.2.payload
  /-- What is drained stays clear of remote publishers and subscriptions. -/
  drained : ∀ ref, push.1 = .drained ref →
    (statics ref).locality ≠ .remote ∧ localities push.2.entry.dispatch ≠ .remote

end Activity

-- What the drain keeps of the tables, and which publisher it is at.
section Turns
variable {world after : World} {ref : PubRef} {ke : HeaplessString maxKeyExprLen} {flight : List CdrPayload}
  {written : Bool} {result : Outcome Error (Bool × Burst)}

theorem Sdk.Turned.publishers (turned : Turned world ref ke flight written (result, after)) :
    after.node.publishers = world.node.publishers := by
  cases turned <;> rfl

theorem Sdk.Turned.drain {next : Burst} (turned : Turned world ref ke flight written (.ok (true, next), after)) :
    next.drain = ref := by
  cases turned with
  | started waiting idle ready => exact ready.drain
  | appended waiting flying ready => exact ready.drain
  | flushed waiting flying ready => exact ready.drain

theorem turn_inner {i : Nat} {burst : Burst} (sound : (Control.inner i burst).Sound world) (written : Bool) :
    (turn Sdk.drainBody written ⟨world, .inner i burst⟩).world.node.publishers = world.node.publishers ∧
      ∀ ref ∈ (turn Sdk.drainBody written ⟨world, .inner i burst⟩).control.drain, ref = burst.drain := by
  have turned := turn_innerTurned sound written
  generalize turn Sdk.drainBody written ⟨world, .inner i burst⟩ = next at turned ⊢
  cases turned with
  | emptied => exact ⟨rfl, fun ref found => by cases found⟩
  | passed only ready waiting again => exact ⟨rfl, fun ref found => (Option.some.inj found).symm.trans again.drain⟩
  | @sent ke flight result after remote ready turned =>
    rw [settle_world]
    refine ⟨turned.publishers, fun ref found => ?_⟩
    cases result with
    | ok value =>
      obtain ⟨more, next⟩ := value
      cases more with
      | true => exact (Option.some.inj found).symm.trans turned.drain
      | false => cases found
    | err error => cases found
    | panic fault => cases found

omit [Target] in
theorem World.entered_drain {i : Nat} {buffers : Buffers} (found : ref ∈ (world.entered i buffers).drain) :
    ref ∈ world.node.publishers := by
  unfold World.entered at found
  cases row : world.node.publishers[i]? with
  | none => simp [row, Control.drain] at found
  | some drain =>
    have member := List.mem_of_getElem? row
    rw [row] at found
    by_cases only : (world.statics drain).locality = .sessionLocal
    · simp only [if_pos only] at found
      exact Option.some.inj found ▸ member
    · simp only [if_neg only] at found
      split at found
      · cases found
      · exact Option.some.inj found ▸ member

theorem turn_publishers {system : System} (sound : system.control.Sound system.world) (written : Bool)
    (before : ∀ ref ∈ system.control.drain, ref ∈ system.world.node.publishers) :
    (turn Sdk.drainBody written system).world.node.publishers = system.world.node.publishers ∧
      ∀ ref ∈ (turn Sdk.drainBody written system).control.drain, ref ∈ system.world.node.publishers := by
  obtain ⟨world, control⟩ := system
  cases control with
  | idle returned => exact ⟨rfl, before⟩
  | outer i buffers =>
    rw [turn_entered]
    exact ⟨rfl, fun ref found => World.entered_drain found⟩
  | inner i burst =>
    obtain ⟨publishers, same⟩ := turn_inner sound written
    exact ⟨publishers, fun ref found => same ref found ▸ before burst.drain rfl⟩

theorem System.publishers_of_step {system next : System} {act : Act} (sound : system.control.Sound system.world)
    (before : ∀ ref ∈ system.control.drain, ref ∈ system.world.node.publishers)
    (same : ∀ node, act ≠ .reconnect node) (step : system.step act = some next) :
    next.world.node.publishers = system.world.node.publishers ∧
      ∀ ref ∈ next.control.drain, ref ∈ system.world.node.publishers := by
  cases act with
  | stamp owner data timestampNs =>
    obtain ⟨publisher, -, rfl⟩ := Option.map_eq_some_iff.mp step
    exact ⟨rfl, before⟩
  | enqueue owner waiting =>
    obtain ⟨⟨payload, publisher⟩, -, rfl⟩ := Option.map_eq_some_iff.mp step
    exact ⟨rfl, before⟩
  | call =>
    obtain ⟨-, rfl⟩ := step_call step
    exact ⟨rfl, fun ref found => by cases found⟩
  | reconnect node => exact absurd rfl (same node)
  | turn written =>
    obtain ⟨-, rfl⟩ := step_turn step
    exact turn_publishers sound written before

end Turns

section Unsent
variable {system next : System} {act : Act} {ref : PubRef} {payload : CdrPayload}

def System.unsent (system : System) (ref : PubRef) : List CdrPayload :=
  system.control.flight ref ++ (system.world.statics ref).pending

theorem System.Moves.sent_mono (moves : Moves ref system next act) (member : payload ∈ system.sent ref) :
    payload ∈ next.sent ref := by
  cases moves with
  | stays intake sent => rwa [sent]
  | drains intake sent => rwa [sent]
  | discards message intake sent => rwa [sent]
  | stamps stamped sent => rwa [sent]
  | enqueues entered sent =>
    rw [sent]
    exact List.mem_append_left _ member

theorem System.Moves.unsent_mem (moves : Moves ref system next act) (member : payload ∈ next.unsent ref) :
    payload ∈ system.unsent ref ∨ payload ∈ next.sent ref := by
  have boxed (box : next.box ref = system.box ref) : payload ∈ system.unsent ref := by
    change payload ∈ (system.box ref).batch ++ (system.box ref).pending
    rw [← box]
    exact member
  cases moves with
  | stays intake sent box => exact .inl (boxed box)
  | drains intake sent step => exact .inl (step.unsent_sublist.subset member)
  | discards message intake sent only waiting same still =>
    left
    unfold System.unsent at member ⊢
    rw [still.2] at member
    rw [still.1, waiting]
    exact List.mem_cons_of_mem _ member
  | stamps stamped sent box => exact .inl (boxed box)
  | @enqueues waiting entering entered sent box =>
    change payload ∈ (next.box ref).batch ++ (next.box ref).pending at member
    rw [box] at member
    change payload ∈ (system.box ref).batch ++ ((system.box ref).slot.toList ++
      ((system.box ref).queue ++ [entering.clip])) at member
    rw [← List.append_assoc (system.box ref).slot.toList, ← List.append_assoc, List.mem_append] at member
    rcases member with before | new
    · exact .inl before
    · rw [sent]
      exact .inr (List.mem_append_right _ new)

end Unsent
namespace Activity

inductive Legit (statics : PubRef → Publisher) (activity : Activity) : Origin × Delivery → Prop where
  | drained {ref : PubRef} {push : Delivery} (registered : ref ∈ activity.system.world.node.publishers)
      (outward : (statics ref).locality ≠ .remote) (inward : push.entry.locality ≠ .remote)
      (matching : topicsMatch push.entry.topic (statics ref).topic)
      (sent : ∃ payload ∈ (statics ref).pending ++ activity.system.sent ref, payload.data = push.payload) :
      Legit statics activity (.drained ref, push)
  | received {push : Delivery} (network : push.entry.network) : Legit statics activity (.received, push)

structure Sound (localities : SubRef → Locality) (statics : PubRef → Publisher) (activity : Activity) : Prop where
  control : activity.system.control.Sound activity.system.world
  topic : ∀ ref, (activity.system.world.statics ref).topic = (statics ref).topic
  locality : ∀ ref, (activity.system.world.statics ref).locality = (statics ref).locality
  entries : ∀ entry ∈ activity.system.world.node.subscribers, entry.locality = localities entry.dispatch
  drain : ∀ ref ∈ activity.system.control.drain, ref ∈ activity.system.world.node.publishers
  unsent : ∀ ref, ∀ payload ∈ activity.system.unsent ref,
    payload ∈ (statics ref).pending ++ activity.system.sent ref
  known : ∀ push ∈ activity.pushes, push.2.entry.locality = localities push.2.entry.dispatch
  legit : ∀ push ∈ activity.pushes, Legit statics activity push

variable {localities : SubRef → Locality} {statics : PubRef → Publisher} {activity next : Activity}
  {push : Origin × Delivery}

omit [Target] in
theorem Legit.more (legit : Legit statics activity push)
    (registered : ∀ ref ∈ activity.system.world.node.publishers, ref ∈ next.system.world.node.publishers)
    (sent : ∀ ref, ∀ payload ∈ activity.system.sent ref, payload ∈ next.system.sent ref) :
    Legit statics next push := by
  cases legit with
  | @drained ref push member outward inward matching source =>
    obtain ⟨payload, among, same⟩ := source
    refine .drained (registered ref member) outward inward matching ⟨payload, ?_, same⟩
    rcases List.mem_append.mp among with before | during
    · exact List.mem_append_left _ before
    · exact List.mem_append_right _ (sent ref payload during)
  | received network => exact .received network

theorem start_sound (localities : SubRef → Locality) (statics : PubRef → Publisher) (nodeName «namespace» : String)
    (domainId : UInt32) (gid : ZenohId) (routerLeaseMs ourLeaseMs : UInt64) (outcomes : Nat → Bool) :
    Sound localities statics (start statics nodeName «namespace» domainId gid routerLeaseMs ourLeaseMs outcomes) where
  control := .idle
  topic _ := rfl
  locality _ := rfl
  entries _ member := by cases member
  drain _ found := by cases found
  unsent _ _ member := List.mem_append_left _ member
  known _ member := by cases member
  legit _ member := by cases member

omit [Target] in
theorem call_eq_some {method : Method Unit} (ran : activity.call method = some next) :
    (∃ returned, activity.system.control = .idle returned) ∧ next = activity.left (method activity.session).2 := by
  unfold call at ran
  split at ran
  · rename_i returned idle
    refine ⟨⟨returned, idle⟩, ?_⟩
    split at ran
    · cases ran
    · rename_i session unpanicked
      rw [unpanicked]
      exact (Option.some.inj ran).symm
  · cases ran

theorem Sound.call (sound : Sound localities statics activity) {method : Method Unit}
    (publishers : ∀ ref ∈ activity.system.world.node.publishers,
      ref ∈ (method activity.session).2.node.publishers)
    (subscribers : ∀ entry ∈ (method activity.session).2.node.subscribers,
      entry ∈ activity.system.world.node.subscribers ∨ entry.locality = localities entry.dispatch)
    (ran : activity.call method = some next) : Sound localities statics next := by
  obtain ⟨⟨returned, idle⟩, rfl⟩ := call_eq_some ran
  refine ⟨?_, sound.topic, sound.locality, ?_, ?_, ?_, sound.known, ?_⟩
  · change Control.Sound _ activity.system.control
    rw [idle]
    exact .idle
  · intro entry member
    exact (subscribers entry member).elim (sound.entries entry) id
  · intro ref found
    exact publishers ref (sound.drain ref found)
  · exact sound.unsent
  · intro push member
    exact (sound.legit push member).more publishers fun _ _ => id

theorem Sound.drawn (sound : Sound localities statics activity) {act : Act} (same : ∀ node, act ≠ .reconnect node)
    {system : System} (step : activity.system.step act = some system)
    (member : push ∈ system.world.deliveriesSince activity.system.world) :
    push.2.entry.locality = localities push.2.entry.dispatch ∧
      Legit statics { activity with system := system } push := by
  obtain ⟨publishers, -⟩ := System.publishers_of_step sound.control sound.drain same step
  obtain ⟨events, log, pushed⟩ := System.draws sound.control step
  rw [World.deliveriesSince, log, List.drop_left, List.mem_filterMap] at member
  obtain ⟨event, among, delivered⟩ := member
  cases event with
  | pushed ref payload entry =>
    cases delivered
    obtain ⟨draining, waiting, near⟩ := pushed ref payload entry among
    obtain ⟨outward, registered, inward, matching⟩ := World.mem_locals.mp near
    rw [sound.locality] at outward
    rw [sound.topic] at matching
    have moves := (System.stepped_of_step sound.control step).moves ref
    have source := sound.unsent ref payload (List.mem_append_right _ waiting)
    refine ⟨sound.entries entry registered, .drained ?_ outward inward matching ⟨payload, ?_, rfl⟩⟩
    · change ref ∈ system.world.node.publishers
      rw [publishers]
      exact sound.drain ref draining
    · exact (List.mem_append.mp source).elim (List.mem_append_left _)
        fun during => List.mem_append_right _ (moves.sent_mono during)
  | sent ref payload => cases delivered
  | wrote ref frame => cases delivered
  | failed point ref frame => cases delivered
  | stashed ref payload occupied => cases delivered

theorem Sound.task (sound : Sound localities statics activity) {act : Act} (same : ∀ node, act ≠ .reconnect node)
    (ran : activity.task act = some next) : Sound localities statics next := by
  obtain ⟨system, step, rfl⟩ := Option.map_eq_some_iff.mp ran
  have stepped := System.stepped_of_step sound.control step
  obtain ⟨publishers, drain⟩ := System.publishers_of_step sound.control sound.drain same step
  refine ⟨stepped.sound, ?_, ?_, ?_, ?_, ?_, ?_, ?_⟩
  · exact fun ref => (stepped.moves ref).topic.trans (sound.topic ref)
  · exact fun ref => (stepped.moves ref).locality.trans (sound.locality ref)
  · intro entry member
    rw [show system.world.node.subscribers = _ from stepped.tables same] at member
    exact sound.entries entry member
  · intro ref found
    rw [publishers]
    exact drain ref found
  · intro ref payload member
    rcases (stepped.moves ref).unsent_mem member with held | during
    · exact (List.mem_append.mp (sound.unsent ref payload held)).elim (List.mem_append_left _)
        fun before => List.mem_append_right _ ((stepped.moves ref).sent_mono before)
    · exact List.mem_append_right _ during
  · intro push member
    exact (List.mem_append.mp member).elim (sound.known push) fun added => (sound.drawn same step added).1
  · intro push member
    rcases List.mem_append.mp member with before | added
    · apply (sound.legit push before).more
      · intro ref registered
        change ref ∈ system.world.node.publishers
        rwa [publishers]
      · exact fun ref payload during => (stepped.moves ref).sent_mono during
    · exact (sound.drawn same step added).2.more (fun _ => id) fun _ _ => id

omit [Target] in
theorem mem_routeToSubscribers {subscribers : List SubscriberEntry} {put : IncomingPut} {delivery : Delivery}
    (member : delivery ∈ routeToSubscribers subscribers put) :
    delivery.entry ∈ subscribers ∧ delivery.entry.network := by
  obtain ⟨entry, found, rfl⟩ := List.mem_map.mp member
  have routed := Option.mem_toList.mp found
  have holds := List.find?_some routed
  rw [Bool.and_eq_true] at holds
  exact ⟨List.mem_of_find?_eq_some routed, holds.1⟩

theorem dispatchFrame_pushes {node : Node} {frame : Bytes} {fragAsm after : FragmentAssembler} {handled : Handled}
    (ran : dispatchFrame node frame fragAsm = .ok (handled, after)) {delivery : Delivery}
    (member : delivery ∈ handled.pushes) : delivery.entry ∈ node.subscribers ∧ delivery.entry.network := by
  obtain ⟨rfl, -⟩ := dispatchWith_ok ran
  cases put : incomingPut frame fragAsm with
  | none => simp [put, Handled.ofPut, Handled.nothing] at member
  | some put' =>
    rw [put] at member
    exact mem_routeToSubscribers member

theorem Sound.receive (sound : Sound localities statics activity) {frame : Bytes}
    (ran : activity.receive frame = some next) : Sound localities statics next := by
  unfold Activity.receive at ran
  split at ran
  · split at ran
    · rename_i handled fragAsm handed
      cases ran
      have new (push : Origin × Delivery) (member : push ∈ handled.pushes.map fun push => (Origin.received, push)) :
          push.2.entry.locality = localities push.2.entry.dispatch ∧ Legit statics activity push := by
        obtain ⟨delivery, among, rfl⟩ := List.mem_map.mp member
        obtain ⟨registered, network⟩ := dispatchFrame_pushes handed among
        exact ⟨sound.entries delivery.entry registered, .received network⟩
      refine ⟨sound.control, sound.topic, sound.locality, sound.entries, sound.drain, sound.unsent, ?_, ?_⟩
      · intro push member
        exact (List.mem_append.mp member).elim (sound.known push) fun added => (new push added).1
      · intro push member
        have legit := (List.mem_append.mp member).elim (sound.legit push) fun added => (new push added).2
        exact legit.more (fun _ => id) fun _ _ => id
    · cases ran
      exact ⟨sound.control, sound.topic, sound.locality, sound.entries, sound.drain, sound.unsent, sound.known,
        fun push member => (sound.legit push member).more (fun _ => id) fun _ _ => id⟩
    · cases ran
  · cases ran

theorem createPublisher_grows (publisher : Publisher) (ref : PubRef) (session : Session) :
    (∀ other ∈ session.node.publishers,
      other ∈ (ZenohRos2.createPublisher publisher ref session).2.node.publishers) ∧
        (ZenohRos2.createPublisher publisher ref session).2.node.subscribers = session.node.subscribers := by
  have tables := (createPublisher_granted publisher ref session).2
  generalize (ZenohRos2.createPublisher publisher ref session).2.node = node at tables
  unfold Node.tables at tables
  split at tables
  · obtain ⟨publishers, rest⟩ := Prod.mk.inj tables
    rw [publishers]
    exact ⟨fun other => mem_pushWithin_of_mem, (Prod.mk.inj rest).1⟩
  · obtain ⟨publishers, rest⟩ := Prod.mk.inj tables
    rw [publishers]
    exact ⟨fun other => id, (Prod.mk.inj rest).1⟩

theorem createSubscription_grows (topic : TopicKeyExpr) (locality : Locality) (dispatch : SubRef) (session : Session) :
    (ZenohRos2.createSubscription topic locality dispatch session).2.node.publishers = session.node.publishers ∧
      ∀ entry ∈ (ZenohRos2.createSubscription topic locality dispatch session).2.node.subscribers,
        entry ∈ session.node.subscribers ∨ entry = session.entry topic locality dispatch := by
  have tables := (createSubscription_granted topic locality dispatch session).2
  generalize (ZenohRos2.createSubscription topic locality dispatch session).2.node = node at tables
  unfold Node.tables at tables
  split at tables
  · obtain ⟨publishers, rest⟩ := Prod.mk.inj tables
    rw [publishers, (Prod.mk.inj rest).1]
    exact ⟨rfl, fun entry => mem_of_mem_pushWithin⟩
  · obtain ⟨publishers, rest⟩ := Prod.mk.inj tables
    rw [publishers, (Prod.mk.inj rest).1]
    exact ⟨rfl, fun entry => .inl⟩

theorem keeps_sendKeepalive : Method.Keeps id ZenohRos2.sendKeepalive := by
  apply Action.Keeps.bind (Action.keeps_lift _)
  intro encoded
  apply Action.Keeps.bind (Action.keeps_lift _)
  intro payload
  exact Method.keeps_write payload

theorem Sound.step (sound : Sound localities statics activity) {input : Input}
    (step : activity.step localities input = some next) : Sound localities statics next := by
  cases input with
  | createPublisher ref =>
    obtain ⟨publishers, subscribers⟩ :=
      createPublisher_grows (activity.system.world.statics ref) ref activity.session
    apply sound.call publishers _ step
    intro entry member
    rw [subscribers] at member
    exact .inl member
  | createSubscription topic dispatch =>
    obtain ⟨publishers, subscribers⟩ :=
      createSubscription_grows topic (localities dispatch) dispatch activity.session
    apply sound.call _ _ step
    · intro ref member
      rw [publishers]
      exact member
    · intro entry member
      rcases subscribers entry member with before | rfl
      · exact .inl before
      · exact .inr rfl
  | registerTimer now period =>
    have ran : activity.call (Method.modifyNode fun node => (node.registerTimer now period).2) = some next := step
    exact sound.call (fun _ => id) (fun _ => .inl) ran
  | stamp ref data timestampNs => exact sound.task (fun _ same => by cases same) step
  | enqueue ref waiting => exact sound.task (fun _ same => by cases same) step
  | drainPublishers => exact sound.task (fun _ same => by cases same) step
  | turn => exact sound.task (fun _ same => by cases same) step
  | spin =>
    -- A new loop only forgets the fragments; what was pushed is as legitimate as before.
    simp only [Activity.step] at step
    split at step
    · cases step
      exact ⟨sound.control, sound.topic, sound.locality, sound.entries, sound.drain, sound.unsent, sound.known,
        fun push member => (sound.legit push member).more (fun _ => id) fun _ _ => id⟩
    · cases step
  | receive frame => exact sound.receive step
  | sendKeepalive =>
    have node : (ZenohRos2.sendKeepalive activity.session).2.node = activity.system.world.node :=
      keeps_sendKeepalive activity.session
    apply sound.call _ _ step
    · intro ref member
      rwa [node]
    · intro entry member
      rw [node] at member
      exact .inl member

theorem Sound.confined (sound : Sound localities statics activity) (member : push ∈ activity.pushes) :
    Confined localities statics activity push := by
  have known := sound.known push member
  have legit := sound.legit push member
  constructor
  · intro only
    cases legit with
    | @drained ref delivery registered outward inward matching sent =>
      refine ⟨ref, registered, rfl, ?_, matching, sent⟩
      cases place : (statics ref).locality with
      | any => exact .inr rfl
      | sessionLocal => exact .inl rfl
      | remote => exact absurd place outward
    | @received delivery network =>
      rw [SubscriberEntry.network, known, only] at network
      simp at network
  · intro ref origin
    cases legit with
    | drained registered outward inward =>
      cases origin
      exact ⟨outward, known ▸ inward⟩
    | received network => cases origin

end Activity
end Machine
end ZenohRos2
