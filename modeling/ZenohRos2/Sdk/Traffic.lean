import ZenohRos2.Sdk.Batching
import ZenohRos2.Sdk.Numbering

/-! Runs of the operations of a node, on a transport whose writes succeed.

The operations come one after the other, since each has the node to itself. A
drain is run turn by turn, and other tasks publish between its turns.
-/

set_option autoImplicit false

namespace ZenohRos2
open Rust Cdr

/-- A node with its publishers, and the frames that it has written. -/
structure Traffic where
  system : System
  requestIdGen : UInt32
  sent : List Bytes

section Machine
variable [Target]

inductive Operation where
  | createPublisher (ref : PubRef)
  | createSubscription (topic : TopicKeyExpr) (locality : Locality) (dispatch : SubRef)
  | callService (resp : Ty) (call : ServiceCall) (arrivals : List Arrival)
  | drainPublishers
  /-- The drain goes on. -/
  | turn
  | stamp (ref : PubRef) (data : Bytes) (timestampNs : Int64)
  | enqueue (ref : PubRef) (waiting : Nat)

namespace Traffic

def client (traffic : Traffic) : Client :=
  ⟨⟨traffic.system.world.node, fun _ => true, 0, traffic.sent⟩, traffic.requestIdGen⟩

def left (traffic : Traffic) (client : Client) : Traffic where
  system := { traffic.system with world := { traffic.system.world with node := client.session.node } }
  requestIdGen := client.requestIdGen
  sent := client.session.sent

/-- An operation that runs to its end, whatever it returns. -/
def call {α : Type} (traffic : Traffic) (method : Action Client Error α) : Option Traffic :=
  match traffic.system.control with
  | .idle _ => some (traffic.left (method traffic.client).2)
  | _ => none

def task (traffic : Traffic) (act : Act) : Option Traffic :=
  (traffic.system.step act).map fun system =>
    { traffic with
      system := system
      sent := traffic.sent ++ (system.world.log.drop traffic.system.world.log.length).filterMap Event.frame }

def step (traffic : Traffic) : Operation → Option Traffic
  | .createPublisher ref => traffic.call (Client.run (createPublisher (traffic.system.world.statics ref) ref))
  | .createSubscription topic locality dispatch =>
    traffic.call (Client.run (createSubscription topic locality dispatch))
  | .callService resp call arrivals => traffic.call (callService resp call arrivals)
  | .drainPublishers => traffic.task .call
  | .turn => traffic.task (.turn true)
  | .stamp ref data timestampNs => traffic.task (.stamp ref data timestampNs)
  | .enqueue ref waiting => traffic.task (.enqueue ref waiting)

end Traffic

def Control.begun : Control → Nat
  | .inner _ burst => if burst.batchStarted then 1 else 0
  | _ => 0

namespace Traffic

/-- The written frames carry the numbers 0, 1, 2, and so on, and no number is
lost: the counter stands at the next one. -/
def InOrder (traffic : Traffic) : Prop :=
  Counted traffic.sent traffic.system.world.node.sn traffic.system.control.begun

instance : DecidablePred InOrder := fun _ => inferInstanceAs (Decidable (Counted _ _ _))

/-- The request of a service call fits in its buffer, next to the key expression. -/
def RequestFits (traffic : Traffic) : Operation → Prop
  | .callService _ call _ => call.Fits traffic.system.world.node traffic.requestIdGen
  | _ => True

def Sound (traffic : Traffic) : Prop := traffic.system.control.Sound traffic.system.world

variable {traffic next : Traffic}

omit [Target] in
theorem call_eq_some {α : Type} {method : Action Client Error α} (ran : traffic.call method = some next) :
    (∃ returned, traffic.system.control = .idle returned) ∧ next = traffic.left (method traffic.client).2 := by
  unfold call at ran
  split at ran
  · rename_i returned idle
    exact ⟨⟨returned, idle⟩, (Option.some.inj ran).symm⟩
  · cases ran

omit [Target] in
theorem left_sound {returned : Option (Outcome Error Unit)} (idle : traffic.system.control = .idle returned)
    (client : Client) : (traffic.left client).Sound := by
  change Control.Sound _ traffic.system.control
  rw [idle]
  exact .idle

theorem Sound.step {operation : Operation} (sound : traffic.Sound) (step : traffic.step operation = some next) :
    next.Sound := by
  have called {α : Type} {method : Action Client Error α} (ran : traffic.call method = some next) : next.Sound := by
    obtain ⟨⟨returned, idle⟩, rfl⟩ := call_eq_some ran
    exact left_sound idle _
  have worked {act : Act} (ran : traffic.task act = some next) : next.Sound := by
    obtain ⟨system, stepped, rfl⟩ := Option.map_eq_some_iff.mp ran
    exact (System.stepped_of_step sound stepped).sound
  cases operation with
  | createPublisher => exact called step
  | createSubscription => exact called step
  | callService => exact called step
  | drainPublishers => exact worked step
  | turn => exact worked step
  | stamp => exact worked step
  | enqueue => exact worked step

theorem left_inOrder {returned : Option (Outcome Error Unit)} (idle : traffic.system.control = .idle returned)
    (client : Client) : (traffic.left client).InOrder ↔ Counted client.session.sent client.session.node.sn 0 := by
  change Counted _ _ traffic.system.control.begun ↔ _
  rw [idle]
  rfl

theorem client_steady {returned : Option (Outcome Error Unit)} (idle : traffic.system.control = .idle returned)
    (inOrder : traffic.InOrder) : traffic.client.session.Steady := by
  unfold InOrder at inOrder
  rw [idle] at inOrder
  exact ⟨inOrder, fun _ => rfl⟩

end Traffic

def World.Wrote (world after : World) (frames : List Bytes) : Prop :=
  ∃ events, after.log = world.log ++ events ∧ events.filterMap Event.frame = frames

omit [Target] in
theorem World.Wrote.drop {world after : World} {frames : List Bytes} (wrote : world.Wrote after frames) :
    (after.log.drop world.log.length).filterMap Event.frame = frames := by
  obtain ⟨events, log, same⟩ := wrote
  rw [log, List.drop_left, same]

section Turns
variable {world after : World} {ref : PubRef} {ke : HeaplessString maxKeyExprLen} {flight : List CdrPayload}
  {sent : List Bytes}

def begunBy (flight : List CdrPayload) : Nat := if flight.isEmpty then 0 else 1

omit [Target] in
theorem Sdk.Ready.begun {burst : Burst} (ready : Ready world.node ref ke burst flight) (i : Nat) :
    (Control.inner i burst).begun = begunBy flight := by
  rw [Control.begun, ready.started, begunBy]
  cases flight <;> rfl

theorem Sdk.Batched.frameSn {burst : Burst} (batched : Batched world.node ref ke burst flight) (flying : flight ≠ []) :
    frameSn (flightFrame world.node ke flight) = some (world.node.sn - 1) :=
  frameSn_frameOf (le_isizeMax (Nat.lt_of_le_of_lt (batched.frame_length_le flying) (by decide)))

theorem Sdk.Turned.counted {burst : Burst} {result : Outcome Error (Bool × Burst)} (i : Nat)
    (ready : Ready world.node ref ke burst flight) (counted : Counted sent world.node.sn (begunBy flight))
    (turned : Turned world ref ke flight true (result, after)) :
    ∃ frames, world.Wrote after frames ∧
      Counted (sent ++ frames) after.node.sn (settle (innerNext i) (result, after)).control.begun := by
  cases turned with
  | nothing _ idle =>
    subst idle
    refine ⟨[], ⟨[], (List.append_nil _).symm, rfl⟩, ?_⟩
    rw [List.append_nil]
    exact counted
  | finished _ flying =>
    rw [begunBy, if_neg (by simpa using flying)] at counted
    exact ⟨_, ⟨_, rfl, rfl⟩, counted.write (ready.toBatched.frameSn flying)⟩
  | started _ idle ready' =>
    subst idle
    refine ⟨[], ⟨_, rfl, world.pushes_frames ref _⟩, ?_⟩
    change Counted _ _ (Control.inner i _).begun
    rw [ready'.begun i, List.append_nil]
    exact counted.begin
  | appended _ flying ready' =>
    rw [begunBy, if_neg (by simpa using flying)] at counted
    refine ⟨[], ⟨_, rfl, world.pushes_frames ref _⟩, ?_⟩
    change Counted _ _ (Control.inner i _).begun
    rw [ready'.begun i, List.append_nil, begunBy, if_neg (by simp)]
    exact counted
  | @flushed payload _ _ _ flying ready' =>
    rw [begunBy, if_neg (by simpa using flying)] at counted
    refine ⟨[flightFrame world.node ke flight],
      ⟨world.pushes ref payload ++ [.wrote ref (flightFrame world.node ke flight)], ?_, ?_⟩, ?_⟩
    · exact List.append_assoc _ _ _
    · rw [List.filterMap_append, World.pushes_frames]
      rfl
    · change Counted _ _ (Control.inner i _).begun
      rw [ready'.begun i]
      exact (counted.write (ready.toBatched.frameSn flying)).begin

theorem Control.Sound.begun_of_still {control : Control} (sound : control.Sound world)
    (still : ∀ ref, control.flight ref = []) : control.begun = 0 := by
  cases sound with
  | idle => rfl
  | outer => rfl
  | @session i burst _ ready => rw [begun, ready.idle]; rfl
  | @network i burst ke flight _ ready =>
    have none := Control.flight_network (i := i) ready
    rw [still] at none
    rw [ready.begun i, ← none]
    rfl

theorem turn_counted {system : System} (sound : system.control.Sound system.world)
    (counted : Counted sent system.world.node.sn system.control.begun) :
    ∃ frames, system.world.Wrote (turn Sdk.drainBody true system).world frames ∧
      Counted (sent ++ frames) (turn Sdk.drainBody true system).world.node.sn
        (turn Sdk.drainBody true system).control.begun := by
  obtain ⟨world, control⟩ := system
  cases control with
  | idle =>
    refine ⟨[], ⟨[], (List.append_nil _).symm, rfl⟩, ?_⟩
    rw [List.append_nil]
    exact counted
  | outer i buffers =>
    have sized : buffers.Sized := by
      cases sound with
      | outer sized => exact sized
    obtain ⟨control, turned, sound, still⟩ := turn_outer Sdk.drainBody true world i sized
    refine ⟨[], ?_⟩
    rw [turned, List.append_nil]
    refine ⟨⟨[], (List.append_nil _).symm, rfl⟩, ?_⟩
    simp only
    rw [sound.begun_of_still still]
    exact counted
  | inner i burst =>
    have turned := turn_innerTurned sound true
    generalize turn Sdk.drainBody true ⟨world, .inner i burst⟩ = next at turned ⊢
    cases turned with
    -- A publisher of the session alone writes nothing.
    | emptied only ready empty =>
      rw [Control.begun, ready.idle] at counted
      refine ⟨[], ⟨[], (List.append_nil _).symm, rfl⟩, ?_⟩
      rw [List.append_nil]
      exact counted
    | @passed payload rest next only ready waiting again =>
      rw [Control.begun, ready.idle] at counted
      refine ⟨[], ⟨_, rfl, world.pushes_frames _ payload⟩, ?_⟩
      change Counted (sent ++ []) world.node.sn (Control.inner i next).begun
      rw [Control.begun, again.idle, List.append_nil]
      exact counted
    | sent remote ready turned =>
      rw [settle_world]
      exact turned.counted i ready (by rwa [← ready.begun i])

end Turns

namespace Traffic
variable {traffic next : Traffic}

theorem InOrder.method {method : Method Unit} (preserves : method.Preserves Session.Steady) (inOrder : traffic.InOrder)
    (ran : traffic.call (Client.run method) = some next) : next.InOrder := by
  obtain ⟨⟨returned, idle⟩, rfl⟩ := call_eq_some ran
  exact (left_inOrder idle _).mpr (preserves _ (client_steady idle inOrder)).counted

theorem InOrder.task {act : Act} {system : System} {frames : List Bytes}
    (wrote : traffic.system.world.Wrote system.world frames)
    (counted : Counted (traffic.sent ++ frames) system.world.node.sn system.control.begun)
    (stepped : traffic.system.step act = some system) (ran : traffic.task act = some next) : next.InOrder := by
  unfold Traffic.task at ran
  rw [stepped] at ran
  cases ran
  change Counted (traffic.sent ++ _) _ _
  rw [wrote.drop]
  exact counted

theorem InOrder.step_iff {operation : Operation} (sound : traffic.Sound) (inOrder : traffic.InOrder)
    (step : traffic.step operation = some next) : next.InOrder ↔ traffic.RequestFits operation := by
  have still {act : Act} {system : System} (stepped : traffic.system.step act = some system)
      (ran : traffic.task act = some next) (events : List Event)
      (log : system.world.log = traffic.system.world.log ++ events) (silent : events.filterMap Event.frame = [])
      (node : system.world.node = traffic.system.world.node)
      (begun : system.control.begun = traffic.system.control.begun) : next.InOrder := by
    refine InOrder.task ⟨events, log, silent⟩ ?_ stepped ran
    rw [List.append_nil, node, begun]
    exact inOrder
  cases operation with
  | createPublisher ref => exact iff_of_true (inOrder.method (createPublisher_preserves _ _) step) trivial
  | createSubscription topic locality dispatch =>
    exact iff_of_true (inOrder.method (createSubscription_preserves _ _ _) step) trivial
  | callService resp call arrivals =>
    obtain ⟨⟨returned, idle⟩, rfl⟩ := call_eq_some step
    rw [left_inOrder idle, callService_client]
    exact requestService_counted_iff call (client_steady idle inOrder)
  | drainPublishers =>
    obtain ⟨system, stepped, -⟩ := Option.map_eq_some_iff.mp step
    obtain ⟨⟨returned, idle⟩, rfl⟩ := System.step_call stepped
    refine iff_of_true (still stepped step [] (List.append_nil _).symm rfl rfl ?_) trivial
    rw [idle]
    rfl
  | turn =>
    obtain ⟨system, stepped, -⟩ := Option.map_eq_some_iff.mp step
    obtain ⟨-, rfl⟩ := System.step_turn stepped
    obtain ⟨frames, wrote, counted⟩ := turn_counted sound inOrder
    exact iff_of_true (InOrder.task wrote counted stepped step) trivial
  | stamp ref data timestampNs =>
    obtain ⟨system, stepped, -⟩ := Option.map_eq_some_iff.mp step
    obtain ⟨publisher, -, rfl⟩ := Option.map_eq_some_iff.mp stepped
    exact iff_of_true (still stepped step [] (List.append_nil _).symm rfl rfl rfl) trivial
  | enqueue ref waiting =>
    obtain ⟨system, stepped, -⟩ := Option.map_eq_some_iff.mp step
    obtain ⟨⟨payload, publisher⟩, -, rfl⟩ := Option.map_eq_some_iff.mp stepped
    exact iff_of_true (still stepped step [.sent ref payload] rfl rfl rfl rfl) trivial

def built (statics : PubRef → Publisher) (nodeName «namespace» : String) (domainId : UInt32) (gid : ZenohId)
    (routerLeaseMs ourLeaseMs : UInt64) : Traffic where
  system := ⟨⟨statics, .built nodeName «namespace» domainId gid routerLeaseMs ourLeaseMs, []⟩, .idle none⟩
  requestIdGen := 1
  sent := []

/-- In any run of operations, failing ones among them, the frames carry the
numbers from 0 on without a gap, just when the request of each service call fits. -/
theorem inOrder_iff_requestsFit (statics : PubRef → Publisher) (nodeName «namespace» : String) (domainId : UInt32)
    (gid : ZenohId) (routerLeaseMs ourLeaseMs : UInt64) (operations : List Operation) :
    Machine.Always step InOrder (built statics nodeName «namespace» domainId gid routerLeaseMs ourLeaseMs) operations ↔
      Machine.Meets step RequestFits (built statics nodeName «namespace» domainId gid routerLeaseMs ourLeaseMs)
        operations :=
  Machine.always_iff_meets Sound Sound.step InOrder.step_iff Control.Sound.idle ⟨rfl, rfl⟩

omit [Target] in
/-- After a call whose request of 1000 bytes does not fit, the next frame leaves out a number. -/
theorem number_skipped :
    letI := target64
    let service : TopicKeyExpr := ⟨0, "add", "Add", "hash"⟩
    let call : ServiceCall := ⟨1100, le_isizeMax (by decide), .prim .bytes, (List.replicate 1000 0 : Bytes), service⟩
    let start := built (fun _ => .fresh service .any 8 4) "client" "" 0 (ZenohId.fromBytes [7]) 10000 10000
    let operations : List Operation := [.callService (.prim .u8) call [], .createPublisher 0]
    ((Machine.execute step (fun _ _ => True) operations start).map fun traffic => traffic.sent.map frameSn) =
        some [some 0, some 2] ∧
      ¬Machine.Always step InOrder start operations := by
  decide +kernel

end Traffic
end Machine
end ZenohRos2
