import ZenohRos2.Ros2.Subscription
import ZenohRos2.Sdk.LocalDelivery

/-! Messages on their way from a publisher to the subscriptions of the same node.

Three places cut a message without a word: the scratch buffer of the drain, the
retry slot, and the slots of a subscription. A cut message is a proper prefix
of an encoding, which is never taken for a message.
-/

set_option autoImplicit false

namespace ZenohRos2
open Rust Cdr

/-- Topics that match have the same type. -/
def TopicKeyExpr.key (topic : TopicKeyExpr) : UInt32 × String := (topic.domainId, trimSlashes topic.topicName)

theorem key_eq_of_topicsMatch {a b : TopicKeyExpr} (same : topicsMatch a b) : a.key = b.key := by
  unfold topicsMatch at same
  split at same
  · cases same
  · rename_i domain
    exact Prod.ext (Classical.not_not.mp domain) (beq_iff_eq.mp same)

/-- A node with its publishers, and the subscriptions in front of it. -/
structure LocalPath where
  system : System
  subscribers : SubRef → Subscriber
  sent : List Message
  received : List (SubRef × Outcome Error Message)

inductive LocalAct (types : PubRef → Ty) where
  | send (ref : PubRef) (value : { value : (types ref).Val // (types ref).Within value }) (timestampNs : Int64)
  | task (act : Act)
  | tryRecv (sub : SubRef)
  | clear (sub : SubRef)

namespace LocalPath

def deliver (subscribers : SubRef → Subscriber) : List Event → SubRef → Subscriber
  | [] => subscribers
  | .pushed _ payload entry :: events =>
    deliver (Function.update subscribers entry.dispatch ((subscribers entry.dispatch).push payload.data)) events
  | _ :: events => deliver subscribers events

section Machine
variable [Target] (types : PubRef → Ty) (subTypes : SubRef → Ty)

/-- A `send` that cannot serialize its message changes nothing. -/
def step (path : LocalPath) : LocalAct types → Option LocalPath
  | .send ref value timestampNs =>
    match serializeWithHeader (types ref) value.val (List.replicate (path.system.world.statics ref).cdrCap 0) with
    | .ok (n, raw) => (path.system.step (.stamp ref (raw.take n) timestampNs)).map fun system =>
      { path with system := system, sent := path.sent ++ [⟨types ref, value.val⟩] }
    | _ => some path
  | .task act => (path.system.step act).map fun system =>
    { path with
      system := system
      subscribers := deliver path.subscribers (system.world.log.drop path.system.world.log.length) }
  | .tryRecv sub =>
    match Subscription.tryRecv (subTypes sub) (path.subscribers sub) with
    | none => some path
    | some (result, subscriber) => some { path with
      subscribers := Function.update path.subscribers sub subscriber
      received := path.received ++ [(sub, result)] }
  | .clear sub =>
    some { path with subscribers := Function.update path.subscribers sub (path.subscribers sub).clear }

/-- Every subscription of the node is of the type of its topic. -/
def Typed (typeOf : UInt32 × String → Ty) (node : Node) : Prop :=
  ∀ entry ∈ node.subscribers, subTypes entry.dispatch = typeOf entry.topic.key

instance (typeOf : UInt32 × String → Ty) (node : Node) : Decidable (Typed subTypes typeOf node) :=
  inferInstanceAs (Decidable (∀ entry ∈ node.subscribers, _))

/-- Messages enter by `send`, whose buffer is a Rust array. -/
def allowed (typeOf : UInt32 × String → Ty) (path : LocalPath) : LocalAct types → Prop
  | .send ref _ _ => (path.system.world.statics ref).cdrCap ≤ isizeMax
  | .task (.stamp ..) => False
  | .task (.reconnect node) => Typed subTypes typeOf node
  | _ => True

instance (typeOf : UInt32 × String → Ty) (path : LocalPath) :
    (act : LocalAct types) → Decidable (allowed types subTypes typeOf path act)
  | .send .. => inferInstanceAs (Decidable (_ ≤ _))
  | .task (.stamp ..) => inferInstanceAs (Decidable False)
  | .task (.reconnect node) => inferInstanceAs (Decidable (Typed subTypes typeOf node))
  | .task (.enqueue ..) => inferInstanceAs (Decidable True)
  | .task .call => inferInstanceAs (Decidable True)
  | .task (.turn _) => inferInstanceAs (Decidable True)
  | .tryRecv _ => inferInstanceAs (Decidable True)
  | .clear _ => inferInstanceAs (Decidable True)

end Machine
end LocalPath

/-- What a step adds to the log: it pushes a pending message to matching subscriptions. -/
def World.Grows (world after : World) : Prop :=
  ∃ events, after.log = world.log ++ events ∧ ∀ ref payload entry, Event.pushed ref payload entry ∈ events →
    payload ∈ (world.statics ref).pending ∧ entry ∈ world.node.subscribers ∧
      topicsMatch entry.topic (world.statics ref).topic

def World.DrawsFrom (ref : PubRef) (world after : World) : Prop :=
  ∃ events, after.log = world.log ++ events ∧ ∀ owner payload entry, Event.pushed owner payload entry ∈ events →
    owner = ref ∧ payload ∈ (world.statics ref).pending ∧ entry ∈ world.locals ref

theorem World.draws_silent {world after : World} {ref : PubRef} (events : List Event)
    (log : after.log = world.log ++ events) (silent : ∀ owner payload entry, Event.pushed owner payload entry ∉ events) :
    world.DrawsFrom ref after :=
  ⟨events, log, fun owner payload entry member => absurd member (silent owner payload entry)⟩

theorem World.draws_pushes {world after : World} {ref : PubRef} {message : CdrPayload} {rest : List CdrPayload}
    (waiting : (world.statics ref).pending = message :: rest) (events : List Event)
    (log : after.log = world.log ++ (world.pushes ref message ++ events))
    (silent : ∀ owner payload entry, Event.pushed owner payload entry ∉ events) : world.DrawsFrom ref after := by
  refine ⟨_, log, fun owner payload entry member => ?_⟩
  have pushed := (List.mem_append.mp member).resolve_right (silent owner payload entry)
  rw [World.pushes_eq] at pushed
  obtain ⟨found, inside, same⟩ := List.mem_map.mp pushed
  cases same
  rw [waiting]
  exact ⟨rfl, List.mem_cons_self, inside⟩

theorem World.mem_locals {world : World} {ref : PubRef} {entry : SubscriberEntry} :
    entry ∈ world.locals ref ↔ (world.statics ref).locality ≠ .remote ∧ entry ∈ world.node.subscribers ∧
      entry.locality ≠ .remote ∧ topicsMatch entry.topic (world.statics ref).topic := by
  unfold World.locals localEntries
  by_cases remote : (world.statics ref).locality = .remote
  · simp [remote]
  · simp [remote]

section Turns
variable [Target]

theorem Sdk.Turned.draws {world after : World} {ref : PubRef} {ke : HeaplessString maxKeyExprLen}
    {flight : List CdrPayload} {written : Bool} {result : Outcome Error (Bool × Burst)}
    (turned : Turned world ref ke flight written (result, after)) : world.DrawsFrom ref after := by
  cases turned with
  | nothing => exact World.draws_silent [] (List.append_nil _).symm (by simp)
  | finished => exact World.draws_silent _ rfl (by simp)
  | finishFailed => exact World.draws_silent _ (List.append_assoc _ _ _) (by simp)
  | started waiting => exact World.draws_pushes waiting [] (by simp) (by simp)
  | appended waiting => exact World.draws_pushes waiting [] (by simp) (by simp)
  | flushed waiting => exact World.draws_pushes waiting _ (List.append_assoc _ _ _) (by simp)
  | flushFailed waiting =>
    refine World.draws_pushes waiting (_ :: _) ((List.append_assoc _ _ _).trans (List.append_assoc _ _ _)) (by simp)

theorem turn_draws {world : World} {i : Nat} {burst : Burst} (sound : (Control.inner i burst).Sound world)
    (written : Bool) : world.DrawsFrom burst.drain (turn Sdk.drainBody written ⟨world, .inner i burst⟩).world := by
  have turned := turn_innerTurned sound written
  generalize turn Sdk.drainBody written ⟨world, .inner i burst⟩ = next at turned ⊢
  cases turned with
  | emptied => exact World.draws_silent [] (List.append_nil _).symm (by simp)
  | passed only ready waiting again => exact World.draws_pushes waiting [] (by simp) (by simp)
  | sent remote ready turned =>
    rw [settle_world]
    exact turned.draws

def Control.drain : Control → Option PubRef
  | .inner _ burst => some burst.drain
  | _ => none

theorem System.draws {system next : System} {act : Act} (sound : system.control.Sound system.world)
    (step : system.step act = some next) :
    ∃ events, next.world.log = system.world.log ++ events ∧ ∀ ref payload entry, Event.pushed ref payload entry ∈ events →
      system.control.drain = some ref ∧ payload ∈ (system.world.statics ref).pending ∧
        entry ∈ system.world.locals ref := by
  cases act with
  | stamp ref data timestampNs =>
    obtain ⟨publisher, _, rfl⟩ := Option.map_eq_some_iff.mp step
    exact ⟨[], (List.append_nil _).symm, by simp⟩
  | enqueue ref waiting =>
    obtain ⟨⟨payload, publisher⟩, _, rfl⟩ := Option.map_eq_some_iff.mp step
    exact ⟨[.sent ref payload], rfl, by simp⟩
  | call =>
    obtain ⟨-, rfl⟩ := step_call step
    exact ⟨[], (List.append_nil _).symm, by simp⟩
  | reconnect node =>
    obtain ⟨-, rfl⟩ := step_reconnect step
    exact ⟨[], (List.append_nil _).symm, by simp⟩
  | turn written =>
    obtain ⟨busy, rfl⟩ := step_turn step
    obtain ⟨world, control⟩ := system
    cases control with
    | idle returned => exact absurd rfl (busy returned)
    | outer i buffers =>
      have sized : buffers.Sized := by
        cases sound with
        | outer sized => exact sized
      obtain ⟨control, turned, -, -⟩ := turn_outer Sdk.drainBody written world i sized
      rw [turned]
      exact ⟨[], (List.append_nil _).symm, by simp⟩
    | inner i burst =>
      obtain ⟨events, log, pushed⟩ := turn_draws sound written
      refine ⟨events, log, fun ref payload entry member => ?_⟩
      obtain ⟨rfl, waiting, among⟩ := pushed ref payload entry member
      exact ⟨rfl, waiting, among⟩

theorem System.grows {system next : System} {act : Act} (sound : system.control.Sound system.world)
    (step : system.step act = some next) : system.world.Grows next.world := by
  obtain ⟨events, log, pushed⟩ := System.draws sound step
  refine ⟨events, log, fun ref payload entry member => ?_⟩
  obtain ⟨-, waiting, among⟩ := pushed ref payload entry member
  obtain ⟨-, registered, -, matching⟩ := World.mem_locals.mp among
  exact ⟨waiting, registered, matching⟩

def System.holding (system : System) (ref : PubRef) : List CdrPayload :=
  (system.world.statics ref).stamped ++ (system.control.flight ref ++ (system.world.statics ref).pending)

theorem System.Moves.holding {system next : System} {act : Act} {ref : PubRef} {payload : CdrPayload}
    (moves : Moves ref system next act) (member : payload ∈ next.holding ref) :
    (∃ source ∈ system.holding ref, payload.data <+: source.data) ∨
      ∃ timestampNs, act = .stamp ref payload.data timestampNs := by
  -- As long as nothing enters, what is held is held still, or a piece of it.
  have still (intake : (next.world.statics ref).stamped = (system.world.statics ref).stamped)
      (unsent : ((next.box ref).batch ++ (next.box ref).pending).Sublist
        ((system.box ref).batch ++ (system.box ref).pending)) :
      ∃ source ∈ system.holding ref, payload.data <+: source.data := by
    refine ⟨payload, ?_, List.prefix_rfl⟩
    unfold System.holding at member ⊢
    rw [intake] at member
    exact (List.Sublist.append_left unsent _).subset member
  cases moves with
  | stays intake _ box => exact .inl (still intake.stamped (box ▸ List.Sublist.refl _))
  | drains intake _ step => exact .inl (still intake.stamped step.unsent_sublist)
  | discards _ intake _ _ waiting _ flight =>
    refine .inl (still intake.stamped ?_)
    change (next.control.flight ref ++ _).Sublist (system.control.flight ref ++ (system.world.statics ref).pending)
    rw [flight.1, flight.2, waiting]
    exact List.sublist_cons_self _ _
  | @stamps data timestampNs stamped _ box =>
    unfold System.holding at member
    rw [Publisher.stamp_eq_some stamped, List.append_assoc, List.mem_append] at member
    rcases member with old | new
    · exact .inl ⟨payload, List.mem_append_left _ old, List.prefix_rfl⟩
    rcases List.mem_cons.mp new with rfl | unsent
    · exact .inr ⟨timestampNs, rfl⟩
    · refine .inl ⟨payload, List.mem_append_right _ ?_, List.prefix_rfl⟩
      have same : (next.box ref).batch ++ (next.box ref).pending =
        (system.box ref).batch ++ (system.box ref).pending := by rw [box]
      change payload ∈ (system.box ref).batch ++ (system.box ref).pending
      rw [← same]
      change payload ∈ next.control.flight ref ++ (next.world.statics ref).pending
      rwa [Publisher.stamp_eq_some stamped]
  | @enqueues waiting entering entered _ box =>
    obtain ⟨found, after⟩ := Publisher.enqueue_eq_some entered
    left
    rcases List.mem_append.mp member with old | unsent
    · refine ⟨payload, List.mem_append_left _ ?_, List.prefix_rfl⟩
      rw [after] at old
      exact (List.eraseIdx_sublist _ _).subset old
    · change payload ∈ (next.box ref).batch ++ (next.box ref).pending at unsent
      rw [box] at unsent
      change payload ∈ (system.box ref).batch ++ ((system.box ref).slot.toList ++
        ((system.box ref).queue ++ [entering.clip])) at unsent
      rw [← List.append_assoc (system.box ref).slot.toList, ← List.append_assoc, List.mem_append] at unsent
      rcases unsent with before | new
      · exact ⟨payload, List.mem_append_right _ before, List.prefix_rfl⟩
      · rw [List.mem_singleton.mp new]
        exact ⟨entering, List.mem_append_left _ (List.mem_of_getElem? found), List.take_prefix _ _⟩

end Turns

namespace LocalPath

/-- The front of the encoding of a message that was sent. -/
def Carried [Target] (sent : List Message) (ty : Ty) (data : Bytes) : Prop :=
  ∃ message ∈ sent, message.ty = ty ∧ message.ty.Within message.value ∧ Addressable message.encoded ∧
    data <+: message.encoded

def Genuine (sent : List Message) (ty : Ty) (result : Outcome Error Message) : Prop :=
  (∃ message ∈ sent, message.ty = ty ∧ result = .ok message) ∨ ∃ error, result = .err (.cdr error)

section Runs
variable [Target] {typeOf : UInt32 × String → Ty} {subTypes : SubRef → Ty} {topic : PubRef → TopicKeyExpr}

theorem Carried.cut {sent : List Message} {ty : Ty} {data part : Bytes} (carried : Carried sent ty data)
    (piece : part <+: data) : Carried sent ty part := by
  obtain ⟨message, member, same, within, addressable, front⟩ := carried
  exact ⟨message, member, same, within, addressable, piece.trans front⟩

theorem Carried.more {sent : List Message} {ty : Ty} {data : Bytes} (carried : Carried sent ty data)
    (new : List Message) :
    Carried (sent ++ new) ty data := by
  obtain ⟨message, member, rest⟩ := carried
  exact ⟨message, List.mem_append_left _ member, rest⟩

omit [Target] in
theorem Genuine.more {sent : List Message} {ty : Ty} {result : Outcome Error Message} (genuine : Genuine sent ty result)
    (new : List Message) : Genuine (sent ++ new) ty result := by
  rcases genuine with ⟨message, member, rest⟩ | failed
  · exact .inl ⟨message, List.mem_append_left _ member, rest⟩
  · exact .inr failed

theorem Carried.decoded {sent : List Message} {ty : Ty} {raw : Bytes} (carried : Carried sent ty raw) :
    Genuine sent ty (Subscription.decoded ty raw) := by
  obtain ⟨message, member, rfl, within, addressable, front⟩ := carried
  rcases Subscription.decoded_of_prefix within addressable front with whole | ⟨error, failed⟩
  · exact .inl ⟨message, member, rfl, whole⟩
  · exact .inr ⟨error, failed⟩

omit [Target] in
theorem mem_deliver {events : List Event} {subscribers : SubRef → Subscriber} {sub : SubRef} {raw : Bytes}
    (member : raw ∈ (deliver subscribers events sub).channel) :
    raw ∈ (subscribers sub).channel ∨
      ∃ ref payload entry, Event.pushed ref payload entry ∈ events ∧ entry.dispatch = sub ∧ raw <+: payload.data := by
  induction events generalizing subscribers with
  | nil => exact .inl member
  | cons event events ih =>
    have rest {subscribers : SubRef → Subscriber} (inside : raw ∈ (deliver subscribers events sub).channel) :
        raw ∈ (subscribers sub).channel ∨ ∃ ref payload entry, Event.pushed ref payload entry ∈ event :: events ∧
          entry.dispatch = sub ∧ raw <+: payload.data := by
      rcases ih inside with before | ⟨ref, payload, entry, later, front⟩
      · exact .inl before
      · exact .inr ⟨ref, payload, entry, List.mem_cons_of_mem _ later, front⟩
    cases event with
    | pushed ref payload entry =>
      rcases rest member with before | pushed
      · by_cases mine : entry.dispatch = sub
        · subst mine
          rw [Function.update_self] at before
          rcases Subscriber.mem_push before with waiting | front
          · exact .inl waiting
          · exact .inr ⟨ref, payload, entry, List.mem_cons_self, rfl, front⟩
        · rw [Function.update_of_ne (Ne.symm mine)] at before
          exact .inl before
      · exact .inr pushed
    | sent ref payload => exact rest member
    | wrote ref frame => exact rest member
    | failed point ref frame => exact rest member
    | stashed ref payload occupied => exact rest member

/-- Everything on the way is the front of a message that was sent, for its type. -/
structure Sound (typeOf : UInt32 × String → Ty) (subTypes : SubRef → Ty) (topic : PubRef → TopicKeyExpr)
    (path : LocalPath) : Prop where
  control : path.system.control.Sound path.system.world
  topics : ∀ ref, (path.system.world.statics ref).topic = topic ref
  typed : Typed subTypes typeOf path.system.world.node
  held : ∀ ref, ∀ payload ∈ path.system.holding ref, Carried path.sent (typeOf (topic ref).key) payload.data
  queued : ∀ sub, ∀ raw ∈ (path.subscribers sub).channel, Carried path.sent (subTypes sub) raw
  received : ∀ item ∈ path.received, Genuine path.sent (subTypes item.1) item.2

variable {path next : LocalPath}

theorem Sound.task (sound : Sound typeOf subTypes topic path) {act : Act} {system : System}
    (may : ∀ node, act = .reconnect node → Typed subTypes typeOf node)
    (unstamped : ∀ ref data timestampNs, act ≠ .stamp ref data timestampNs)
    (step : path.system.step act = some system) : Sound typeOf subTypes topic
      { path with
        system := system
        subscribers := deliver path.subscribers (system.world.log.drop path.system.world.log.length) } := by
  have stepped := System.stepped_of_step sound.control step
  refine ⟨stepped.sound, fun ref => (stepped.moves ref).topic.trans (sound.topics ref), ?_, ?_, ?_, sound.received⟩
  · by_cases other : ∀ node, act ≠ .reconnect node
    · unfold Typed
      rw [show system.world.node.subscribers = _ from stepped.tables other]
      exact sound.typed
    · obtain ⟨node, again⟩ := Classical.not_forall.mp other
      obtain rfl := Classical.not_not.mp again
      obtain ⟨-, rfl⟩ := System.step_reconnect step
      exact may node rfl
  · intro ref payload member
    rcases (stepped.moves ref).holding member with ⟨source, before, front⟩ | ⟨timestampNs, stamp⟩
    · exact (sound.held ref source before).cut front
    · exact absurd stamp (unstamped _ _ _)
  · intro sub raw member
    obtain ⟨events, log, pushes⟩ := System.grows sound.control step
    rw [log, List.drop_left] at member
    rcases mem_deliver member with waiting | ⟨ref, payload, entry, pushed, rfl, front⟩
    · exact sound.queued sub raw waiting
    · obtain ⟨pending, registered, matching⟩ := pushes ref payload entry pushed
      -- The subscription has the type of the publisher, since their topics match.
      have same : subTypes entry.dispatch = typeOf (topic ref).key := by
        rw [sound.typed entry registered, ← sound.topics ref]
        exact congrArg typeOf (key_eq_of_topicsMatch matching)
      rw [same]
      exact (sound.held ref payload (List.mem_append_right _ (List.mem_append_right _ pending))).cut front

theorem Sound.send (sound : Sound typeOf subTypes topic path) {ref : PubRef}
    {value : (typeOf (topic ref).key).Val} (within : (typeOf (topic ref).key).Within value)
    (array : (path.system.world.statics ref).cdrCap ≤ isizeMax) {n : Nat} {raw : Bytes} {timestampNs : Int64}
    (ran : serializeWithHeader (typeOf (topic ref).key) value
      (List.replicate (path.system.world.statics ref).cdrCap 0) = .ok (n, raw)) {system : System}
    (step : path.system.step (.stamp ref (raw.take n) timestampNs) = some system) :
    Sound typeOf subTypes topic
      { path with system := system, sent := path.sent ++ [⟨typeOf (topic ref).key, value⟩] } := by
  have stepped := System.stepped_of_step sound.control step
  obtain ⟨count, front, -, fits⟩ := serializeWithHeader_written within ran
  rw [List.length_replicate] at fits
  refine ⟨stepped.sound, fun other => (stepped.moves other).topic.trans (sound.topics other), ?_, ?_,
    fun sub raw member => (sound.queued sub raw member).more _, fun item member => (sound.received item member).more _⟩
  · unfold Typed
    rw [show system.world.node.subscribers = _ from stepped.tables (by simp)]
    exact sound.typed
  · intro other payload member
    rcases (stepped.moves other).holding member with ⟨source, before, piece⟩ | ⟨_, stamp⟩
    · exact ((sound.held other source before).cut piece).more _
    · obtain ⟨rfl, data, -⟩ := Act.stamp.inj stamp
      refine ⟨_, List.mem_append_right _ List.mem_cons_self, rfl, within, ?_, ?_⟩
      · exact Nat.le_trans (Nat.le_of_eq count.symm) (Nat.le_trans fits array)
      · rw [← data, front]
        exact List.prefix_rfl

theorem Sound.queued_update (sound : Sound typeOf subTypes topic path) {sub : SubRef} {subscriber : Subscriber}
    (less : subscriber.channel ⊆ (path.subscribers sub).channel) (other : SubRef) :
    ∀ raw ∈ (Function.update path.subscribers sub subscriber other).channel,
      Carried path.sent (subTypes other) raw := by
  intro raw member
  by_cases mine : other = sub
  · subst mine
    rw [Function.update_self] at member
    exact sound.queued other raw (less member)
  · rw [Function.update_of_ne mine] at member
    exact sound.queued other raw member

theorem Sound.tryRecv (sound : Sound typeOf subTypes topic path) {sub : SubRef} {result : Outcome Error Message}
    {subscriber : Subscriber}
    (taken : Subscription.tryRecv (subTypes sub) (path.subscribers sub) = some (result, subscriber)) :
    Sound typeOf subTypes topic { path with
      subscribers := Function.update path.subscribers sub subscriber
      received := path.received ++ [(sub, result)] } := by
  obtain ⟨⟨raw, rest⟩, popped, same⟩ := Option.map_eq_some_iff.mp taken
  cases same
  unfold Subscriber.tryRecv at popped
  cases channel : (path.subscribers sub).channel with
  | nil =>
    rw [channel] at popped
    cases popped
  | cons first others =>
    rw [channel] at popped
    cases popped
    refine ⟨sound.control, sound.topics, sound.typed, sound.held, sound.queued_update ?_, ?_⟩
    · rw [channel]
      exact List.subset_cons_self _ _
    · intro item member
      rcases List.mem_append.mp member with before | new
      · exact sound.received item before
      · rw [List.mem_singleton.mp new]
        exact (sound.queued sub raw (channel ▸ List.mem_cons_self)).decoded

theorem Sound.clear (sound : Sound typeOf subTypes topic path) (sub : SubRef) : Sound typeOf subTypes topic
    { path with subscribers := Function.update path.subscribers sub (path.subscribers sub).clear } :=
  ⟨sound.control, sound.topics, sound.typed, sound.held, sound.queued_update (List.nil_subset _), sound.received⟩

theorem Sound.step (sound : Sound typeOf subTypes topic path)
    {act : LocalAct fun ref => typeOf (topic ref).key} (may : allowed _ subTypes typeOf path act)
    (step : path.step _ subTypes act = some next) : Sound typeOf subTypes topic next := by
  cases act with
  | send ref value timestampNs =>
    unfold LocalPath.step at step
    simp only at step
    split at step
    · rename_i n raw ran
      obtain ⟨system, stamped, rfl⟩ := Option.map_eq_some_iff.mp step
      exact sound.send value.property may ran stamped
    · cases step
      exact sound
  | task act =>
    obtain ⟨system, ran, rfl⟩ := Option.map_eq_some_iff.mp step
    refine sound.task ?_ ?_ ran
    · rintro node rfl
      exact may
    · rintro ref data timestampNs rfl
      exact may
  | tryRecv sub =>
    unfold LocalPath.step at step
    simp only at step
    split at step
    · cases step
      exact sound
    · rename_i result subscriber taken
      cases step
      exact sound.tryRecv taken
  | clear sub =>
    cases step
    exact sound.clear sub

def initial (topic : PubRef → TopicKeyExpr) (locality : PubRef → Locality) (cdrCap queue : PubRef → Nat)
    (msgSize subQueue : SubRef → Nat) (node : Node) : LocalPath where
  system := .initial (fun ref => .fresh (topic ref) (locality ref) (cdrCap ref) (queue ref)) node
  subscribers sub := .new (msgSize sub) (subQueue sub)
  sent := []
  received := []

theorem initial_sound (locality : PubRef → Locality) (cdrCap queue : PubRef → Nat)
    (msgSize subQueue : SubRef → Nat) {node : Node} (typed : Typed subTypes typeOf node) :
    Sound typeOf subTypes topic (initial topic locality cdrCap queue msgSize subQueue node) where
  control := .idle
  topics _ := rfl
  typed := typed
  held _ _ member := by simp [System.holding, initial, System.initial, Control.flight, Publisher.fresh,
    Publisher.pending] at member
  queued _ _ member := by simp [initial, Subscriber.new] at member
  received _ member := by simp [initial] at member

abbrev Run (typeOf : UInt32 × String → Ty) (subTypes : SubRef → Ty) (topic : PubRef → TopicKeyExpr) :
    LocalPath → LocalPath → Prop :=
  Machine.Run (step (fun ref => typeOf (topic ref).key) subTypes) (allowed _ subTypes typeOf)

theorem Run.sound {start : LocalPath} (run : Run typeOf subTypes topic start path)
    (sound : Sound typeOf subTypes topic start) : Sound typeOf subTypes topic path := by
  apply Machine.Run.invariant (Sound typeOf subTypes topic) run sound
  intro path next act _ before may stepped
  exact before.step may stepped

/-- A proper prefix of a serialized message is an error, so whatever is cut on
the local path, a subscription receives a message that was sent, or an error. -/
theorem truncation_detected (typeOf : UInt32 × String → Ty) (subTypes : SubRef → Ty) (topic : PubRef → TopicKeyExpr)
    (locality : PubRef → Locality) (cdrCap queue : PubRef → Nat) (msgSize subQueue : SubRef → Nat) (node : Node)
    (typed : Typed subTypes typeOf node)
    (run : Run typeOf subTypes topic (initial topic locality cdrCap queue msgSize subQueue node) path) :
    (∀ (ty : Ty) (value : ty.Val) (buf after part missing : Bytes) (n : Nat), ty.Within value → Addressable buf →
      serializeWithHeader ty value buf = .ok (n, after) → after.take n = part ++ missing → missing ≠ [] →
        ∃ error, deserializeWithHeader ty part = .err error) ∧
    ∀ item ∈ path.received,
      (∃ message ∈ path.sent, message.ty = subTypes item.1 ∧ item.2 = .ok message) ∨
        ∃ error, item.2 = .err (.cdr error) := by
  constructor
  · intro ty value buf after part missing n within addressable ran cut more
    obtain ⟨count, front, -, fits⟩ := serializeWithHeader_written within ran
    exact deserializeWithHeader_truncated within (front ▸ cut) more
      (Nat.le_trans (Nat.le_of_eq count.symm) (Nat.le_trans fits addressable))
  · exact (run.sound (initial_sound locality cdrCap queue msgSize subQueue typed)).received

omit [Target] in
/-- Two subscriptions get a message; the slots of the second are too small for it. -/
theorem truncation_detected_two :
    let chatter : TopicKeyExpr := ⟨0, "chatter", "UInt32", "hash"⟩
    let typeOf : UInt32 × String → Ty := fun _ => .prim .u32
    let msgSize : SubRef → Nat := fun sub => if sub = 0 then 8 else 6
    let node := { Node.built "robot" "" 0 (ZenohId.fromBytes [7]) 10000 10000 with
      publishers := [0]
      subscribers := [⟨0, .sessionLocal, chatter, 0⟩, ⟨0, .sessionLocal, chatter, 1⟩] }
    letI := target64
    ∃ path, Run typeOf (fun _ => .prim .u32) (fun _ => chatter)
        (initial (fun _ => chatter) (fun _ => .sessionLocal) (fun _ => 8) (fun _ => 4) msgSize (fun _ => 4) node)
        path ∧
      path.received.length = 2 ∧
      ∀ item ∈ path.received, (∃ message ∈ path.sent, message.ty = .prim .u32 ∧ item.2 = .ok message) ∨
        ∃ error, item.2 = .err (.cdr error) := by
  intro chatter typeOf msgSize node
  let := target64
  obtain ⟨path, run, received⟩ : ∃ path, Run typeOf (fun _ => .prim .u32) (fun _ => chatter)
      (initial (fun _ => chatter) (fun _ => .sessionLocal) (fun _ => 8) (fun _ => 4) msgSize (fun _ => 4) node)
      path ∧ path.received.length = 2 :=
    Machine.exists_run [.send 0 ⟨(5 : UInt32), trivial⟩ 0, .task (.enqueue 0 0), .task .call, .task (.turn true),
      .task (.turn true), .tryRecv 0, .tryRecv 1] (by decide +kernel)
  exact ⟨path, run, received, (truncation_detected typeOf (fun _ => .prim .u32) (fun _ => chatter)
    (fun _ => .sessionLocal) (fun _ => 8) (fun _ => 4) msgSize (fun _ => 4) node (by decide) run).2⟩

end Runs
end LocalPath
end ZenohRos2
