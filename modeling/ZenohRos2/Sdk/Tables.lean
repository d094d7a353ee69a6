import ZenohRos2.Lib.Machine
import ZenohRos2.Sdk.Registration

/-! The tables of a node, over any sequence of registrations.

A run keeps book of what the calls granted: the publishers and subscriptions
whose call returned Ok, and the handles of the timers.
-/

set_option autoImplicit false

namespace ZenohRos2
open Rust

def maxTimers : Nat := 4

structure TimerHandle where
  period : Nat
  id : UInt8
  deriving DecidableEq

/-- `register_timer`: a full table drops the timer, and the handle is returned all the same. -/
def Node.registerTimer (node : Node) (now period : Nat) : TimerHandle × Node :=
  (⟨period, UInt8.ofNat node.timers.length⟩,
    { node with timers := pushWithin maxTimers node.timers ⟨period, now + period⟩ })

section PushWithin
variable {α : Type} {capacity : Nat} {items : List α} {item other : α}

theorem mem_pushWithin_self : item ∈ pushWithin capacity items item ↔ items.length < capacity ∨ item ∈ items := by
  unfold pushWithin
  by_cases room : items.length < capacity <;> simp [room]

theorem mem_pushWithin_of_mem (member : other ∈ items) : other ∈ pushWithin capacity items item := by
  unfold pushWithin
  split
  · exact List.mem_append_left _ member
  · exact member

theorem mem_of_mem_pushWithin (member : other ∈ pushWithin capacity items item) : other ∈ items ∨ other = item := by
  unfold pushWithin at member
  split at member
  · simpa using member
  · exact .inl member

theorem all_mem_pushWithin {granted : List α} (held : ∀ other ∈ granted, other ∈ items) :
    (∀ other ∈ granted ++ [item], other ∈ pushWithin capacity items item) ↔
      items.length < capacity ∨ item ∈ items := by
  rw [← mem_pushWithin_self]
  constructor
  · exact fun all => all item (List.mem_append_right _ List.mem_cons_self)
  · intro room other member
    rcases List.mem_append.mp member with before | new
    · exact mem_pushWithin_of_mem (held other before)
    · rw [List.mem_singleton.mp new]
      exact room

theorem pushWithin_length_le (within : items.length ≤ capacity) : (pushWithin capacity items item).length ≤ capacity := by
  unfold pushWithin
  split
  · rw [List.length_append, List.length_singleton]
    omega
  · exact within

theorem getElem?_pushWithin {i : Nat} (found : items[i]? = some other) :
    (pushWithin capacity items item)[i]? = some other := by
  unfold pushWithin
  split
  · rw [List.getElem?_append_left (List.getElem?_eq_some_iff.mp found).1]
    exact found
  · exact found

end PushWithin

section Grants
variable [Target] {session : Session}

def Session.GrantsPublisher (session : Session) (publisher : Publisher) : Prop :=
  publisher.locality = .sessionLocal ∨ session.Announces .publisher publisher.topic

instance (session : Session) (publisher : Publisher) : Decidable (session.GrantsPublisher publisher) :=
  inferInstanceAs (Decidable (_ ∨ _))

/-- Three frames are written for a subscription that is not for the session alone. -/
def Session.GrantsSubscription (session : Session) (topic : TopicKeyExpr) (locality : Locality) : Prop :=
  locality = .sessionLocal ∨ topic.toKeyExpr.isSome ∧ session.outcomes session.tried ∧
    session.outcomes (session.tried + 1) ∧ (session.node.token .subscriber topic).isSome ∧
    session.outcomes (session.tried + 2)

instance (session : Session) (topic : TopicKeyExpr) (locality : Locality) :
    Decidable (session.GrantsSubscription topic locality) :=
  inferInstanceAs (Decidable (_ ∨ _))

def Session.entry (session : Session) (topic : TopicKeyExpr) (locality : Locality) (dispatch : SubRef) :
    SubscriberEntry :=
  ⟨if locality = .sessionLocal then 0 else session.node.keyIdGen, locality, topic, dispatch⟩

def Node.tables (node : Node) : List PubRef × List SubscriberEntry × List TimerEntry :=
  (node.publishers, node.subscribers, node.timers)

theorem createPublisher_granted (publisher : Publisher) (ref : PubRef) (session : Session) :
    ((createPublisher publisher ref session).1 = .ok () ↔ session.GrantsPublisher publisher) ∧
      (createPublisher publisher ref session).2.node.tables =
        if session.GrantsPublisher publisher then
          (pushWithin maxPubs session.node.publishers ref, session.node.subscribers, session.node.timers)
        else session.node.tables := by
  have created := createPublisher_created publisher ref session
  generalize createPublisher publisher ref session = outcome at created
  cases created with
  | unannounced only => simp [Session.GrantsPublisher, only, Session.withPublisher, Node.tables]
  | exhausted outside last =>
    have none : session.node.token .publisher publisher.topic = none := if_neg (Nat.not_lt.mpr last)
    simp [Session.GrantsPublisher, outside, Session.Announces, none]
  | unnameable outside long =>
    simp [Session.GrantsPublisher, outside, Session.Announces, long.2, Session.named, Node.tables]
  | unwritten outside named failed =>
    simp [Session.GrantsPublisher, outside, Session.Announces, failed, Session.named, Session.refused,
      Session.skipped, Node.tables]
  | announced outside named written =>
    simp [Session.GrantsPublisher, outside, Session.Announces, named, written, Session.withPublisher,
      Session.announced, Session.delivered, Session.skipped, Node.tables]

theorem createSubscription_granted (topic : TopicKeyExpr) (locality : Locality) (dispatch : SubRef)
    (session : Session) :
    ((createSubscription topic locality dispatch session).1 = .ok () ↔
        session.GrantsSubscription topic locality) ∧
      (createSubscription topic locality dispatch session).2.node.tables =
        if session.GrantsSubscription topic locality then
          (session.node.publishers, pushWithin maxSubs session.node.subscribers (session.entry topic locality dispatch),
            session.node.timers)
        else session.node.tables := by
  have created := createSubscription_created topic locality dispatch session
  generalize createSubscription topic locality dispatch session = outcome at created
  cases created with
  | unannounced only =>
    simp [Session.GrantsSubscription, only, Session.withSubscriber, Session.entry, Node.tables]
  | unformatted outside long => simp [Session.GrantsSubscription, outside, long]
  | keyUnwritten outside key failed =>
    simp [Session.GrantsSubscription, outside, failed, Session.keyed, Session.refused, Session.skipped, Node.tables]
  | subscriberUnwritten outside key keyWritten failed =>
    simp [Session.GrantsSubscription, outside, failed, Session.keyed, Session.delivered, Session.refused,
      Session.skipped, Node.tables]
  | exhausted outside declared last =>
    have none : session.node.token .subscriber topic = none := if_neg (Nat.not_lt.mpr last)
    simp [Session.GrantsSubscription, outside, none, Session.declared, Session.keyed, Session.delivered,
      Session.skipped, Node.tables]
  | unnameable outside declared long =>
    simp [Session.GrantsSubscription, outside, long.2, Session.declared, Session.keyed, Session.delivered,
      Session.skipped, Session.named, Node.tables]
  | tokenUnwritten outside declared named failed =>
    simp [Session.GrantsSubscription, outside, failed, Session.declared, Session.keyed, Session.delivered,
      Session.refused, Session.skipped, Session.named, Node.tables]
  | announced outside declared named tokenWritten =>
    simp [Session.GrantsSubscription, outside, declared.key, declared.keyWritten, declared.subscriberWritten, named,
      tokenWritten, Session.entry, Session.declared, Session.keyed, Session.delivered, Session.announced,
      Session.skipped, Session.withSubscriber, Node.tables]

end Grants

structure Registry where
  session : Session
  publishers : List PubRef
  subscriptions : List SubscriberEntry
  timers : List (TimerHandle × TimerEntry)

inductive Registration where
  | createPublisher (ref : PubRef)
  | createSubscription (topic : TopicKeyExpr) (locality : Locality) (dispatch : SubRef)
  | registerTimer (now period : Nat)

namespace Registry

/-- A call that panics ends the run. -/
def called (registry : Registry) (call : Method Unit) (grant : Registry → Registry) : Option Registry :=
  match call registry.session with
  | (.ok (), session) => some (grant { registry with session := session })
  | (.err _, session) => some { registry with session := session }
  | (.panic _, _) => none

/-- The static publishers are given by their references. -/
def step [Target] (statics : PubRef → Publisher) (registry : Registry) : Registration → Option Registry
  | .createPublisher ref => registry.called (ZenohRos2.createPublisher (statics ref) ref) fun registry =>
      { registry with publishers := registry.publishers ++ [ref] }
  | .createSubscription topic locality dispatch =>
    let entry := registry.session.entry topic locality dispatch
    registry.called (ZenohRos2.createSubscription topic locality dispatch) fun registry =>
      { registry with subscriptions := registry.subscriptions ++ [entry] }
  | .registerTimer now period =>
    let (handle, node) := registry.session.node.registerTimer now period
    some { registry with
      session := { registry.session with node := node }
      timers := registry.timers ++ [(handle, ⟨period, now + period⟩)] }

def start (nodeName «namespace» : String) (domainId : UInt32) (gid : ZenohId) (routerLeaseMs ourLeaseMs : UInt64)
    (outcomes : Nat → Bool) : Registry :=
  ⟨⟨Node.built nodeName «namespace» domainId gid routerLeaseMs ourLeaseMs, outcomes, 0, []⟩, [], [], []⟩

/-- What was granted stands in the tables, each timer at the index of its handle. -/
structure Effective (registry : Registry) : Prop where
  publishers : ∀ ref ∈ registry.publishers, ref ∈ registry.session.node.publishers
  subscriptions : ∀ entry ∈ registry.subscriptions, entry ∈ registry.session.node.subscribers
  timers : ∀ granted ∈ registry.timers, registry.session.node.timers[granted.1.id.toNat]? = some granted.2
  distinct : (registry.timers.map (·.1.id)).Nodup

instance : DecidablePred Effective := fun registry =>
  decidable_of_iff ((∀ ref ∈ registry.publishers, ref ∈ registry.session.node.publishers) ∧
      (∀ entry ∈ registry.subscriptions, entry ∈ registry.session.node.subscribers) ∧
      (∀ granted ∈ registry.timers, registry.session.node.timers[granted.1.id.toNat]? = some granted.2) ∧
      (registry.timers.map (·.1.id)).Nodup)
    ⟨fun all => ⟨all.1, all.2.1, all.2.2.1, all.2.2.2⟩,
      fun effective => ⟨effective.publishers, effective.subscriptions, effective.timers, effective.distinct⟩⟩

def Grants (statics : PubRef → Publisher) (registry : Registry) : Registration → Prop
  | .createPublisher ref => registry.session.GrantsPublisher (statics ref)
  | .createSubscription topic locality _ => registry.session.GrantsSubscription topic locality
  | .registerTimer _ _ => True

/-- The call has room in its table, if it gets that far. An entry that stands there needs none. -/
def HasRoom (statics : PubRef → Publisher) (registry : Registry) : Registration → Prop
  | .createPublisher ref => registry.session.GrantsPublisher (statics ref) →
    registry.session.node.publishers.length < maxPubs ∨ ref ∈ registry.session.node.publishers
  | .createSubscription topic locality dispatch => registry.session.GrantsSubscription topic locality →
    registry.session.node.subscribers.length < maxSubs ∨
      registry.session.entry topic locality dispatch ∈ registry.session.node.subscribers
  | .registerTimer _ _ => registry.session.node.timers.length < maxTimers

inductive Stepped (statics : PubRef → Publisher) (registry : Registry) : Registration → Registry → Prop where
  | publisher {ref : PubRef} {session : Session} (grants : registry.session.GrantsPublisher (statics ref))
      (tables : session.node.tables = (pushWithin maxPubs registry.session.node.publishers ref,
        registry.session.node.subscribers, registry.session.node.timers)) :
      Stepped statics registry (.createPublisher ref)
        { registry with session := session, publishers := registry.publishers ++ [ref] }
  | subscription {topic : TopicKeyExpr} {locality : Locality} {dispatch : SubRef} {session : Session}
      (grants : registry.session.GrantsSubscription topic locality)
      (tables : session.node.tables = (registry.session.node.publishers,
        pushWithin maxSubs registry.session.node.subscribers (registry.session.entry topic locality dispatch),
        registry.session.node.timers)) :
      Stepped statics registry (.createSubscription topic locality dispatch)
        { registry with
          session := session
          subscriptions := registry.subscriptions ++ [registry.session.entry topic locality dispatch] }
  | refused {registration : Registration} {session : Session} (failed : ¬registry.Grants statics registration)
      (tables : session.node.tables = registry.session.node.tables) :
      Stepped statics registry registration { registry with session := session }
  | timer (now period : Nat) :
      Stepped statics registry (.registerTimer now period) { registry with
        session := { registry.session with node := (registry.session.node.registerTimer now period).2 }
        timers := registry.timers ++ [((registry.session.node.registerTimer now period).1, ⟨period, now + period⟩)] }

section Steps
variable [Target] {statics : PubRef → Publisher} {registry next : Registry} {registration : Registration}

omit [Target] in
theorem called_eq_some {call : Method Unit} {grant : Registry → Registry} {grants : Prop}
    (granted : (call registry.session).1 = .ok () ↔ grants) (stepped : registry.called call grant = some next) :
    grants ∧ next = grant { registry with session := (call registry.session).2 } ∨
      ¬grants ∧ next = { registry with session := (call registry.session).2 } := by
  unfold called at stepped
  rcases outcome : call registry.session with ⟨result, session⟩
  rw [outcome] at stepped granted
  cases result with
  | ok value => exact .inl ⟨granted.mp rfl, (Option.some.inj stepped).symm⟩
  | err error =>
    refine .inr ⟨fun grants => ?_, (Option.some.inj stepped).symm⟩
    cases granted.mpr grants
  | panic fault => cases stepped

theorem stepped_of_step (stepped : registry.step statics registration = some next) :
    Stepped statics registry registration next := by
  cases registration with
  | createPublisher ref =>
    obtain ⟨granted, tables⟩ := createPublisher_granted (statics ref) ref registry.session
    unfold step at stepped
    rcases called_eq_some granted stepped with ⟨grants, rfl⟩ | ⟨failed, rfl⟩
    · rw [if_pos grants] at tables
      exact .publisher grants tables
    · rw [if_neg failed] at tables
      exact .refused failed tables
  | createSubscription topic locality dispatch =>
    obtain ⟨granted, tables⟩ := createSubscription_granted topic locality dispatch registry.session
    unfold step at stepped
    rcases called_eq_some granted stepped with ⟨grants, rfl⟩ | ⟨failed, rfl⟩
    · rw [if_pos grants] at tables
      exact .subscription grants tables
    · rw [if_neg failed] at tables
      exact .refused failed tables
  | registerTimer now period =>
    cases stepped
    exact .timer now period

/-- The table of the timers holds four of them at most. -/
def Sound (registry : Registry) : Prop := registry.session.node.timers.length ≤ maxTimers

theorem Sound.step (sound : registry.Sound) (stepped : registry.step statics registration = some next) :
    next.Sound := by
  have same {session : Session} {publishers : List PubRef} {subscribers : List SubscriberEntry}
      (tables : session.node.tables = (publishers, subscribers, registry.session.node.timers)) :
      session.node.timers.length ≤ maxTimers := by
    have timers : session.node.timers = registry.session.node.timers := congrArg (·.2.2) tables
    rw [timers]
    exact sound
  cases stepped_of_step stepped with
  | publisher grants tables => exact same tables
  | subscription grants tables => exact same tables
  | refused failed tables => exact same tables
  | timer now period => exact pushWithin_length_le sound

omit [Target] in
theorem registerTimer_effective_iff (sound : registry.Sound) (effective : registry.Effective) (now period : Nat) :
    ((registry.session.node.registerTimer now period).2.timers[
        (UInt8.ofNat registry.session.node.timers.length).toNat]? = some ⟨period, now + period⟩ ∧
      ((registry.timers.map (·.1.id)) ++ [UInt8.ofNat registry.session.node.timers.length]).Nodup) ↔
      registry.session.node.timers.length < maxTimers := by
  have small : registry.session.node.timers.length ≤ 4 := sound
  have index : (UInt8.ofNat registry.session.node.timers.length).toNat = registry.session.node.timers.length := by
    rw [UInt8.toNat_ofNat']
    omega
  rw [index]
  change (pushWithin maxTimers registry.session.node.timers ⟨period, now + period⟩)[_]? = _ ∧ _ ↔ _
  unfold pushWithin
  by_cases room : registry.session.node.timers.length < maxTimers
  · rw [if_pos room]
    refine iff_of_true ⟨?_, ?_⟩ room
    · simp
    · refine List.nodup_append.mpr ⟨effective.distinct, by simp, ?_⟩
      intro id member other single same
      obtain ⟨granted, before, rfl⟩ := List.mem_map.mp member
      rw [List.mem_singleton.mp single] at same
      have found := effective.timers granted before
      rw [same, index, List.getElem?_eq_none (Nat.le_refl _)] at found
      cases found
  · rw [if_neg room]
    apply iff_of_false ?_ room
    rintro ⟨found, -⟩
    rw [List.getElem?_eq_none (Nat.le_refl _)] at found
    cases found

theorem Effective.step_iff (sound : registry.Sound) (effective : registry.Effective)
    (stepped : registry.step statics registration = some next) :
    next.Effective ↔ registry.HasRoom statics registration := by
  -- Only the table of the call changes, so of the others what held still holds.
  cases stepped_of_step stepped with
  | @publisher ref session grants tables =>
    obtain ⟨publishers, rest⟩ := Prod.mk.inj tables
    obtain ⟨subscribers, timers⟩ := Prod.mk.inj rest
    have added : (∀ other ∈ registry.publishers ++ [ref], other ∈ session.node.publishers) ↔
        registry.HasRoom statics (.createPublisher ref) := by
      rw [publishers, all_mem_pushWithin effective.publishers]
      exact ⟨fun room _ => room, fun room => room grants⟩
    rw [← added]
    exact ⟨Effective.publishers, fun all => ⟨all, subscribers ▸ effective.subscriptions,
      timers ▸ effective.timers, effective.distinct⟩⟩
  | @subscription topic locality dispatch session grants tables =>
    obtain ⟨publishers, rest⟩ := Prod.mk.inj tables
    obtain ⟨subscribers, timers⟩ := Prod.mk.inj rest
    have added : (∀ entry ∈ registry.subscriptions ++ [registry.session.entry topic locality dispatch],
        entry ∈ session.node.subscribers) ↔
        registry.HasRoom statics (.createSubscription topic locality dispatch) := by
      rw [subscribers, all_mem_pushWithin effective.subscriptions]
      exact ⟨fun room _ => room, fun room => room grants⟩
    rw [← added]
    exact ⟨Effective.subscriptions, fun all => ⟨publishers ▸ effective.publishers, all,
      timers ▸ effective.timers, effective.distinct⟩⟩
  | refused failed tables =>
    obtain ⟨publishers, rest⟩ := Prod.mk.inj tables
    obtain ⟨subscribers, timers⟩ := Prod.mk.inj rest
    apply iff_of_true ⟨publishers ▸ effective.publishers, subscribers ▸ effective.subscriptions,
      timers ▸ effective.timers, effective.distinct⟩
    cases registration with
    | createPublisher ref => exact fun grants => absurd grants failed
    | createSubscription topic locality dispatch => exact fun grants => absurd grants failed
    | registerTimer now period => exact absurd trivial failed
  | timer now period =>
    apply Iff.trans ?_ (registerTimer_effective_iff sound effective now period)
    constructor
    · intro after
      refine ⟨after.timers _ (List.mem_append_right _ List.mem_cons_self), ?_⟩
      have distinct := after.distinct
      rwa [List.map_append] at distinct
    · rintro ⟨found, distinct⟩
      refine ⟨effective.publishers, effective.subscriptions, ?_, ?_⟩
      · intro granted member
        rcases List.mem_append.mp member with before | new
        · exact getElem?_pushWithin (effective.timers granted before)
        · rw [List.mem_singleton.mp new]
          exact found
      · rw [List.map_append]
        exact distinct

/-- In every run of registrations, what was granted is effective just when each
call that gets to its table finds room there. -/
theorem effective_iff_hasRoom (statics : PubRef → Publisher) (nodeName «namespace» : String) (domainId : UInt32)
    (gid : ZenohId) (routerLeaseMs ourLeaseMs : UInt64) (outcomes : Nat → Bool) (registrations : List Registration) :
    Machine.Always (step statics) Effective
        (start nodeName «namespace» domainId gid routerLeaseMs ourLeaseMs outcomes) registrations ↔
      Machine.Meets (step statics) (HasRoom statics)
        (start nodeName «namespace» domainId gid routerLeaseMs ourLeaseMs outcomes) registrations :=
  Machine.always_iff_meets Sound Sound.step Effective.step_iff (Nat.zero_le _)
    ⟨by simp [start], by simp [start], by simp [start], List.nodup_nil⟩

omit [Target] in
/-- The ninth publisher, the fifth subscription and the fifth timer are granted and dropped. -/
theorem granted_dropped :
    letI := target64
    let statics : PubRef → Publisher := fun _ => .fresh ⟨0, "chatter", "String", "hash"⟩ .sessionLocal 64 4
    let registry := start "node" "" 0 (ZenohId.fromBytes [7]) 10000 10000 fun _ => true
    ¬Machine.Always (step statics) Effective registry ((List.range 9).map .createPublisher) ∧
    ¬Machine.Always (step statics) Effective registry
      ((List.range 5).map (.createSubscription ⟨0, "chatter", "String", "hash"⟩ .sessionLocal)) ∧
    ¬Machine.Always (step statics) Effective registry ((List.range 5).map (.registerTimer 0)) := by
  decide +kernel

end Steps
end Registry
end ZenohRos2
