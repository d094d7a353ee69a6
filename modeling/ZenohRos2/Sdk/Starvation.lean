import ZenohRos2.Sdk.Refinement
import ZenohRos2.Sdk.Tables

/-! Publishers that are accepted and cannot be drained.

A registration checks that the liveliness token fits into 512 bytes; a drain
formats the key expression, which has room for 256. A drain that meets a
publisher without a key expression returns, and goes no further.
-/

set_option autoImplicit false

namespace ZenohRos2
open Rust

def Publisher.Queued (publisher queued : Publisher) : Prop :=
  queued.topic = publisher.topic ∧ queued.locality = publisher.locality

/-- The publishers that are registered have their key expressions. -/
def Drains (statics : PubRef → Publisher) (node : Node) : Prop := ∀ ref ∈ node.publishers, (statics ref).Named

instance (statics : PubRef → Publisher) (node : Node) : Decidable (Drains statics node) :=
  inferInstanceAs (Decidable (∀ ref ∈ node.publishers, _))

section Drain
variable [Target]

/-- The call of `drain_publishers` returns Ok, and leaves every registered publisher empty. -/
def DrainsAll (statics : PubRef → Publisher) (node : Node) : Prop :=
  ∃ after, Reaches Sdk.drainBody (called ⟨statics, node, []⟩) ⟨after, .idle (some (.ok ()))⟩ ∧
    ∀ ref ∈ node.publishers, (after.statics ref).pending = []

theorem drain_stops {statics : PubRef → Publisher} {node : Node} {front rest : List PubRef} {ref : PubRef}
    (table : node.publishers = front ++ ref :: rest) (named : ∀ other ∈ front, (statics other).Named)
    (unnamed : ¬(statics ref).Named) :
    ∃ after, Reaches Sdk.drainBody (called ⟨statics, node, []⟩) ⟨after, .idle (some (.err .invalidArgument))⟩ ∧
      after.statics = emptiedAll front statics := by
  obtain ⟨after, buffers, written, reached, -, writes, emptied⟩ := Sdk.drainsBursts.advances front
    (show (World.mk statics node []).node.publishers.drop 0 = front ++ ref :: rest from table) Buffers.zeroed_sized named
  have found : after.node.publishers[0 + front.length]? = some ref := by
    rw [writes.node]
    change node.publishers[0 + front.length]? = some ref
    rw [table, Nat.zero_add, List.getElem?_append_right (Nat.le_refl _), Nat.sub_self, List.getElem?_cons_zero]
  obtain ⟨remote, missing⟩ := Classical.not_imp.mp unnamed
  -- The publisher itself is as it was before, or empty: its name is the same.
  have locality : (after.statics ref).locality ≠ .sessionLocal := by
    rw [emptied, emptiedAll]
    split <;> exact remote
  have key : (after.statics ref).topic.toKeyExpr = none := by
    rw [emptied, emptiedAll]
    split <;> exact Option.not_isSome_iff_eq_none.mp missing
  refine ⟨after, reached.trans (.head ?_ (.refl _)), emptied⟩
  simp only [turn, outerTurn, Action.bind_of_ok (Action.get_run _), found, if_neg locality, key]
  rfl

theorem drainsAll_iff_named (statics : PubRef → Publisher) (node : Node) :
    DrainsAll statics node ↔ ∀ ref ∈ node.publishers, (statics ref).Named := by
  constructor
  · rintro ⟨after, returned, -⟩
    cases found : node.publishers.find? fun ref => decide ¬(statics ref).Named with
    | none =>
      intro ref member
      have named := List.find?_eq_none.mp found ref member
      rwa [decide_eq_true_eq, not_not] at named
    | some ref =>
      obtain ⟨unnamed, front, rest, table, named⟩ := List.find?_eq_some_iff_append.mp found
      obtain ⟨stopped, failed, -⟩ := drain_stops table
        (fun other member => by simpa using named other member) (of_decide_eq_true unnamed)
      -- The call returns once, with an error or with Ok.
      have same := returned.returns_once failed
      cases same
  · intro named
    obtain ⟨after, written, returned, -, emptied⟩ := Sdk.drainsBursts.completes node.publishers
      (show (World.mk statics node []).node.publishers.drop 0 = _ from List.drop_zero) Buffers.zeroed_sized named
    refine ⟨after, returned, fun ref member => ?_⟩
    rw [emptied]
    exact emptiedAll_pending member statics

end Drain

theorem Publisher.Queued.named_iff {publisher queued : Publisher} (same : publisher.Queued queued) :
    queued.Named ↔ publisher.Named := by
  unfold Publisher.Named
  rw [same.1, same.2]

namespace Registry
section Runs
variable [Target] {statics : PubRef → Publisher} {registry next : Registry} {registration : Registration}

/-- Whatever is queued later, a drain returns Ok and empties every registered publisher. -/
def Drained (statics : PubRef → Publisher) (registry : Registry) : Prop :=
  ∀ queued : PubRef → Publisher, (∀ ref, (statics ref).Queued (queued ref)) →
    DrainsAll queued registry.session.node

theorem drained_iff : registry.Drained statics ↔ ∀ ref ∈ registry.session.node.publishers, (statics ref).Named := by
  constructor
  · intro drained
    exact (drainsAll_iff_named statics registry.session.node).mp (drained statics fun _ => ⟨rfl, rfl⟩)
  · intro named queued same
    exact (drainsAll_iff_named queued registry.session.node).mpr fun ref member =>
      (same ref).named_iff.mpr (named ref member)

/-- A publisher for the network that gets into the table has a key expression of 256 bytes at most. -/
def KeyFits (statics : PubRef → Publisher) (registry : Registry) : Registration → Prop
  | .createPublisher ref => registry.session.GrantsPublisher (statics ref) →
    registry.session.node.publishers.length < maxPubs → (statics ref).locality ≠ .sessionLocal →
      (String.ofList (statics ref).topic.chars).utf8ByteSize ≤ maxKeyExprLen
  | _ => True

theorem Drained.step_iff (drained : registry.Drained statics)
    (stepped : registry.step statics registration = some next) :
    next.Drained statics ↔ registry.KeyFits statics registration := by
  have named := drained_iff.mp drained
  rw [drained_iff]
  have same {session : Session} {subscribers : List SubscriberEntry} {timers : List TimerEntry}
      (tables : session.node.tables = (registry.session.node.publishers, subscribers, timers)) :
      ∀ ref ∈ session.node.publishers, (statics ref).Named := by
    have publishers : session.node.publishers = registry.session.node.publishers := congrArg (·.1) tables
    rw [publishers]
    exact named
  cases stepped_of_step stepped with
  | @publisher ref session grants tables =>
    have publishers : session.node.publishers = pushWithin maxPubs registry.session.node.publishers ref :=
      congrArg (·.1) tables
    have fits : registry.KeyFits statics (.createPublisher ref) ↔
        (registry.session.node.publishers.length < maxPubs → (statics ref).Named) := by
      simp only [KeyFits, Publisher.Named, TopicKeyExpr.toKeyExpr_isSome_iff, forall_prop_of_true grants]
    rw [publishers, fits, pushWithin]
    by_cases room : registry.session.node.publishers.length < maxPubs
    · rw [if_pos room, List.forall_mem_append, List.forall_mem_singleton]
      exact ⟨fun both _ => both.2, fun last => ⟨named, last room⟩⟩
    · rw [if_neg room]
      exact iff_of_true named fun full => absurd full room
  | subscription grants tables => exact iff_of_true (same tables) trivial
  | refused failed tables =>
    apply iff_of_true (same tables)
    cases registration with
    | createPublisher ref => exact fun grants => absurd grants failed
    | createSubscription topic locality dispatch => trivial
    | registerTimer now period => trivial
  | timer now period => exact iff_of_true named trivial

theorem step_of_grants {ref : PubRef} (grants : registry.session.GrantsPublisher (statics ref)) :
    ∃ next, registry.step statics (.createPublisher ref) = some next := by
  have granted := (createPublisher_granted (statics ref) ref registry.session).1.mpr grants
  simp only [step, called]
  rcases outcome : createPublisher (statics ref) ref registry.session with ⟨result, session⟩
  rw [outcome] at granted
  cases granted
  exact ⟨_, rfl⟩

/-- In every run of registrations, every later drain returns Ok and empties all
publishers just when each of those for the network has a key expression that fits. -/
theorem drained_iff_keyFits (statics : PubRef → Publisher) (nodeName «namespace» : String) (domainId : UInt32)
    (gid : ZenohId) (routerLeaseMs ourLeaseMs : UInt64) (outcomes : Nat → Bool) (registrations : List Registration) :
    Machine.Always (step statics) (Drained statics)
        (start nodeName «namespace» domainId gid routerLeaseMs ourLeaseMs outcomes) registrations ↔
      Machine.Meets (step statics) (KeyFits statics)
        (start nodeName «namespace» domainId gid routerLeaseMs ourLeaseMs outcomes) registrations := by
  apply Machine.always_iff_meets (fun _ => True) (fun _ _ => trivial) (fun _ => Drained.step_iff) trivial
  exact drained_iff.mpr (by simp [start, Node.built])

omit [Target] in
/-- With a topic of 250 letters the token fits and the key expression does not. -/
theorem accepted_starves :
    letI := target64
    ¬∀ (statics : PubRef → Publisher) (registrations : List Registration),
      Machine.Always (step statics) (Drained statics)
        (start "talker" "" 0 (ZenohId.fromBytes [7]) 10000 10000 fun _ => true) registrations := by
  let := target64
  intro all
  obtain ⟨name, made⟩ : ∃ name, name = List.replicate 250 'a' := ⟨_, rfl⟩
  have plain : '/' ∉ name := by
    rw [made]
    exact fun member => absurd (List.eq_of_mem_replicate member) (by decide)
  have nonempty : name ≠ [] := by
    rw [made]
    exact fun empty => absurd (congrArg List.length empty) (by rw [List.length_replicate]; decide)
  let topic : TopicKeyExpr := ⟨0, String.ofList name, "String", "hash"⟩
  let statics (_ : PubRef) : Publisher := .fresh topic .any 64 4
  let registry := start "talker" "" 0 (ZenohId.fromBytes [7]) 10000 10000 fun _ => true
  -- Of the two texts only the token has room for the name.
  have long : ¬(String.ofList topic.chars).utf8ByteSize ≤ maxKeyExprLen := by
    have stripped := stripSlash_of_plain plain
    unfold TopicKeyExpr.chars
    change (stripSlash topic.topicName).toList = name at stripped
    generalize (stripSlash topic.topicName).toList = chars at stripped ⊢
    subst stripped made
    decide +kernel
  have fits : (String.ofList (livelinessChars 0 (ZenohId.fromBytes [7]) 0 1 .publisher "" "" "talker" topic.topicName
      "String" "hash")).utf8ByteSize ≤ maxLivelinessLen := by
    have mangled := mangledAbsolute_of_plain plain nonempty
    unfold livelinessChars
    change mangledAbsolute topic.topicName = _ at mangled
    generalize mangledAbsolute topic.topicName = chars at mangled ⊢
    subst mangled made
    decide +kernel
  have next : registry.session.node.entityIdGen.toNat + 1 < 2 ^ 32 := by decide
  have token : (registry.session.node.token .publisher topic).isSome :=
    (congrArg Option.isSome (if_pos next)).trans
      ((buildLivelinessToken_isSome_iff _ _ _ _ _ _ _ _ _ _ _).mpr fits)
  have grants : registry.session.GrantsPublisher (statics 0) := .inr ⟨token, rfl⟩
  obtain ⟨after, stepped⟩ := step_of_grants grants
  have drained : after.Drained statics := (all statics [.createPublisher 0]).next stepped
  have before : registry.Drained statics := drained_iff.mpr (by simp [registry, start, Node.built])
  exact long ((before.step_iff stepped).mp drained grants (by decide) (show Locality.any ≠ .sessionLocal by decide))

end Runs
end Registry
end ZenohRos2
