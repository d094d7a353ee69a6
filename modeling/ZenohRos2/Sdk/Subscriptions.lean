import ZenohRos2.Sdk.Routing

/-! Received messages and the subscriptions of a node.

A key expression that the node declared stands in a `D_KEYEXPR` frame it sent;
`declared` reads it back from there. A Put denotes a key expression through its
scope and suffix, and `receivers` are the subscriptions it is meant for. The
route compares neither suffix nor mapping and cuts the scope to 16 bits; what
has to hold for it to reach exactly the receivers is `RouteCondition`.
-/

set_option autoImplicit false

namespace ZenohRos2
open Rust

section Declared
variable [Target]

/-- Key id and key expression of a frame with a `D_KEYEXPR` declaration. -/
def readDeclaredKeyexpr (frame : Bytes) : Decode (UInt64 × String) := do
  let (_, _, pos) ← decodeFrameHeader frame
  let declare ← index frame pos
  let kind ← index frame (pos + 1)
  if declare ≠ networkId.declare ∨ messageId kind ≠ declareId.dKeyexpr then .err .invalidEncoding
  else do
    let (keyId, pos) ← readVbyte frame (pos + 2)
    let (_, pos) ← readVbyte frame pos
    let (keyExpr, _) ← readSuffix (hasFlag kind declareKeyexprFlag.n) frame pos
    .ok (keyId, keyExpr)

def declaredKeyexpr (frame : Bytes) : Option (UInt64 × String) :=
  match readDeclaredKeyexpr frame with
  | .ok declared => some declared
  | _ => none

/-- The key expression sent last with this id. -/
def declared (sent : List Bytes) (keyId : UInt64) : Option String :=
  ((sent.filterMap declaredKeyexpr).reverse.find? fun declaration => declaration.1 == keyId).map (·.2)

/-- What the scope of a Put stands for, unless it is 0. -/
def knownScope (sent : List Bytes) (message : PushPut) : Option String :=
  if message.mapped then none else declared sent message.scope

/-- The key expression a Put denotes, as far as the receiver knows it. -/
def denoted (sent : List Bytes) (message : PushPut) : Option String :=
  if message.scope = 0 then some (message.suffix.getD "")
  else (knownScope sent message).map fun keyExpr => keyExpr ++ message.suffix.getD ""

end Declared

def SubscriberEntry.keyExpr (entry : SubscriberEntry) : Option String :=
  entry.topic.toKeyExpr.map HeaplessString.text

/-- The subscriptions that are not local to the session and have the key expression. -/
def receivers (subscribers : List SubscriberEntry) (keyExpr : Option String) : List SubscriberEntry :=
  subscribers.filter fun entry =>
    entry.locality ≠ .sessionLocal && (keyExpr.isSome && entry.keyExpr == keyExpr)

/-- What keeps the route right. With scope 0, no subscription has the inline key
expression. With a scope whose meaning is unknown, no network subscription has
its low 16 bits as key id. With a declared scope, the subscriptions to the
denoted key expression are those with the key id. -/
def RouteCondition [Target] (sent : List Bytes) (subscribers : List SubscriberEntry) (message : PushPut) : Prop :=
  ∀ entry ∈ subscribers, entry.locality ≠ .sessionLocal →
    if message.scope = 0 then entry.keyExpr ≠ some (message.suffix.getD "")
    else
      (knownScope sent message = none → entry.keyId ≠ message.scope.toUInt16) ∧
        ∀ keyExpr ∈ knownScope sent message,
          entry.keyExpr = some (keyExpr ++ message.suffix.getD "") ↔ entry.keyId = message.scope.toUInt16

instance [Target] (sent : List Bytes) (subscribers : List SubscriberEntry) (message : PushPut) :
    Decidable (RouteCondition sent subscribers message) :=
  inferInstanceAs (Decidable (∀ entry ∈ subscribers, _))

/-- Key ids of network subscriptions are set and all different. -/
structure KeyIds (subscribers : List SubscriberEntry) : Prop where
  positive : ∀ entry ∈ subscribers, entry.locality ≠ .sessionLocal → entry.keyId ≠ 0
  distinct : subscribers.Pairwise fun first second =>
    first.locality ≠ .sessionLocal → second.locality ≠ .sessionLocal → first.keyId ≠ second.keyId

theorem filter_eq_filter_iff {α : Type} (items : List α) (left right : α → Bool) :
    items.filter left = items.filter right ↔ ∀ item ∈ items, left item = right item := by
  refine ⟨fun same item member => ?_, List.filter_congr⟩
  have both : item ∈ items.filter left ↔ item ∈ items.filter right := by rw [same]
  rw [List.mem_filter, List.mem_filter, and_iff_right member, and_iff_right member] at both
  exact Bool.eq_iff_iff.mpr both

theorem routedEntry_toList {subscribers : List SubscriberEntry} (keyIds : KeyIds subscribers) (scope : UInt64) :
    (routedEntry subscribers scope).toList =
      subscribers.filter fun entry => entry.locality ≠ .sessionLocal && entry.keyId == scope.toUInt16 := by
  obtain ⟨positive, distinct⟩ := keyIds
  induction subscribers with
  | nil => rfl
  | cons entry rest ih =>
    obtain ⟨others, tail⟩ := List.pairwise_cons.mp distinct
    have recurse := ih (fun other member => positive other (List.mem_cons_of_mem _ member)) tail
    have hits : (entry.network && scope.toUInt16 == entry.keyId) =
        (decide (entry.locality ≠ .sessionLocal) && entry.keyId == scope.toUInt16) := by
      by_cases inside : entry.locality = .sessionLocal
      · simp [SubscriberEntry.network, inside]
      · have set := positive entry (List.mem_cons_self ..) inside
        simp [SubscriberEntry.network, inside, set, Bool.beq_comm]
    rw [routedEntry, List.find?_cons, List.filter_cons, hits]
    cases hit : (decide (entry.locality ≠ .sessionLocal) && entry.keyId == scope.toUInt16) with
    | false => exact recurse
    | true =>
      simp only [Bool.and_eq_true, decide_eq_true_eq, beq_iff_eq] at hit
      -- The first hit is the only one, since no other network entry has this key id.
      have none : rest.filter (fun other => decide (other.locality ≠ .sessionLocal) &&
          other.keyId == scope.toUInt16) = [] := by
        rw [List.filter_eq_nil_iff]
        intro other member same
        simp only [Bool.and_eq_true, decide_eq_true_eq, beq_iff_eq] at same
        exact others other member hit.1 same.1 (hit.2.trans same.2.symm)
      rw [none]
      rfl

variable [Target]

theorem routeToSubscribers_exact_iff (sent : List Bytes) {subscribers : List SubscriberEntry}
    (keyIds : KeyIds subscribers) (message : PushPut) :
    routeToSubscribers subscribers message.incoming =
        (receivers subscribers (denoted sent message)).map (fun entry => ⟨entry, message.payload⟩) ↔
      RouteCondition sent subscribers message := by
  have injective (first second : SubscriberEntry)
      (same : Delivery.mk first message.payload = Delivery.mk second message.payload) : first = second :=
    (Delivery.mk.inj same).1
  rw [routeToSubscribers, PushPut.incoming, List.map_inj_right injective, routedEntry_toList keyIds,
    receivers, filter_eq_filter_iff]
  apply forall₂_congr
  intro entry member
  by_cases inside : entry.locality = .sessionLocal
  · simp [inside]
  · have set := keyIds.positive entry member inside
    rw [Bool.eq_iff_iff]
    by_cases inline : message.scope = 0
    · simp [denoted, inline, inside, set]
    · cases known : knownScope sent message with
      | none => simp [denoted, inline, inside, known]
      | some keyExpr => simp [denoted, inline, inside, known, iff_comm]

/-- Sessions after any number of successful subscriptions on a new node. -/
inductive Subscribed : Session → Prop where
  | built (nodeName «namespace» : String) (domainId : UInt32) (gid : ZenohId) (routerLeaseMs ourLeaseMs : UInt64)
      (outcomes : Nat → Bool) :
      Subscribed ⟨Node.built nodeName «namespace» domainId gid routerLeaseMs ourLeaseMs, outcomes, 0, []⟩
  | create {session after : Session} (topic : TopicKeyExpr) (locality : Locality) (dispatch : SubRef)
      (before : Subscribed session) (created : createSubscription topic locality dispatch session = (.ok (), after)) :
      Subscribed after

theorem Subscribed.run {session : Session} {topic : TopicKeyExpr} {locality : Locality} {dispatch : SubRef}
    (before : Subscribed session) (success : (createSubscription topic locality dispatch session).1 = .ok ()) :
    Subscribed (createSubscription topic locality dispatch session).2 :=
  before.create topic locality dispatch (Prod.ext success rfl)

/-- As long as the table has room, the next key id is above all that were given out. -/
structure TableInvariant (node : Node) : Prop where
  keyIds : KeyIds node.subscribers
  below : node.subscribers.length < maxSubs →
    0 < node.keyIdGen.toNat ∧ node.keyIdGen.toNat ≤ node.subscribers.length + 1 ∧
      ∀ entry ∈ node.subscribers, entry.keyId.toNat < node.keyIdGen.toNat

theorem sendMessage_keeps {γ : Type} (field : Node → γ) (size : Nat) (message : WireEncoder)
    (free : ∀ (node : Node) (sn : UInt64), field { node with sn := sn } = field node) :
    Method.Keeps field (sendMessage size message) := by
  unfold sendMessage
  refine Method.keeps_getNode.bind fun node => (Action.keeps_lift _).bind fun (pos, buf) => ?_
  refine (Method.keeps_modifyNode fun node => free node _).bind fun _ => ?_
  exact (Action.keeps_lift _).bind fun (_, cursor) => (Action.keeps_lift _).bind fun payload =>
    Method.keeps_write payload

theorem declareLiveliness_keeps {γ : Type} (field : Node → γ) (entityType : EntityType) (topic : TopicKeyExpr)
    (free : ∀ (node : Node) (sn : UInt64) (entityIdGen : UInt32),
      field { node with sn := sn, entityIdGen := entityIdGen } = field node) :
    Method.Keeps field (declareLiveliness entityType topic) := by
  unfold declareLiveliness
  refine Method.keeps_getNode.bind fun node => (Action.keeps_lift _).bind fun next => ?_
  refine (Method.keeps_modifyNode fun node => free node node.sn _).bind fun _ => ?_
  split
  · exact Action.keeps_lift _
  · exact sendMessage_keeps field _ _ fun node sn => free node sn node.entityIdGen

section Registered
variable {topic : TopicKeyExpr} {locality : Locality} {session after : Session}

theorem declareKeyExpr_ok {keyExpr : String} {keyId : UInt16}
    (declared : declareKeyExpr keyExpr session = (.ok keyId, after)) :
    keyId = session.node.keyIdGen ∧ after.node.keyIdGen = session.node.keyIdGen + 1 ∧
      after.node.subscribers = session.node.subscribers := by
  unfold declareKeyExpr at declared
  obtain ⟨node, _, got, declared⟩ := Action.bind_eq_ok.mp declared
  obtain ⟨_, counted, changed, declared⟩ := Action.bind_eq_ok.mp declared
  obtain ⟨_, sent, sending, returned⟩ := Action.bind_eq_ok.mp declared
  cases got
  cases changed
  cases returned
  have kept := (sendMessage_keeps (fun node => (node.keyIdGen, node.subscribers)) _ _ (fun _ _ => rfl)).eq sending
  exact ⟨rfl, (Prod.mk.inj kept).1, (Prod.mk.inj kept).2⟩

theorem registerSubscription_ok {keyId : UInt16}
    (registered : registerSubscription topic locality session = (.ok keyId, after)) :
    after.node.subscribers = session.node.subscribers ∧
      (if locality = .sessionLocal then keyId = 0 ∧ after.node.keyIdGen = session.node.keyIdGen
        else keyId = session.node.keyIdGen ∧ after.node.keyIdGen = session.node.keyIdGen + 1) := by
  unfold registerSubscription at registered
  by_cases inside : locality = .sessionLocal
  · rw [if_pos inside] at registered
    cases registered
    simp [inside]
  rw [if_neg inside] at registered
  rw [if_neg inside]
  cases key : topic.toKeyExpr with
  | none =>
    rw [key] at registered
    cases registered
  | some keyExpr =>
    rw [key] at registered
    obtain ⟨given, between, declaring, registered⟩ := Action.bind_eq_ok.mp registered
    obtain ⟨_, subscribed, subscribing, registered⟩ := Action.bind_eq_ok.mp registered
    obtain ⟨_, alive, announcing, returned⟩ := Action.bind_eq_ok.mp registered
    cases returned
    obtain ⟨rfl, counted, same⟩ := declareKeyExpr_ok declaring
    have first := (sendMessage_keeps (fun node => (node.keyIdGen, node.subscribers)) _ _
      (fun _ _ => rfl)).eq subscribing
    have second := (declareLiveliness_keeps (fun node => (node.keyIdGen, node.subscribers)) _ _
      (fun _ _ _ => rfl)).eq announcing
    obtain ⟨gen, table⟩ := Prod.mk.inj (second.trans first)
    exact ⟨table.trans same, rfl, gen.trans counted⟩

theorem createSubscription_ok {dispatch : SubRef}
    (created : createSubscription topic locality dispatch session = (.ok (), after)) :
    ∃ keyId, after.node.subscribers =
        pushWithin maxSubs session.node.subscribers ⟨keyId, locality, topic, dispatch⟩ ∧
      (if locality = .sessionLocal then keyId = 0 ∧ after.node.keyIdGen = session.node.keyIdGen
        else keyId = session.node.keyIdGen ∧ after.node.keyIdGen = session.node.keyIdGen + 1) := by
  unfold createSubscription at created
  obtain ⟨keyId, between, registering, changed⟩ := Action.bind_eq_ok.mp created
  obtain ⟨same, ids⟩ := registerSubscription_ok registering
  cases changed
  exact ⟨keyId, by rw [← same], ids⟩

end Registered

omit [Target] in
theorem KeyIds.push {subscribers : List SubscriberEntry} {entry : SubscriberEntry} (keyIds : KeyIds subscribers)
    (fresh : entry.locality ≠ .sessionLocal →
      entry.keyId ≠ 0 ∧ ∀ other ∈ subscribers, other.keyId ≠ entry.keyId) :
    KeyIds (subscribers ++ [entry]) where
  positive := by
    intro other member outside
    rcases List.mem_append.mp member with old | new
    · exact keyIds.positive other old outside
    · rw [List.mem_singleton.mp new] at outside ⊢
      exact (fresh outside).1
  distinct := by
    refine List.pairwise_append.mpr ⟨keyIds.distinct, List.pairwise_singleton _ _, ?_⟩
    intro other old last new _ outside
    rw [List.mem_singleton.mp new] at outside ⊢
    exact (fresh outside).2 other old

theorem TableInvariant.create {session after : Session} {topic : TopicKeyExpr} {locality : Locality}
    {dispatch : SubRef} (holds : TableInvariant session.node)
    (created : createSubscription topic locality dispatch session = (.ok (), after)) :
    TableInvariant after.node := by
  obtain ⟨keyIds, below⟩ := holds
  obtain ⟨keyId, table, ids⟩ := createSubscription_ok created
  unfold pushWithin at table
  by_cases room : session.node.subscribers.length < maxSubs
  · rw [if_pos room] at table
    obtain ⟨positive, small, smaller⟩ := below room
    -- The table holds four entries, so the counter is far from wrapping.
    have noWrap : session.node.keyIdGen.toNat + 1 < 2 ^ 16 := by
      unfold maxSubs at room
      omega
    have next : (session.node.keyIdGen + 1).toNat = session.node.keyIdGen.toNat + 1 := by
      rw [UInt16.toNat_add]
      exact Nat.mod_eq_of_lt noWrap
    refine ⟨?_, fun _ => ?_⟩
    · rw [table]
      apply keyIds.push
      intro outside
      rw [if_neg outside] at ids
      obtain ⟨rfl, -⟩ := ids
      refine ⟨fun zero => ?_, fun other member same => ?_⟩
      · change session.node.keyIdGen = 0 at zero
        rw [zero] at positive
        exact Nat.lt_irrefl _ positive
      · have less := smaller other member
        rw [same] at less
        exact Nat.lt_irrefl _ less
    · rw [table, List.length_append, List.length_singleton]
      by_cases inside : locality = .sessionLocal
      · rw [if_pos inside] at ids
        obtain ⟨rfl, gen⟩ := ids
        rw [gen]
        refine ⟨positive, by omega, fun entry member => ?_⟩
        rcases List.mem_append.mp member with old | new
        · exact smaller entry old
        · rw [List.mem_singleton.mp new]
          exact positive
      · rw [if_neg inside] at ids
        obtain ⟨rfl, gen⟩ := ids
        rw [gen, next]
        refine ⟨by omega, by omega, fun entry member => ?_⟩
        rcases List.mem_append.mp member with old | new
        · exact Nat.lt_succ_of_lt (smaller entry old)
        · rw [List.mem_singleton.mp new]
          exact Nat.lt_succ_self _
  · rw [if_neg room] at table
    -- A full table stays as it is, and stays full.
    exact ⟨table ▸ keyIds, fun again => absurd (table ▸ again) room⟩

theorem Subscribed.tableInvariant {session : Session} (reachable : Subscribed session) :
    TableInvariant session.node := by
  induction reachable with
  | built nodeName «namespace» domainId gid routerLeaseMs ourLeaseMs outcomes =>
    exact ⟨⟨by simp [Node.built], List.Pairwise.nil⟩, fun _ => ⟨by simp [Node.built], by simp [Node.built],
      by simp [Node.built]⟩⟩
  | create topic locality dispatch before created ih => exact ih.create created

/-- A decoded Put reaches exactly the subscriptions it is meant for if and only
if the route's condition holds. -/
theorem incoming_put_reaches_receivers_iff {session : Session} (reachable : Subscribed session)
    (message : PushPut) (rest : Bytes) (addressable : Addressable (message.bytes ++ rest)) :
    (∃ put consumed, decodePushPut (message.bytes ++ rest) = .ok (some (put, consumed)) ∧
      routeToSubscribers session.node.subscribers put =
        (receivers session.node.subscribers (denoted session.sent message)).map
          fun entry => ⟨entry, message.payload⟩) ↔
      RouteCondition session.sent session.node.subscribers message := by
  rw [← routeToSubscribers_exact_iff session.sent reachable.tableInvariant.keyIds message,
    decodePushPut_append message rest addressable]
  constructor
  · rintro ⟨put, consumed, same, exact_⟩
    cases same
    exact exact_
  · intro exact_
    exact ⟨message.incoming, message.bytes.length, rfl, exact_⟩

omit [Target] in
theorem incoming_put_reaches_receivers_iff_declared :
    letI := target64
    let before : Session := ⟨Node.built "listener" "" 0 (ZenohId.fromBytes [7]) 10000 10000, fun _ => true, 0, []⟩
    let session := (createSubscription ⟨0, "chatter", "String", "hash"⟩ .any 3 before).2
    let message : PushPut := ⟨1, false, none, [], none, none, [], [5]⟩
    ∃ put consumed, decodePushPut (message.bytes ++ []) = .ok (some (put, consumed)) ∧
      routeToSubscribers session.node.subscribers put =
        (receivers session.node.subscribers (denoted session.sent message)).map
          fun entry => ⟨entry, message.payload⟩ := by
  let := target64
  intro before session message
  have reachable : Subscribed session :=
    (Subscribed.built "listener" "" 0 (ZenohId.fromBytes [7]) 10000 10000 _).run (by decide +kernel)
  exact (incoming_put_reaches_receivers_iff reachable message [] (le_isizeMax (by decide +kernel))).mpr
    (by decide +kernel)

omit [Target] in
/-- A subscription does not get what is published under its key expression inline. -/
theorem incoming_put_misses_receiver :
    letI := target64
    let before : Session := ⟨Node.built "listener" "" 0 (ZenohId.fromBytes [7]) 10000 10000, fun _ => true, 0, []⟩
    let session := (createSubscription ⟨0, "chatter", "String", "hash"⟩ .any 3 before).2
    let message : PushPut := ⟨0, false, some "0/chatter/String/hash", [], none, none, [], [5]⟩
    Subscribed session ∧
      receivers session.node.subscribers (denoted session.sent message) = session.node.subscribers ∧
      session.node.subscribers.length = 1 ∧
      ¬∃ put consumed, decodePushPut message.bytes = .ok (some (put, consumed)) ∧
        routeToSubscribers session.node.subscribers put =
          (receivers session.node.subscribers (denoted session.sent message)).map
            fun entry => ⟨entry, message.payload⟩ := by
  let := target64
  intro before session message
  have reachable : Subscribed session :=
    (Subscribed.built "listener" "" 0 (ZenohId.fromBytes [7]) 10000 10000 _).run (by decide +kernel)
  refine ⟨reachable, by decide +kernel, by decide +kernel, ?_⟩
  rintro ⟨put, consumed, decoded, pushed⟩
  have read : decodePushPut message.bytes = .ok (some (message.incoming, message.bytes.length)) := by
    decide +kernel
  rw [read] at decoded
  cases decoded
  revert pushed
  decide +kernel

end ZenohRos2
