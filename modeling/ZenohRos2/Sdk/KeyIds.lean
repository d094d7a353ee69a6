import ZenohRos2.Sdk.Subscriptions
import ZenohRos2.Sdk.Tables
import ZenohRos2.Session.KeyIds

/-! The key ids of a node, over any sequence of registrations.

A node takes them like a session does, one for each subscription that is not for
the session alone. The ids are not given back, whether the call succeeds or not.
-/

set_option autoImplicit false

namespace ZenohRos2
open Rust Tasks

/-- A node, with a book of its key ids. -/
structure Keyring where
  registry : Registry
  /-- How many key ids were taken. -/
  taken : Nat
  /-- Those of the subscriptions that were created. -/
  granted : Counter.Ledger UInt16

section Registered
variable [Target]

def registeredKeyId (topic : TopicKeyExpr) (locality : Locality) (session : Session) : Option UInt16 :=
  match (registerSubscription topic locality session).1 with
  | .ok keyId => some keyId
  | _ => none

theorem registeredKeyId_eq {topic : TopicKeyExpr} {locality : Locality} (outside : locality ≠ .sessionLocal)
    (session : Session) : registeredKeyId topic locality session =
      if session.GrantsSubscription topic locality then some session.node.keyIdGen else none := by
  have granted := (createSubscription_granted topic locality 0 session).1
  unfold createSubscription at granted
  rcases ran : registerSubscription topic locality session with ⟨result, between⟩
  simp only [registeredKeyId, ran]
  cases result with
  | ok keyId =>
    rw [Action.bind_of_ok ran] at granted
    have ids := (registerSubscription_ok ran).2
    rw [if_neg outside] at ids
    rw [if_pos (granted.mp rfl), ids.1]
  | err error =>
    rw [Action.bind_of_err ran] at granted
    rw [if_neg fun grants => by cases granted.mpr grants]
  | panic fault =>
    rw [Action.bind_of_panic ran] at granted
    rw [if_neg fun grants => by cases granted.mpr grants]

theorem createSubscription_keyIdGen (topic : TopicKeyExpr) (locality : Locality) (dispatch : SubRef)
    (session : Session) : (createSubscription topic locality dispatch session).2.node.keyIdGen =
      if locality ≠ .sessionLocal ∧ topic.toKeyExpr.isSome then session.node.keyIdGen + 1
      else session.node.keyIdGen := by
  have created := createSubscription_created topic locality dispatch session
  generalize createSubscription topic locality dispatch session = outcome at created
  cases created with
  | unannounced only => rw [if_neg fun both => both.1 only]; rfl
  | unformatted outside long => simp [long]
  | keyUnwritten outside key failed => rw [if_pos ⟨outside, key⟩]; rfl
  | subscriberUnwritten outside key keyWritten failed => rw [if_pos ⟨outside, key ▸ rfl⟩]; rfl
  | exhausted outside declared last => rw [if_pos ⟨outside, declared.key ▸ rfl⟩]; rfl
  | unnameable outside declared long => rw [if_pos ⟨outside, declared.key ▸ rfl⟩]; rfl
  | tokenUnwritten outside declared named failed => rw [if_pos ⟨outside, declared.key ▸ rfl⟩]; rfl
  | announced outside declared named tokenWritten => rw [if_pos ⟨outside, declared.key ▸ rfl⟩]; rfl

theorem createPublisher_keyIdGen (publisher : Publisher) (ref : PubRef) (session : Session) :
    (createPublisher publisher ref session).2.node.keyIdGen = session.node.keyIdGen := by
  have created := createPublisher_created publisher ref session
  generalize createPublisher publisher ref session = outcome at created
  cases created <;> rfl

end Registered

namespace Keyring
variable [Target] {statics : PubRef → Publisher} {keyring next : Keyring} {registration : Registration}

def start (registry : Registry) : Keyring := ⟨registry, 0, []⟩

def step (statics : PubRef → Publisher) (keyring : Keyring) (registration : Registration) : Option Keyring :=
  (keyring.registry.step statics registration).map fun registry =>
    match registration with
    | .createSubscription topic locality _ =>
      if locality = .sessionLocal then { keyring with registry := registry }
      else
        { registry := registry
          taken := if topic.toKeyExpr.isSome then keyring.taken + 1 else keyring.taken
          granted := keyring.granted ++
            (registeredKeyId topic locality keyring.registry.session).toList.map fun keyId => (keyring.taken, keyId) }
    | _ => { keyring with registry := registry }

/-- No subscription has the key id 0 or that of another one, nor is one created when all ids are in force. -/
def Proper (keyring : Keyring) : Prop := Counter.Proper (2 ^ 16) 0 keyring.granted

/-- A subscription that is created takes a key id that no other one has, and not 0. -/
def FirstTime (keyring : Keyring) : Registration → Prop
  | .createSubscription topic locality _ => locality ≠ .sessionLocal →
    keyring.registry.session.GrantsSubscription topic locality →
    Counter.FirstTime (2 ^ 16) keyring.granted keyring.taken
  | _ => True

structure Sound (keyring : Keyring) : Prop where
  counter : keyring.registry.session.node.keyIdGen = Counter.uint16 keyring.taken
  counted : Counter.Counted Counter.uint16 keyring.granted

omit [Target] in
theorem session_of_called {registry after : Registry} {call : Method Unit} {grant : Registry → Registry}
    (called : registry.called call grant = some after) (same : ∀ registry, (grant registry).session = registry.session) :
    after.session = (call registry.session).2 := by
  unfold Registry.called at called
  split at called
  · rename_i ran
    cases called
    rw [same, ran]
  · rename_i ran
    cases called
    rw [ran]
  · cases called

theorem Sound.granted_eq (sound : keyring.Sound) {topic : TopicKeyExpr} {locality : Locality}
    (outside : locality ≠ .sessionLocal) : keyring.granted ++
        (registeredKeyId topic locality keyring.registry.session).toList.map (fun keyId => (keyring.taken, keyId)) =
      if keyring.registry.session.GrantsSubscription topic locality then
        keyring.granted ++ [(keyring.taken, Counter.uint16 keyring.taken)]
      else keyring.granted := by
  rw [registeredKeyId_eq outside, sound.counter]
  split <;> simp

theorem Sound.step (sound : keyring.Sound) (stepped : keyring.step statics registration = some next) :
    next.Sound := by
  obtain ⟨registry, registered, rfl⟩ := Option.map_eq_some_iff.mp stepped
  cases registration with
  | createPublisher ref =>
    have called : keyring.registry.called (createPublisher (statics ref) ref) (fun registry =>
      { registry with publishers := registry.publishers ++ [ref] }) = some registry := registered
    refine ⟨?_, sound.counted⟩
    change registry.session.node.keyIdGen = _
    rw [session_of_called called fun _ => rfl, createPublisher_keyIdGen]
    exact sound.counter
  | createSubscription topic locality dispatch =>
    have called : keyring.registry.called (createSubscription topic locality dispatch) (fun registry =>
      { registry with
        subscriptions := registry.subscriptions ++ [keyring.registry.session.entry topic locality dispatch] }) =
      some registry := registered
    have counter := createSubscription_keyIdGen topic locality dispatch keyring.registry.session
    rw [← session_of_called called fun _ => rfl] at counter
    simp only
    by_cases inside : locality = .sessionLocal
    · rw [if_pos inside]
      rw [if_neg fun both => both.1 inside] at counter
      exact ⟨counter.trans sound.counter, sound.counted⟩
    · rw [if_neg inside, sound.granted_eq inside]
      refine ⟨?_, ?_⟩
      · change registry.session.node.keyIdGen = Counter.uint16 (if _ then _ else _)
        rw [counter]
        by_cases key : topic.toKeyExpr.isSome
        · rw [if_pos ⟨inside, key⟩, if_pos key, Counter.uint16_succ, sound.counter]
        · rw [if_neg fun both => key both.2, if_neg key, sound.counter]
      · change Counter.Counted _ (if _ then _ else _)
        split
        · exact sound.counted.snoc _
        · exact sound.counted
  | registerTimer now period =>
    cases registered
    exact ⟨sound.counter, sound.counted⟩

theorem Sound.proper_iff (sound : keyring.Sound) (proper : keyring.Proper)
    (stepped : keyring.step statics registration = some next) : next.Proper ↔ keyring.FirstTime registration := by
  obtain ⟨registry, registered, rfl⟩ := Option.map_eq_some_iff.mp stepped
  cases registration with
  | createPublisher ref => exact iff_of_true proper trivial
  | createSubscription topic locality dispatch =>
    simp only [FirstTime]
    by_cases inside : locality = .sessionLocal
    · rw [if_pos inside]
      exact iff_of_true proper fun outside => absurd inside outside
    · rw [if_neg inside, sound.granted_eq inside]
      change Counter.Proper _ _ (if _ then _ else _) ↔ _
      split
      · rename_i grants
        rw [Counter.Proper.snoc_iff (by decide) Counter.wraps_uint16 sound.counted proper]
        exact ⟨fun first _ _ => first, fun first => first inside grants⟩
      · rename_i refused
        exact iff_of_true proper fun _ grants => absurd grants refused
  | registerTimer now period => exact iff_of_true proper trivial

theorem proper_iff_firstTime {registry : Registry} (fresh : registry.session.node.keyIdGen = 1)
    (registrations : List Registration) :
    Machine.Always (step statics) Proper (start registry) registrations ↔
      Machine.Meets (step statics) FirstTime (start registry) registrations := by
  refine Machine.always_iff_meets Sound Sound.step Sound.proper_iff ⟨fresh, ?_⟩ ⟨?_, ?_, ?_⟩
  · exact fun granted member => by cases member
  · exact fun granted member => by cases member
  · exact List.nodup_nil
  · exact Nat.two_pow_pos 16

end Keyring

section Both
variable [Target]

/-- In every run of a session, and of a node, the key ids are proper just when each call that
returns one took it for the first time: neither as the last of a round of 2^16, nor a number of
rounds after another call that returned its own. -/
theorem keyIds_proper_iff_firstTime (buffers : Zenoh.Buffers) (transport : Zenoh.Transport) (config : Zenoh.SessionConfig)
    (session : Zenoh.Session) (opened : Zenoh.Session.opened buffers transport config = some (.ok session))
    (moves : List (Move Zenoh.Operation)) (statics : PubRef → Publisher) (nodeName «namespace» : String)
    (domainId : UInt32) (gid : ZenohId) (routerLeaseMs ourLeaseMs : UInt64) (outcomes : Nat → Bool)
    (registrations : List Registration) :
    (Machine.Always (Zenoh.Declaring.step buffers) Zenoh.Declaring.Proper (.start session) moves ↔
      Machine.Meets (Zenoh.Declaring.step buffers) (Zenoh.Declaring.FirstTime buffers) (.start session) moves) ∧
    (Machine.Always (Keyring.step statics) Keyring.Proper
        (.start (.start nodeName «namespace» domainId gid routerLeaseMs ourLeaseMs outcomes)) registrations ↔
      Machine.Meets (Keyring.step statics) Keyring.FirstTime
        (.start (.start nodeName «namespace» domainId gid routerLeaseMs ourLeaseMs outcomes)) registrations) :=
  ⟨Zenoh.Declaring.proper_iff_firstTime (Zenoh.Session.nextKeyId_of_opened opened) moves,
    Keyring.proper_iff_firstTime rfl registrations⟩

omit [Target] in
/-- A session that subscribes, and a node that subscribes to two topics. -/
theorem keyIds_proper_iff_firstTime_two :
    letI := target64
    let buffers : Zenoh.Buffers := ⟨512, 4096, le_isizeMax (by decide), le_isizeMax (by decide)⟩
    let moves : List (Move Zenoh.Operation) := .spawn (.subscribe "a") :: List.replicate 9 (.run 0)
    let statics : PubRef → Publisher := fun _ => .fresh ⟨0, "chatter", "String", "hash"⟩ .sessionLocal 64 4
    let keyring := Keyring.start (.start "listener" "" 0 (ZenohId.fromBytes [7]) 10000 10000 fun _ => true)
    let registrations : List Registration := [.createSubscription ⟨0, "chatter", "String", "hash"⟩ .any 3,
      .createSubscription ⟨0, "status", "String", "hash"⟩ .remote 4]
    ∃ session, Zenoh.Session.opened buffers .accepting ⟨ZenohId.fromBytes [7], 0⟩ = some (.ok session) ∧
      (Machine.Always (Zenoh.Declaring.step buffers) Zenoh.Declaring.Proper (.start session) moves ↔
        Machine.Meets (Zenoh.Declaring.step buffers) (Zenoh.Declaring.FirstTime buffers) (.start session) moves) ∧
      (Machine.Always (Keyring.step statics) Keyring.Proper keyring registrations ↔
        Machine.Meets (Keyring.step statics) Keyring.FirstTime keyring registrations) := by
  let := target64
  intro buffers moves statics keyring registrations
  obtain ⟨session, opened, -⟩ : ∃ session, Zenoh.Session.opened buffers .accepting ⟨ZenohId.fromBytes [7], 0⟩ =
      some (.ok session) ∧ session.nextKeyId = 1 := Zenoh.Session.exists_opened (by decide +kernel)
  exact ⟨session, opened, keyIds_proper_iff_firstTime buffers .accepting _ session opened moves statics "listener" "" 0
    (ZenohId.fromBytes [7]) 10000 10000 (fun _ => true) registrations⟩

omit [Target] in
/-- After 65535 declarations the next one gets the key id 0, and the one after it the key id 1 again. -/
theorem keyIds_come_again :
    letI := target64
    let buffers : Zenoh.Buffers := ⟨512, 4096, le_isizeMax (by decide), le_isizeMax (by decide)⟩
    ∃ session, Zenoh.Session.opened buffers .accepting ⟨ZenohId.fromBytes [7], 0⟩ = some (.ok session) ∧
      ∃ moves declaring, Machine.execute (Zenoh.Declaring.step buffers) (fun _ _ => True) moves (.start session) =
          some declaring ∧
        declaring.granted.map (·.2) = (List.range 65537).map Counter.uint16 ∧
        ¬Machine.Always (Zenoh.Declaring.step buffers) Zenoh.Declaring.Proper (.start session) moves := by
  let := target64
  intro buffers
  obtain ⟨session, opened, -⟩ : ∃ session, Zenoh.Session.opened buffers .accepting ⟨ZenohId.fromBytes [7], 0⟩ =
      some (.ok session) ∧ session.nextKeyId = 1 := Zenoh.Session.exists_opened (by decide +kernel)
  have idle := Zenoh.Declaring.idle_of_opened opened fun _ => rfl
  have room : 64 ≤ buffers.txBuf := by decide
  obtain ⟨moves, declaring, executed, ids, -⟩ := Zenoh.Declaring.exists_declared idle room 65537
  refine ⟨session, opened, moves, declaring, executed, ids, fun always => ?_⟩
  have within := (always.last executed).within
  have count := congrArg List.length ids
  rw [List.length_map, List.length_map, List.length_range] at count
  omega

end Both
end ZenohRos2
