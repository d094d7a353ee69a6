import ZenohRos2.Lib.Trimming
import ZenohRos2.Sdk.Arrival
import ZenohRos2.Sdk.Sending
import ZenohRos2.Sdk.Subscriptions

/-! Messages on their way to a subscription of another node.

The publishers of a node, and the task that drains them, stand on one side. A
router takes the messages of one key expression out of the frames, and puts
each into a frame of its own on the link to the other node, or loses it. There
the bytes arrive in chunks, a loop hands over frames, and a task takes payloads
out of the queue of a static subscription.
-/

set_option autoImplicit false

namespace ZenohRos2
open Rust Cdr Trimming

structure NetworkPath where
  sender : System
  /-- The messages whose `send` went on after they were serialized. -/
  sent : PubRef → List Message
  /-- What the router has read off the wire and not passed on. -/
  inbox : List Received
  receiver : Node
  /-- The static publishers on the side of the receiver. -/
  statics : PubRef → Publisher
  /-- Bytes on the link to the receiver. -/
  link : Bytes
  spin : Spin
  subscriber : Subscriber
  /-- The payloads that `try_recv` took out of the queue. -/
  taken : List Bytes

inductive NetworkAct (types : PubRef → Ty) where
  | send (ref : PubRef) (value : { value : (types ref).Val // (types ref).Within value }) (timestampNs : Int64)
  | task (act : Act)
  /-- The router passes the first message on. -/
  | forward (head : FrameHead) (message : PushPut)
  | lose
  /-- The router writes something else. -/
  | traffic (frame : Bytes)
  | arrive (count : Nat)
  | timeout
  /-- The receiver connects again, with the tables that it registers. -/
  | redial (node : Node)
  | tryRecv
  | clear

namespace NetworkPath

section Machine
variable [Target] (types : PubRef → Ty) (key : String) (sub : SubRef)

/-- A `send` that cannot serialize its message changes nothing. -/
def step (path : NetworkPath) : NetworkAct types → Option NetworkPath
  | .send ref value timestampNs =>
    match serializeWithHeader (types ref) value.val (List.replicate (path.sender.world.statics ref).cdrCap 0) with
    | .ok (n, raw) => (path.sender.step (.stamp ref (raw.take n) timestampNs)).map fun sender =>
      { path with
        sender := sender
        sent := Function.update path.sent ref (path.sent ref ++ [⟨types ref, value.val⟩]) }
    | _ => some path
  | .task act => (path.sender.step act).map fun sender =>
    { path with
      sender := sender
      inbox := path.inbox ++ (sender.world.log.drop path.sender.world.log.length).flatMap (Event.onKey key) }
  | .forward head message => some { path with
      inbox := path.inbox.tail
      link := path.link ++ framed (frameOf head [message]) }
  | .lose => some { path with inbox := path.inbox.tail }
  | .traffic frame => some { path with link := path.link ++ framed frame }
  | .arrive count =>
    let (spin, frames) := (spinReader path.statics path.receiver).feedAll path.spin (path.link.take count)
    some { path with
      link := path.link.drop count
      spin := spin
      subscriber := Switching.queueAfter path.subscriber sub
        ((deliveries path.receiver path.spin.fragAsm frames).map Delivery.pushed) }
  | .timeout => some { path with spin := (spinReader path.statics path.receiver).drop path.spin }
  | .redial node => some { path with receiver := node, link := [], spin := .start path.statics node }
  | .tryRecv =>
    match path.subscriber.tryRecv with
    | none => some path
    | some (raw, subscriber) => some { path with subscriber := subscriber, taken := path.taken ++ [raw] }
  | .clear => some { path with subscriber := path.subscriber.clear }

/-- The loop goes on, and nothing was pushed into the subscription. -/
def PassedBy : Outcome Error (Handled × FragmentAssembler) → Prop
  | .ok (handled, _) => ∀ push ∈ handled.pushes, push.entry.dispatch ≠ sub
  | _ => False

/-- The frame is not for the subscription, and no fragment. -/
def Aside (node : Node) (frame : Bytes) : Prop :=
  frame.length ≤ rxBufSize ∧ frame.head?.map parseTransportMsgKind ≠ some .fragment ∧
    PassedBy sub (dispatchFrame node frame .new)

/-- The router names the subscription by a key id that was declared for the key expression. -/
def Addresses (node : Node) (message : PushPut) : Prop :=
  ∃ entry ∈ node.subscribers, entry.network ∧ entry.dispatch = sub ∧ entry.keyExpr = some key ∧
    message.scope = entry.keyId.toUInt64

/-- There is one publishing task for each publisher. No timeout fires inside a frame,
and the publishers of the receiver have their key expressions. -/
def allowed (path : NetworkPath) : NetworkAct types → Prop
  | .send ref _ _ => (path.sender.world.statics ref).cdrCap ≤ isizeMax ∧
      (path.sender.world.statics ref).stamped = [] ∧ (path.sender.world.statics ref).seqNum ≠ Int64.maxValue
  | .task (.stamp ..) => False
  | .task _ => True
  | .forward head message => path.inbox.head?.map Received.payload = some message.payload ∧
      Addresses key sub path.receiver message ∧ (frameOf head [message]).length ≤ rxBufSize
  | .lose => True
  | .traffic frame => Aside sub path.receiver frame
  | .arrive _ => True
  | .timeout => path.spin.held = 0
  | .redial node => KeyIds node.subscribers ∧ Drains path.statics node
  | .tryRecv => True
  | .clear => True

instance : (result : Outcome Error (Handled × FragmentAssembler)) → Decidable (PassedBy sub result)
  | .ok (handled, _) => inferInstanceAs (Decidable (∀ push ∈ handled.pushes, _))
  | .err _ => inferInstanceAs (Decidable False)
  | .panic _ => inferInstanceAs (Decidable False)

instance (node : Node) (frame : Bytes) : Decidable (Aside sub node frame) := inferInstanceAs (Decidable (_ ∧ _ ∧ _))

instance (node : Node) (message : PushPut) : Decidable (Addresses key sub node message) :=
  inferInstanceAs (Decidable (∃ entry ∈ node.subscribers, _))

instance (subscribers : List SubscriberEntry) : Decidable (KeyIds subscribers) :=
  decidable_of_iff ((∀ entry ∈ subscribers, entry.locality ≠ .sessionLocal → entry.keyId ≠ 0) ∧
    subscribers.Pairwise fun first second =>
      first.locality ≠ .sessionLocal → second.locality ≠ .sessionLocal → first.keyId ≠ second.keyId)
    ⟨fun both => ⟨both.1, both.2⟩, fun keyIds => ⟨keyIds.positive, keyIds.distinct⟩⟩

instance (path : NetworkPath) : (act : NetworkAct types) → Decidable (allowed types key sub path act)
  | .send .. => inferInstanceAs (Decidable (_ ≤ _ ∧ _ ∧ _))
  | .task (.stamp ..) => inferInstanceAs (Decidable False)
  | .task (.enqueue ..) => inferInstanceAs (Decidable True)
  | .task .call => inferInstanceAs (Decidable True)
  | .task (.turn _) => inferInstanceAs (Decidable True)
  | .task (.reconnect _) => inferInstanceAs (Decidable True)
  | .forward .. => inferInstanceAs (Decidable (_ ∧ _ ∧ _))
  | .lose => inferInstanceAs (Decidable True)
  | .traffic frame => inferInstanceAs (Decidable (Aside sub path.receiver frame))
  | .arrive _ => inferInstanceAs (Decidable True)
  | .timeout => inferInstanceAs (Decidable (_ = _))
  | .redial node => inferInstanceAs (Decidable (KeyIds node.subscribers ∧ Drains path.statics node))
  | .tryRecv => inferInstanceAs (Decidable True)
  | .clear => inferInstanceAs (Decidable True)

end Machine

section Way
variable [Target] {types : PubRef → Ty} {key : String} {sub : SubRef} {path next : NetworkPath}
  {frames : List (Bytes × List Delivery)} {act : NetworkAct types}

def handed (sub : SubRef) (frame : Bytes × List Delivery) : List Bytes :=
  Switching.payloadsFor sub (frame.2.map Delivery.pushed)

/-- The payloads between the wire and the receiving task, the oldest first. -/
def way (sub : SubRef) (frames : List (Bytes × List Delivery)) (path : NetworkPath) : List Bytes :=
  path.taken ++ (path.subscriber.channel ++ (frames.flatMap (handed sub) ++ path.inbox.map Received.payload))

def brought (key : String) (path next : NetworkPath) : List Bytes :=
  ((next.sender.world.log.drop path.sender.world.log.length).flatMap (Event.onKey key)).map Received.payload

theorem brought_eq_nil (same : next.sender.world.log = path.sender.world.log) : brought key path next = [] := by
  rw [brought, same, List.drop_length]
  rfl

def arriving (sub : SubRef) (path : NetworkPath) (count : Nat) : List Bytes :=
  Switching.payloadsFor sub ((deliveries path.receiver path.spin.fragAsm
    ((spinReader path.statics path.receiver).feedAll path.spin (path.link.take count)).2).map Delivery.pushed)

/-- The step loses nothing and cuts nothing. -/
def Keeping (sub : SubRef) (path : NetworkPath) : NetworkAct types → Prop
  | .send ref _ _ => (path.sender.world.statics ref).cdrCap ≤ cdrDrainBuf
  | .task act => act ≠ .turn false
  | .lose => False
  | .arrive count => path.subscriber.channel.length + (arriving sub path count).length ≤ path.subscriber.queue ∧
      ∀ payload ∈ arriving sub path count, payload.length ≤ path.subscriber.msgSize
  | .redial _ => False
  | .clear => False
  | _ => True

instance (path : NetworkPath) : (act : NetworkAct types) → Decidable (Keeping sub path act)
  | .send .. => inferInstanceAs (Decidable (_ ≤ _))
  | .task (.turn true) => isTrue (fun same => by cases same)
  | .task (.turn false) => isFalse (fun good => good rfl)
  | .task (.stamp ..) => isTrue (fun same => by cases same)
  | .task (.enqueue ..) => isTrue (fun same => by cases same)
  | .task .call => isTrue (fun same => by cases same)
  | .task (.reconnect _) => isTrue (fun same => by cases same)
  | .forward .. => inferInstanceAs (Decidable True)
  | .lose => inferInstanceAs (Decidable False)
  | .traffic _ => inferInstanceAs (Decidable True)
  | .arrive _ => inferInstanceAs (Decidable (_ ≤ _ ∧ _))
  | .timeout => inferInstanceAs (Decidable True)
  | .redial _ => inferInstanceAs (Decidable False)
  | .tryRecv => inferInstanceAs (Decidable True)
  | .clear => inferInstanceAs (Decidable False)

omit [Target] in
theorem trimmed_push (subscriber : Subscriber) (payload : Bytes) :
    Trimmed (subscriber.push payload).channel (subscriber.channel ++ [payload]) := by
  unfold Subscriber.push
  split
  · exact (Trimmed.refl _).append (.cut (List.take_prefix _ _))
  · exact .of_sublist (List.sublist_append_left _ _)

omit [Target] in
theorem trimmed_pushes (payloads : List Bytes) (subscriber : Subscriber) :
    Trimmed (payloads.foldl Subscriber.push subscriber).channel (subscriber.channel ++ payloads) := by
  induction payloads generalizing subscriber with
  | nil => exact .of_sublist (by simp)
  | cons payload payloads ih =>
    have first := (trimmed_push subscriber payload).append (Trimmed.refl payloads)
    rw [List.append_assoc, List.singleton_append] at first
    exact (ih (subscriber.push payload)).trans first

omit [Target] in
theorem routedEntry_of_keyId {subscribers : List SubscriberEntry} (keyIds : KeyIds subscribers) {entry : SubscriberEntry}
    (member : entry ∈ subscribers) (network : entry.network) :
    routedEntry subscribers entry.keyId.toUInt64 = some entry := by
  have cut : entry.keyId.toUInt64.toUInt16 = entry.keyId := UInt16.toUInt16_toUInt64 _
  have outside : entry.locality ≠ .sessionLocal := by
    intro inside
    simp [SubscriberEntry.network, inside] at network
  have among : entry ∈ (routedEntry subscribers entry.keyId.toUInt64).toList := by
    rw [routedEntry_toList keyIds, List.mem_filter]
    exact ⟨member, by simp [outside, cut]⟩
  exact Option.mem_toList.mp among

theorem steady_forward {node : Node} (keyIds : KeyIds node.subscribers) {head : FrameHead} {message : PushPut}
    (addresses : Addresses key sub node message) (fits : (frameOf head [message]).length ≤ rxBufSize) :
    ∃ pushes, Steady node (frameOf head [message]) pushes ∧
      handed sub (frameOf head [message], pushes) = [message.payload] := by
  obtain ⟨entry, member, network, dispatch, -, scope⟩ := addresses
  have addressable : Addressable (frameOf head [message]) := le_isizeMax (Nat.lt_of_le_of_lt fits (by decide))
  have routed : routeToSubscribers node.subscribers message.incoming = [⟨entry, message.payload⟩] := by
    rw [routeToSubscribers, PushPut.incoming, scope, routedEntry_of_keyId keyIds member network]
    rfl
  refine ⟨[⟨entry, message.payload⟩], fun fragAsm => ⟨⟨[⟨entry, message.payload⟩], []⟩, ?_, rfl⟩, ?_⟩
  · have body := handleBody_append (fun put => ⟨routeToSubscribers node.subscribers put, []⟩) message []
      (addressable.of_length_le (by simp [frameOf]))
    unfold dispatchFrame
    rw [frameOf] at addressable ⊢
    rw [dispatchWith_frame _ head _ fragAsm addressable, List.flatMap_singleton, ← List.append_nil message.bytes, body,
      routed]
    rfl
  · simp [handed, Switching.payloadsFor, Delivery.pushed, dispatch]

theorem steady_traffic {node : Node} {frame : Bytes} (aside : Aside sub node frame) :
    ∃ pushes, Steady node frame pushes ∧ handed sub (frame, pushes) = [] := by
  obtain ⟨-, whole, others⟩ := aside
  unfold PassedBy at others
  split at others
  · rename_i handled fragAsm ran
    refine ⟨handled.pushes, steady_of_dispatch whole ran, ?_⟩
    simpa [handed, Switching.payloadsFor, Delivery.pushed] using others
  · exact others.elim

omit [Target] in
theorem payloadsFor_flatMap (done : List (Bytes × List Delivery)) :
    Switching.payloadsFor sub ((done.flatMap Prod.snd).map Delivery.pushed) = done.flatMap (handed sub) := by
  induction done with
  | nil => rfl
  | cons frame done ih =>
    rw [List.flatMap_cons, List.map_append, Switching.payloadsFor_append, ih]
    rfl

structure Carries (sub : SubRef) (key : String) (path next : NetworkPath) (act : NetworkAct types)
    (frames rest : List (Bytes × List Delivery)) : Prop where
  keyIds : KeyIds next.receiver.subscribers
  awaits : next.spin.Awaits next.statics next.receiver next.link rest
  trimmed : Trimmed (next.way sub rest) (path.way sub frames ++ brought key path next)
  kept : Keeping sub path act → next.way sub rest = path.way sub frames ++ brought key path next

theorem Carries.behind (keyIds : KeyIds next.receiver.subscribers) {rest : List (Bytes × List Delivery)}
    (awaits : next.spin.Awaits next.statics next.receiver next.link rest)
    (way : next.way sub rest = path.way sub frames ++ brought key path next) :
    Carries sub key path next act frames rest :=
  ⟨keyIds, awaits, way ▸ .refl _, fun _ => way⟩

theorem Carries.silent (log : next.sender.world.log = path.sender.world.log) (keyIds : KeyIds next.receiver.subscribers)
    {rest : List (Bytes × List Delivery)} (awaits : next.spin.Awaits next.statics next.receiver next.link rest)
    (trimmed : Trimmed (next.way sub rest) (path.way sub frames))
    (kept : Keeping sub path act → next.way sub rest = path.way sub frames) :
    Carries sub key path next act frames rest := by
  have none : path.way sub frames ++ brought key path next = path.way sub frames := by
    rw [brought_eq_nil log, List.append_nil]
  exact ⟨keyIds, awaits, by rwa [none], by rwa [none]⟩

theorem Carries.same (log : next.sender.world.log = path.sender.world.log) (keyIds : KeyIds next.receiver.subscribers)
    {rest : List (Bytes × List Delivery)} (awaits : next.spin.Awaits next.statics next.receiver next.link rest)
    (way : next.way sub rest = path.way sub frames) : Carries sub key path next act frames rest :=
  .silent log keyIds awaits (way ▸ .refl _) fun _ => way

theorem Carries.less (log : next.sender.world.log = path.sender.world.log) (keyIds : KeyIds next.receiver.subscribers)
    {rest : List (Bytes × List Delivery)} (awaits : next.spin.Awaits next.statics next.receiver next.link rest)
    (way : (next.way sub rest).Sublist (path.way sub frames)) (losing : ¬Keeping sub path act) :
    Carries sub key path next act frames rest :=
  .silent log keyIds awaits (.of_sublist way) fun keeping => absurd keeping losing

omit [Target] in
theorem way_write (frame : Bytes × List Delivery) (path : NetworkPath) (inbox : List Received) :
    way sub (frames ++ [frame]) { path with inbox := inbox } =
      path.taken ++ (path.subscriber.channel ++ (frames.flatMap (handed sub) ++
        (handed sub frame ++ inbox.map Received.payload))) := by
  simp [way]

theorem carries_forward (keyIds : KeyIds path.receiver.subscribers) (awaits : path.spin.Awaits path.statics path.receiver path.link frames)
    {head : FrameHead} {message : PushPut} (may : allowed types key sub path (.forward head message))
    (stepped : path.step types key sub (.forward head message) = some next) :
    ∃ rest, Carries sub key path next (.forward head message : NetworkAct types) frames rest := by
  cases stepped
  obtain ⟨payload, addresses, fits⟩ := may
  obtain ⟨pushes, steady, one⟩ := steady_forward keyIds addresses fits
  obtain ⟨first, found, same⟩ := Option.map_eq_some_iff.mp payload
  refine ⟨frames ++ [(frameOf head [message], pushes)], .same ?_ ?_ ?_ ?_⟩
  · rfl
  · exact keyIds
  · exact awaits.write steady fits
  have inbox : path.inbox = first :: path.inbox.tail := List.eq_cons_of_mem_head? found
  have written := @way_write sub frames (frameOf head [message], pushes) path path.inbox.tail
  rw [one, ← same] at written
  refine Eq.trans written ?_
  rw [way]
  conv_rhs => rw [inbox]
  rfl

theorem carries_arrive (keyIds : KeyIds path.receiver.subscribers) (awaits : path.spin.Awaits path.statics path.receiver path.link frames)
    {count : Nat} (stepped : path.step types key sub (.arrive count) = some next) :
    ∃ rest, Carries sub key path next (.arrive count : NetworkAct types) frames rest := by
  cases stepped
  obtain ⟨done, rest, rfl, after, -, pushed⟩ := awaits.arrive count
  have arrived : arriving sub path count = done.flatMap (handed sub) := by
    rw [arriving, pushed, payloadsFor_flatMap]
  have before : path.way sub (done ++ rest) = path.taken ++ ((path.subscriber.channel ++ arriving sub path count) ++
      (rest.flatMap (handed sub) ++ path.inbox.map Received.payload)) := by
    rw [arrived, way]
    simp
  refine ⟨rest, .silent ?_ ?_ ?_ ?_ ?_⟩
  · rfl
  · exact keyIds
  · exact after
  · rw [before]
    exact (Trimmed.refl _).append ((trimmed_pushes _ _).append (.refl _))
  · rintro ⟨room, fit⟩
    rw [before]
    have held := Subscriber.foldl_push_channel fit room
    exact congrArg (fun channel => path.taken ++ (channel ++ (rest.flatMap (handed sub) ++
      path.inbox.map Received.payload))) held

theorem carries (keyIds : KeyIds path.receiver.subscribers) (awaits : path.spin.Awaits path.statics path.receiver path.link frames)
    (may : allowed types key sub path act) (stepped : path.step types key sub act = some next) :
    ∃ rest, Carries sub key path next act frames rest := by
  cases act with
  | send ref value timestampNs =>
    refine ⟨frames, ?_⟩
    unfold step at stepped
    simp only at stepped
    split at stepped
    · obtain ⟨sender, stamped, rfl⟩ := Option.map_eq_some_iff.mp stepped
      obtain ⟨publisher, -, rfl⟩ := Option.map_eq_some_iff.mp stamped
      refine .same ?_ ?_ ?_ ?_
      exacts [rfl, keyIds, awaits, rfl]
    · cases stepped
      exact .same rfl keyIds awaits rfl
  | task act =>
    obtain ⟨sender, stepped, rfl⟩ := Option.map_eq_some_iff.mp stepped
    refine ⟨frames, .behind ?_ ?_ ?_⟩
    exacts [keyIds, awaits, by simp only [way, brought, List.map_append, List.append_assoc]]
  | forward head message => exact carries_forward keyIds awaits may stepped
  | lose =>
    cases stepped
    refine ⟨frames, .less ?_ ?_ ?_ ?_ id⟩
    exacts [rfl, keyIds, awaits,
      ((((List.tail_sublist _).map _).append_left _).append_left _).append_left _]
  | traffic frame =>
    -- The frame pushes nothing into the subscription, so it may stand anywhere on the way.
    cases stepped
    obtain ⟨pushes, steady, none⟩ := steady_traffic may
    have written := @way_write sub frames (frame, pushes) path path.inbox
    rw [none] at written
    refine ⟨frames ++ [(frame, pushes)], .same ?_ ?_ ?_ ?_⟩
    exacts [rfl, keyIds, awaits.write steady may.1, written]
  | arrive count => exact carries_arrive keyIds awaits stepped
  | timeout =>
    cases stepped
    have still := awaits.drop_eq may
    rw [still]
    exact ⟨frames, .same rfl keyIds awaits rfl⟩
  | redial node =>
    -- All that was on the old link is lost; what waits in the queue stays.
    cases stepped
    refine ⟨[], .less ?_ ?_ ?_ ?_ id⟩
    exacts [rfl, may.1, .start may.2, ((List.sublist_append_right _ _).append_left _).append_left _]
  | tryRecv =>
    unfold step Subscriber.tryRecv at stepped
    cases channel : path.subscriber.channel with
    | nil =>
      simp only [channel] at stepped
      cases stepped
      exact ⟨frames, .same rfl keyIds awaits rfl⟩
    | cons raw rest =>
      simp only [channel] at stepped
      cases stepped
      refine ⟨frames, .same ?_ ?_ ?_ ?_⟩
      exacts [rfl, keyIds, awaits, by simp [way, channel]]
  | clear =>
    cases stepped
    refine ⟨frames, .less ?_ ?_ ?_ ?_ id⟩
    exacts [rfl, keyIds, awaits, (List.sublist_append_right _ _).append_left _]

end Way

section Runs
variable [Target] {types : PubRef → Ty} {topic : PubRef → TopicKeyExpr} {key : String} {sub : SubRef}
  {path next : NetworkPath} {act : NetworkAct types}

/-- What is on the wire under the key expression, with the publishers. -/
def published (key : String) (path : NetworkPath) : List (PubRef × CdrPayload) :=
  path.sender.world.log.flatMap (Event.published key)

abbrev On (topic : PubRef → TopicKeyExpr) (key : String) (ref : PubRef) : Prop :=
  (topic ref).toKeyExpr.map HeaplessString.text = some key

/-- The payloads that were published, in any state of a run. -/
structure Sound (types : PubRef → Ty) (topic : PubRef → TopicKeyExpr) (key : String) (sub : SubRef)
    (holds : List Bytes → List Bytes → Prop) (path : NetworkPath) : Prop where
  sending : Sending types topic path.sender path.sent
  keyIds : KeyIds path.receiver.subscribers
  carried : ∃ frames, path.spin.Awaits path.statics path.receiver path.link frames ∧
    holds (path.way sub frames) ((path.published key).map fun item => item.2.data)

theorem sending_step (sending : Sending types topic path.sender path.sent) (may : allowed types key sub path act)
    (stepped : path.step types key sub act = some next) : Sending types topic next.sender next.sent := by
  cases act with
  | send ref value timestampNs =>
    unfold step at stepped
    simp only at stepped
    split at stepped
    · rename_i n raw ran
      obtain ⟨sender, stamped, rfl⟩ := Option.map_eq_some_iff.mp stepped
      exact sending.send value.property may.1 may.2.1 may.2.2 ran stamped
    · cases stepped
      exact sending
  | task act =>
    obtain ⟨sender, ran, rfl⟩ := Option.map_eq_some_iff.mp stepped
    refine sending.task ?_ ran
    rintro ref data timestampNs rfl
    exact may
  | tryRecv =>
    unfold step at stepped
    simp only at stepped
    split at stepped
    · cases stepped
      exact sending
    · cases stepped
      exact sending
  | _ =>
    cases stepped
    exact sending

theorem sender_cases (stepped : path.step types key sub act = some next) :
    next.sender = path.sender ∨ ∃ act, path.sender.step act = some next.sender := by
  cases act with
  | send ref value timestampNs =>
    unfold step at stepped
    simp only at stepped
    split at stepped
    · obtain ⟨sender, stamped, rfl⟩ := Option.map_eq_some_iff.mp stepped
      exact .inr ⟨_, stamped⟩
    · cases stepped
      exact .inl rfl
  | task act =>
    obtain ⟨sender, ran, rfl⟩ := Option.map_eq_some_iff.mp stepped
    exact .inr ⟨act, ran⟩
  | tryRecv =>
    unfold step at stepped
    simp only at stepped
    split at stepped
    · cases stepped
      exact .inl rfl
    · cases stepped
      exact .inl rfl
  | _ =>
    cases stepped
    exact .inl rfl

theorem published_step (sending : Sending types topic path.sender path.sent)
    (stepped : path.step types key sub act = some next) :
    (next.published key).map (fun item => item.2.data) =
      (path.published key).map (fun item => item.2.data) ++ brought key path next := by
  rcases sender_cases stepped with same | ⟨act, ran⟩
  · rw [brought_eq_nil (by rw [same]), List.append_nil, published, same, published]
  · obtain ⟨events, log, keyed⟩ := sending.writes ran
    rw [brought, log, List.drop_left, published, log, List.flatMap_append, List.map_append, published,
      List.map_flatMap, List.map_flatMap, List.map_flatMap]
    congr 1
    exact List.flatMap_congr fun event member => ((keyed event member).payloads_eq).symm

theorem Sound.step (sound : Sound types topic key sub Trimmed path) (may : allowed types key sub path act)
    (stepped : path.step types key sub act = some next) : Sound types topic key sub Trimmed next := by
  obtain ⟨frames, awaits, trimmed⟩ := sound.carried
  obtain ⟨rest, carries⟩ := carries sound.keyIds awaits may stepped
  refine ⟨sending_step sound.sending may stepped, carries.keyIds, rest, carries.awaits, ?_⟩
  rw [published_step sound.sending stepped]
  exact carries.trimmed.trans (trimmed.append (.refl _))

theorem Sound.step_keeping (sound : Sound types topic key sub Eq path) (may : allowed types key sub path act)
    (keeping : Keeping sub path act) (stepped : path.step types key sub act = some next) :
    Sound types topic key sub Eq next := by
  obtain ⟨frames, awaits, whole⟩ := sound.carried
  obtain ⟨rest, carries⟩ := carries sound.keyIds awaits may stepped
  refine ⟨sending_step sound.sending may stepped, carries.keyIds, rest, carries.awaits, ?_⟩
  rw [published_step sound.sending stepped, carries.kept keeping, whole]

def initial (topic : PubRef → TopicKeyExpr) (locality : PubRef → Locality) (cdrCap queue : PubRef → Nat)
    (msgSize subQueue : Nat) (node receiver : Node) (statics : PubRef → Publisher) : NetworkPath where
  sender := .initial (fun ref => .fresh (topic ref) (locality ref) (cdrCap ref) (queue ref)) node
  sent _ := []
  inbox := []
  receiver := receiver
  statics := statics
  link := []
  spin := .start statics receiver
  subscriber := .new msgSize subQueue
  taken := []

theorem initial_sound (locality : PubRef → Locality) (cdrCap queue : PubRef → Nat) (msgSize subQueue : Nat) (node : Node)
    {receiver : Node} (keyIds : KeyIds receiver.subscribers) {statics : PubRef → Publisher} (drains : Drains statics receiver)
    {holds : List Bytes → List Bytes → Prop} (none : holds [] []) :
    Sound types topic key sub holds (initial topic locality cdrCap queue msgSize subQueue node receiver statics) where
  sending := {
    control := .idle
    topics _ := rfl
    held _ _ _ inner := by cases inner
    keyed _ member := by cases member
    ordered ref := by
      have empty : (System.initial (fun ref => .fresh (topic ref) (locality ref) (cdrCap ref) (queue ref)) node).line ref =
          [] := rfl
      exact ⟨empty ▸ .nil, by simp [initial, empty], by simp [initial, System.initial, Publisher.fresh]⟩
    count _ := rfl
    typed _ _ member := by cases member
    inPlace _ _ member := by cases member }
  keyIds := keyIds
  carried := ⟨[], .start drains, none⟩

theorem published_wire (sending : Sending types topic path.sender path.sent) (ref : PubRef) :
    (path.published key).filterMap (ofPublisher ref) =
      if (topic ref).toKeyExpr.map HeaplessString.text = some key then path.sender.world.log.flatMap (Event.wire ref)
      else [] := by
  rw [published, List.filterMap_flatMap]
  have each (event : Event) (member : event ∈ path.sender.world.log) :
      (event.published key).filterMap (ofPublisher ref) = _ := (sending.keyed event member).published_eq ref
  rw [List.flatMap_congr each]
  by_cases mine : (topic ref).toKeyExpr.map HeaplessString.text = some key
  · simp only [if_pos mine]
  · simp only [if_neg mine, List.flatMap_eq_nil_iff, implies_true]

theorem wire_front (system : System) (ref : PubRef) : system.world.log.flatMap (Event.wire ref) <+: system.line ref := by
  unfold System.line Outbox.Box.line
  rw [List.append_assoc]
  exact List.prefix_append _ _

theorem published_front (sending : Sending types topic path.sender path.sent) (ref : PubRef) :
    (path.published key).filterMap (ofPublisher ref) <+: path.sender.line ref := by
  rw [published_wire sending]
  split
  · exact wire_front path.sender ref
  · exact List.nil_prefix

theorem published_ordered (sending : Sending types topic path.sender path.sent) :
    (path.published key).Pairwise fun first second => first.1 = second.1 → first.2.seqNum < second.2.seqNum := by
  have each (ref : PubRef) : (path.published key).Pairwise fun first second =>
      ∀ payload ∈ ofPublisher ref first, ∀ later ∈ ofPublisher ref second, payload.seqNum < later.seqNum := by
    refine List.pairwise_filterMap.mp ?_
    exact (List.pairwise_map.mp (sending.ordered ref).sorted).sublist (published_front sending ref).sublist
  rw [List.pairwise_iff_getElem]
  intro i j early late before same
  refine List.pairwise_iff_getElem.mp (each (path.published key)[i].1) i j early late before _ ?_ _ ?_
  · exact mem_ofPublisher.mpr rfl
  · rw [same]
    exact mem_ofPublisher.mpr rfl

theorem mem_published (sending : Sending types topic path.sender path.sent) {item : PubRef × CdrPayload}
    (member : item ∈ path.published key) :
    (topic item.1).toKeyExpr.map HeaplessString.text = some key ∧ InPlace (path.sent item.1) item.2 := by
  obtain ⟨event, logged, among⟩ := List.mem_flatMap.mp member
  refine ⟨(sending.keyed event logged).mem_published among, sending.inPlace item.1 item.2 ?_⟩
  exact (published_front sending item.1).subset (List.mem_filterMap.mpr ⟨item, member, mem_ofPublisher.mpr rfl⟩)

/-- What `try_recv` returned. -/
def results (ty : Ty) (path : NetworkPath) : List (Outcome Error Message) := path.taken.map (Subscription.decoded ty)

def origin (item : PubRef × CdrPayload) : PubRef × Nat := (item.1, item.2.seqNum.toInt.toNat)

def InTurn (origins : List (PubRef × Nat)) : Prop :=
  origins.Pairwise fun first second => first.1 = second.1 → first.2 < second.2

theorem inTurn_origins (sending : Sending types topic path.sender path.sent) {items : List (PubRef × CdrPayload)}
    (kept : items.Sublist (path.published key)) : InTurn (items.map origin) := by
  unfold InTurn
  rw [List.pairwise_map]
  refine ((published_ordered sending).sublist kept).imp_of_mem fun {first second} early late before same => ?_
  obtain ⟨-, n, -, number, -⟩ := mem_published sending (kept.subset early)
  obtain ⟨-, m, -, later, -⟩ := mem_published sending (kept.subset late)
  have less := Int64.lt_iff_toInt_lt.mp (before same)
  change first.2.seqNum.toInt.toNat < second.2.seqNum.toInt.toNat
  omega

/-- The result is the message with this number, or an error if the message was cut. -/
def Results (path : NetworkPath) (origin : PubRef × Nat) (result : Outcome Error Message) : Prop :=
  ∃ message, (path.sent origin.1)[origin.2]? = some message ∧ (result = .ok message ∨ ∃ error, result = .err (.cdr error))

theorem results_of_front {ty : Ty} (sending : Sending types topic path.sender path.sent) {item : PubRef × CdrPayload}
    (same : types item.1 = ty) (inPlace : InPlace (path.sent item.1) item.2) {raw : Bytes} (front : raw <+: item.2.data) :
    path.Results (origin item) (Subscription.decoded ty raw) := by
  obtain ⟨n, message, number, found, within, addressable, piece⟩ := inPlace
  obtain rfl : message.ty = ty := (sending.typed item.1 message (List.mem_of_getElem? found)).trans same
  refine ⟨message, ?_, ?_⟩
  · rw [origin, number, Int.toNat_natCast]
    exact found
  · rcases Subscription.decoded_of_prefix within addressable (front.trans piece) with whole | failed
    · exact .inl whole
    · exact .inr failed

abbrev Run (types : PubRef → Ty) (key : String) (sub : SubRef) : NetworkPath → NetworkPath → Prop :=
  Machine.Run (step types key sub) (allowed types key sub)

theorem Run.sound {start : NetworkPath} (run : Run types key sub start path)
    (sound : Sound types topic key sub Trimmed start) : Sound types topic key sub Trimmed path := by
  apply Machine.Run.invariant (Sound types topic key sub Trimmed) run sound
  intro path next act _ before may stepped
  exact before.step may stepped

/-- Whatever gets lost on the way, and whatever is cut or comes in which chunks: a
subscription receives messages that were sent under its key expression, or
errors in place of them, those of each publisher in the order in which they
were sent and none of them twice. -/
theorem received_in_order (types : PubRef → Ty) (ty : Ty) (topic : PubRef → TopicKeyExpr) (key : String) (sub : SubRef)
    (typed : ∀ ref, On topic key ref → types ref = ty) (locality : PubRef → Locality) (cdrCap queue : PubRef → Nat)
    (msgSize subQueue : Nat) (node receiver : Node) (keyIds : KeyIds receiver.subscribers) (statics : PubRef → Publisher)
    (drains : Drains statics receiver)
    (run : Run types key sub (initial topic locality cdrCap queue msgSize subQueue node receiver statics) path) :
    ∃ origins, InTurn origins ∧ (∀ origin ∈ origins, On topic key origin.1) ∧
      List.Forall₂ path.Results origins (path.results ty) := by
  have sound := run.sound (initial_sound locality cdrCap queue msgSize subQueue node keyIds drains (.refl []))
  obtain ⟨frames, -, trimmed⟩ := sound.carried
  have taken : Trimmed path.taken ((path.published key).map fun item => item.2.data) :=
    Trimmed.trans (.of_sublist (List.sublist_append_left _ _)) trimmed
  obtain ⟨kept, fronts, lost⟩ := List.sublistForall₂_iff.mp taken
  obtain ⟨items, among, rfl⟩ := List.sublist_map_iff.mp lost
  have genuine (item : PubRef × CdrPayload) (member : item ∈ items) := mem_published sound.sending (among.subset member)
  refine ⟨items.map origin, inTurn_origins sound.sending among, fun one member => ?_, ?_⟩
  · obtain ⟨item, inside, rfl⟩ := List.mem_map.mp member
    exact (genuine item inside).1
  · rw [results, List.forall₂_map_left_iff, List.forall₂_map_right_iff]
    rw [List.forall₂_map_right_iff] at fronts
    refine ((List.forall₂_and_left items path.taken).mpr ⟨genuine, fronts.flip⟩).imp fun item raw both => ?_
    exact results_of_front sound.sending (typed item.1 both.1.1) both.1.2 both.2

omit [Target] in
/-- The slots are too small for the first message, and the second one is lost. -/
theorem received_in_order_cut :
    let chatter : TopicKeyExpr := ⟨0, "chatter", "UInt32", "hash"⟩
    let key := "0/chatter/UInt32/hash"
    let talker := { Node.built "talker" "" 0 (ZenohId.fromBytes [7]) 10000 10000 with publishers := [0] }
    let listener := { Node.built "listener" "" 0 (ZenohId.fromBytes [8]) 10000 10000 with
      subscribers := [⟨1, .any, chatter, 3⟩] }
    let statics : PubRef → Publisher := fun _ => .fresh chatter .any 8 4
    let start := initial (fun _ => chatter) (fun _ => .any) (fun _ => 8) (fun _ => 4) 6 4 talker listener statics
    letI := target64
    ∃ path : NetworkPath, Run (fun _ => .prim .u32) key 3 start path ∧ path.taken.length = 1 ∧
      ∃ origins, InTurn origins ∧ (∀ origin ∈ origins, On (fun _ => chatter) key origin.1) ∧
        List.Forall₂ path.Results origins (path.results (.prim .u32)) := by
  intro chatter key talker listener statics start
  let := target64
  obtain ⟨path, run, taken⟩ : ∃ path : NetworkPath, Run (fun _ => .prim .u32) key 3 start path ∧ path.taken.length = 1 :=
    Machine.exists_run [.send 0 ⟨(5 : UInt32), trivial⟩ 0, .task (.enqueue 0 0), .send 0 ⟨(6 : UInt32), trivial⟩ 1,
      .task (.enqueue 0 0), .task .call, .task (.turn true), .task (.turn true), .task (.turn true), .task (.turn true),
      .forward ⟨0, true, []⟩ ⟨1, false, none, [], none, none, [], [0, 1, 0, 0, 5, 0, 0, 0]⟩, .lose, .arrive 3,
      .traffic [4], .arrive 20, .timeout, .tryRecv] (by decide +kernel)
  exact ⟨path, run, taken, received_in_order (fun _ => .prim .u32) (.prim .u32) (fun _ => chatter) key 3 (fun _ _ => rfl)
    (fun _ => .any) (fun _ => 8) (fun _ => 4) 6 4 talker listener ⟨by decide, by decide⟩ statics (by decide) run⟩

end Runs
end NetworkPath
end ZenohRos2
