import ZenohRos2.Ros2.Names
import ZenohRos2.Sdk.Numbering

/-! What a registration does, whatever becomes of its writes.

A method writes up to three frames, with its checks between them. What it
returns and what it leaves behind is a function of the state it starts in.
-/

set_option autoImplicit false

namespace ZenohRos2
open Rust

namespace Session

def named (session : Session) : Session :=
  { session with node := { session.node with entityIdGen := UInt32.ofNat (session.node.entityIdGen.toNat + 1) } }

def keyed (session : Session) : Session :=
  { session with node := { session.node with keyIdGen := session.node.keyIdGen + 1 } }

def declared (session : Session) (keyExpr : String) : Session :=
  (session.keyed.delivered (declareKeyexprBytes session.node.keyIdGen keyExpr)).delivered
    (declareSubscriberMappedBytes session.node.keyIdGen.toUInt32 session.node.keyIdGen)

def withPublisher (session : Session) (ref : PubRef) : Session :=
  { session with node := { session.node with publishers := pushWithin maxPubs session.node.publishers ref } }

def withSubscriber (session : Session) (entry : SubscriberEntry) : Session :=
  { session with node := { session.node with subscribers := pushWithin maxSubs session.node.subscribers entry } }

def Unnameable (session : Session) (entityType : EntityType) (topic : TopicKeyExpr) : Prop :=
  session.node.entityIdGen.toNat + 1 < 2 ^ 32 ∧ session.node.token entityType topic = none

instance (session : Session) (entityType : EntityType) (topic : TopicKeyExpr) :
    Decidable (session.Unnameable entityType topic) :=
  inferInstanceAs (Decidable (_ ∧ _))

def Announces (session : Session) (entityType : EntityType) (topic : TopicKeyExpr) : Prop :=
  (session.node.token entityType topic).isSome ∧ session.outcomes session.tried

instance (session : Session) (entityType : EntityType) (topic : TopicKeyExpr) :
    Decidable (session.Announces entityType topic) :=
  inferInstanceAs (Decidable (_ ∧ _))

end Session

theorem Node.token_eq_none_iff {node : Node} (next : node.entityIdGen.toNat + 1 < 2 ^ 32) (entityType : EntityType)
    (topic : TopicKeyExpr) : node.token entityType topic = none ↔
      maxLivelinessLen < (String.ofList (livelinessChars node.domainId node.gid 0 node.entityIdGen entityType ""
        node.namespace node.nodeName topic.topicName topic.typeName topic.typeHash)).utf8ByteSize := by
  rw [Node.token, if_pos next, ← Nat.not_le, ← buildLivelinessToken_isSome_iff, Option.not_isSome_iff_eq_none]

theorem Node.token_eq_none_of_namespace {node : Node} (next : node.entityIdGen.toNat + 1 < 2 ^ 32)
    (long : maxLivelinessLen < node.namespace.toList.length) (entityType : EntityType) (topic : TopicKeyExpr) :
    node.token entityType topic = none := by
  apply (Node.token_eq_none_iff next entityType topic).mpr
  calc maxLivelinessLen
    _ < node.namespace.toList.length := long
    _ ≤ (mangledAbsolute node.namespace).length := le_length_mangledAbsolute node.namespace
    _ ≤ _ := le_length_livelinessChars node.domainId node.gid 0 node.entityIdGen entityType "" node.namespace
      node.nodeName topic.topicName topic.typeName topic.typeHash
    _ ≤ _ := length_le_utf8ByteSize _

section Methods
variable [Target] {session : Session} {topic : TopicKeyExpr}

theorem declareLiveliness_eq (entityType : EntityType) (topic : TopicKeyExpr) (session : Session) :
    declareLiveliness entityType topic session =
      if session.node.entityIdGen.toNat + 1 < 2 ^ 32 then
        match session.node.token entityType topic with
        | none => (.err .invalidArgument, session.named)
        | some token => session.named.attempt (declareTokenBytes session.node.entityIdGen token.text)
      else (.panic .overflow, session) := by
  unfold declareLiveliness
  rw [Action.bind_of_ok (Method.getNode_run _), u32Add]
  by_cases next : session.node.entityIdGen.toNat + 1 < 2 ^ 32
  · rw [if_pos next, if_pos next, Action.bind_of_ok (Action.lift_run _ _), Action.bind_of_ok (Method.modifyNode_run _ _),
      Node.token, if_pos next]
    cases buildLivelinessToken session.node.domainId session.node.gid 0 session.node.entityIdGen entityType ""
        session.node.namespace session.node.nodeName topic.topicName topic.typeName topic.typeHash Qos.default with
    | none => rfl
    | some token =>
      have short : token.text.utf8ByteSize ≤ 512 := token.fits
      have fits := tokenFrame_length_le session.node.sn session.node.entityIdGen token
      have sent := @sendMessage_attempts _ session.named _ 768 _ (encodes_encodeDeclareToken session.node.entityIdGen
        (le_isizeMax (show (utf8 token.text).length < _ by rw [utf8_length]; omega))) (by decide) (by decide)
      rw [if_pos (show (messageFrame session.named.node.sn _).length ≤ 768 from fits)] at sent
      exact sent
  · rw [if_neg next, if_neg next, Action.bind_of_panic (Action.lift_run _ _)]

theorem declareKeyExpr_eq (keyExpr : HeaplessString maxKeyExprLen) (session : Session) :
    declareKeyExpr keyExpr.text session =
      if session.outcomes session.tried then
        (.ok session.node.keyIdGen,
          session.keyed.delivered (declareKeyexprBytes session.node.keyIdGen keyExpr.text))
      else (.err (.transport .io), session.keyed.refused) := by
  have short : keyExpr.text.utf8ByteSize ≤ 256 := keyExpr.fits
  have header := frameHeaderBytes_length_le session.node.sn true
  have id := vbyte_length_le (session.node.keyIdGen.toUInt64)
  have inline := inlineKeyBytes_length_le (show keyExpr.text.utf8ByteSize ≤ 512 by omega)
  have fits : (messageFrame session.keyed.node.sn
      (declareKeyexprBytes session.node.keyIdGen keyExpr.text)).length ≤ 512 := by
    change (messageFrame session.node.sn _).length ≤ 512
    simp only [messageFrame, declareKeyexprBytes, List.length_append, List.length_singleton]
    omega
  have sent := @sendMessage_attempts _ session.keyed _ 512 _ (encodes_encodeDeclareKeyexpr session.node.keyIdGen
    (le_isizeMax (show (utf8 keyExpr.text).length < _ by rw [utf8_length]; omega))) (by decide) (by decide)
  rw [if_pos fits] at sent
  unfold declareKeyExpr
  rw [Action.bind_of_ok (Method.getNode_run _), Action.bind_of_ok (Method.modifyNode_run _ _)]
  change (sendMessage 512 (encodeDeclareKeyexpr session.node.keyIdGen keyExpr.text) >>= fun _ =>
    pure session.node.keyIdGen) session.keyed = _
  by_cases writes : session.outcomes session.tried
  · rw [Session.attempt, if_pos (show session.keyed.outcomes session.keyed.tried from writes)] at sent
    rw [Action.bind_of_ok sent, if_pos writes]
    rfl
  · rw [Session.attempt, if_neg (show ¬session.keyed.outcomes session.keyed.tried from writes)] at sent
    rw [Action.bind_of_err sent, if_neg writes]

theorem declareSubscriber_eq (keyId : UInt16) (session : Session) :
    declareSubscriber keyId session = session.attempt (declareSubscriberMappedBytes keyId.toUInt32 keyId) := by
  have header := frameHeaderBytes_length_le session.node.sn true
  have subId := vbyte_length_le keyId.toUInt32.toUInt64
  have mapped := vbyte_length_le keyId.toUInt64
  unfold declareSubscriber
  rw [sendMessage_attempts (encodes_encodeDeclareSubscriberMapped _ _) (by decide) (by decide), if_pos]
  simp only [messageFrame, declareSubscriberMappedBytes, List.length_append, List.length_singleton]
  omega

inductive Announcement (session : Session) (entityType : EntityType) (topic : TopicKeyExpr) :
    Outcome Error Unit × Session → Prop where
  | exhausted (last : 2 ^ 32 ≤ session.node.entityIdGen.toNat + 1) :
      Announcement session entityType topic (.panic .overflow, session)
  | unnameable (long : session.Unnameable entityType topic) :
      Announcement session entityType topic (.err .invalidArgument, session.named)
  | unwritten (named : (session.node.token entityType topic).isSome)
      (failed : session.outcomes session.tried = false) :
      Announcement session entityType topic (.err (.transport .io), session.named.refused)
  | announced {token : HeaplessString maxLivelinessLen} (named : session.node.token entityType topic = some token)
      (written : session.outcomes session.tried = true) :
      Announcement session entityType topic (.ok (), session.announced token)

theorem declareLiveliness_announcement (entityType : EntityType) (topic : TopicKeyExpr) (session : Session) :
    Announcement session entityType topic (declareLiveliness entityType topic session) := by
  rw [declareLiveliness_eq]
  by_cases next : session.node.entityIdGen.toNat + 1 < 2 ^ 32
  · rw [if_pos next]
    cases found : session.node.token entityType topic with
    | none => exact .unnameable ⟨next, found⟩
    | some token =>
      cases written : session.outcomes session.tried with
      | false =>
        have ran : session.named.attempt (declareTokenBytes session.node.entityIdGen token.text) =
            (.err (.transport .io), session.named.refused) :=
          if_neg (Bool.eq_false_iff.mp (show session.named.outcomes session.named.tried = false from written))
        simp only [ran]
        exact .unwritten (found ▸ rfl) written
      | true =>
        have ran : session.named.attempt (declareTokenBytes session.node.entityIdGen token.text) =
            (.ok (), session.announced token) :=
          if_pos (show session.named.outcomes session.named.tried = true from written)
        simp only [ran]
        exact .announced found written
  · rw [if_neg next]
    exact .exhausted (Nat.le_of_not_lt next)

inductive PublisherCreated (session : Session) (publisher : Publisher) (ref : PubRef) :
    Outcome Error Unit × Session → Prop where
  | unannounced (only : publisher.locality = .sessionLocal) :
      PublisherCreated session publisher ref (.ok (), session.withPublisher ref)
  | exhausted (outside : publisher.locality ≠ .sessionLocal) (last : 2 ^ 32 ≤ session.node.entityIdGen.toNat + 1) :
      PublisherCreated session publisher ref (.panic .overflow, session)
  | unnameable (outside : publisher.locality ≠ .sessionLocal)
      (long : session.Unnameable .publisher publisher.topic) :
      PublisherCreated session publisher ref (.err .invalidArgument, session.named)
  | unwritten (outside : publisher.locality ≠ .sessionLocal)
      (named : (session.node.token .publisher publisher.topic).isSome)
      (failed : session.outcomes session.tried = false) :
      PublisherCreated session publisher ref (.err (.transport .io), session.named.refused)
  | announced {token : HeaplessString maxLivelinessLen} (outside : publisher.locality ≠ .sessionLocal)
      (named : session.node.token .publisher publisher.topic = some token)
      (written : session.outcomes session.tried = true) :
      PublisherCreated session publisher ref (.ok (), (session.announced token).withPublisher ref)

theorem createPublisher_created (publisher : Publisher) (ref : PubRef) (session : Session) :
    PublisherCreated session publisher ref (createPublisher publisher ref session) := by
  unfold createPublisher
  by_cases only : publisher.locality = .sessionLocal
  · simp only [if_neg (not_not_intro only)]
    exact .unannounced only
  simp only [if_pos only]
  have announcement := declareLiveliness_announcement .publisher publisher.topic session
  generalize ran : declareLiveliness .publisher publisher.topic session = outcome at announcement
  cases announcement with
  | exhausted last =>
    rw [Action.bind_of_panic ran]
    exact .exhausted only last
  | unnameable long =>
    rw [Action.bind_of_err ran]
    exact .unnameable only long
  | unwritten named failed =>
    rw [Action.bind_of_err ran]
    exact .unwritten only named failed
  | announced named written =>
    rw [Action.bind_of_ok ran]
    exact .announced only named written

structure Declared (session : Session) (topic : TopicKeyExpr) (keyExpr : HeaplessString maxKeyExprLen) : Prop where
  key : topic.toKeyExpr = some keyExpr
  keyWritten : session.outcomes session.tried = true
  subscriberWritten : session.outcomes (session.tried + 1) = true

inductive SubscriptionCreated (session : Session) (topic : TopicKeyExpr) (locality : Locality) (dispatch : SubRef) :
    Outcome Error Unit × Session → Prop where
  | unannounced (only : locality = .sessionLocal) :
      SubscriptionCreated session topic locality dispatch
        (.ok (), session.withSubscriber ⟨0, locality, topic, dispatch⟩)
  | unformatted (outside : locality ≠ .sessionLocal) (long : topic.toKeyExpr = none) :
      SubscriptionCreated session topic locality dispatch (.err .invalidArgument, session)
  | keyUnwritten (outside : locality ≠ .sessionLocal) (key : topic.toKeyExpr.isSome)
      (failed : session.outcomes session.tried = false) :
      SubscriptionCreated session topic locality dispatch (.err (.transport .io), session.keyed.refused)
  | subscriberUnwritten {keyExpr : HeaplessString maxKeyExprLen} (outside : locality ≠ .sessionLocal)
      (key : topic.toKeyExpr = some keyExpr) (keyWritten : session.outcomes session.tried = true)
      (failed : session.outcomes (session.tried + 1) = false) :
      SubscriptionCreated session topic locality dispatch (.err (.transport .io),
        (session.keyed.delivered (declareKeyexprBytes session.node.keyIdGen keyExpr.text)).refused)
  | exhausted {keyExpr : HeaplessString maxKeyExprLen} (outside : locality ≠ .sessionLocal)
      (declared : Declared session topic keyExpr) (last : 2 ^ 32 ≤ session.node.entityIdGen.toNat + 1) :
      SubscriptionCreated session topic locality dispatch (.panic .overflow, session.declared keyExpr.text)
  | unnameable {keyExpr : HeaplessString maxKeyExprLen} (outside : locality ≠ .sessionLocal)
      (declared : Declared session topic keyExpr) (long : session.Unnameable .subscriber topic) :
      SubscriptionCreated session topic locality dispatch
        (.err .invalidArgument, (session.declared keyExpr.text).named)
  | tokenUnwritten {keyExpr : HeaplessString maxKeyExprLen} (outside : locality ≠ .sessionLocal)
      (declared : Declared session topic keyExpr) (named : (session.node.token .subscriber topic).isSome)
      (failed : session.outcomes (session.tried + 2) = false) :
      SubscriptionCreated session topic locality dispatch
        (.err (.transport .io), (session.declared keyExpr.text).named.refused)
  | announced {keyExpr : HeaplessString maxKeyExprLen} {token : HeaplessString maxLivelinessLen}
      (outside : locality ≠ .sessionLocal) (declared : Declared session topic keyExpr)
      (named : session.node.token .subscriber topic = some token)
      (tokenWritten : session.outcomes (session.tried + 2) = true) :
      SubscriptionCreated session topic locality dispatch (.ok (),
        ((session.declared keyExpr.text).announced token).withSubscriber
          ⟨session.node.keyIdGen, locality, topic, dispatch⟩)

theorem declares {keyExpr : HeaplessString maxKeyExprLen} (declared : Declared session topic keyExpr) :
    declareKeyExpr keyExpr.text session =
        (.ok session.node.keyIdGen,
          session.keyed.delivered (declareKeyexprBytes session.node.keyIdGen keyExpr.text)) ∧
      declareSubscriber session.node.keyIdGen
          (session.keyed.delivered (declareKeyexprBytes session.node.keyIdGen keyExpr.text)) =
        (.ok (), session.declared keyExpr.text) := by
  constructor
  · rw [declareKeyExpr_eq, if_pos declared.keyWritten]
  · rw [declareSubscriber_eq]
    exact if_pos declared.subscriberWritten

theorem createSubscription_created (topic : TopicKeyExpr) (locality : Locality) (dispatch : SubRef)
    (session : Session) :
    SubscriptionCreated session topic locality dispatch (createSubscription topic locality dispatch session) := by
  unfold createSubscription registerSubscription
  by_cases only : locality = .sessionLocal
  · rw [if_pos only]
    exact .unannounced only
  rw [if_neg only]
  cases key : topic.toKeyExpr with
  | none => exact .unformatted only key
  | some keyExpr =>
    cases keyWritten : session.outcomes session.tried with
    | false =>
      have failed := declareKeyExpr_eq keyExpr session
      rw [if_neg (Bool.eq_false_iff.mp keyWritten)] at failed
      rw [Action.bind_of_err (Action.bind_of_err failed)]
      exact .keyUnwritten only (key ▸ rfl) keyWritten
    | true =>
      cases subscriberWritten : session.outcomes (session.tried + 1) with
      | false =>
        have declaring := declareKeyExpr_eq keyExpr session
        rw [if_pos keyWritten] at declaring
        let keyed := session.keyed.delivered (declareKeyexprBytes session.node.keyIdGen keyExpr.text)
        have unwritten : ¬session.outcomes (session.tried + 1) = true := Bool.eq_false_iff.mp subscriberWritten
        have failed : declareSubscriber session.node.keyIdGen keyed = (.err (.transport .io), keyed.refused) :=
          (declareSubscriber_eq session.node.keyIdGen keyed).trans (if_neg unwritten)
        have stopped : (declareKeyExpr keyExpr.text >>= fun keyId => declareSubscriber keyId >>= fun _ =>
            declareLiveliness .subscriber topic >>= fun _ => pure keyId) session =
              (.err (.transport .io), keyed.refused) := by
          rw [Action.bind_of_ok declaring]
          exact Action.bind_of_err failed
        rw [Action.bind_of_err stopped]
        exact .subscriberUnwritten only key keyWritten subscriberWritten
      | true =>
        have declared : Declared session topic keyExpr := ⟨key, keyWritten, subscriberWritten⟩
        obtain ⟨declaring, subscribing⟩ := declares declared
        -- What is left is the announcement, in the state behind both declarations.
        have front {result : Outcome Error UInt16 × Session}
            (rest : (declareLiveliness .subscriber topic >>= fun _ => pure session.node.keyIdGen)
              (session.declared keyExpr.text) = result) :
            (declareKeyExpr keyExpr.text >>= fun keyId => declareSubscriber keyId >>= fun _ =>
              declareLiveliness .subscriber topic >>= fun _ => pure keyId) session = result :=
          (Action.bind_of_ok declaring).trans ((Action.bind_of_ok subscribing).trans rest)
        have announcement := declareLiveliness_announcement .subscriber topic (session.declared keyExpr.text)
        generalize ran : declareLiveliness .subscriber topic (session.declared keyExpr.text) = outcome at announcement
        cases announcement with
        | exhausted last =>
          rw [Action.bind_of_panic (front (Action.bind_of_panic ran))]
          exact .exhausted only declared last
        | unnameable long =>
          rw [Action.bind_of_err (front (Action.bind_of_err ran))]
          exact .unnameable only declared long
        | unwritten named failed =>
          rw [Action.bind_of_err (front (Action.bind_of_err ran))]
          exact .tokenUnwritten only declared named failed
        | announced named written =>
          rw [Action.bind_of_ok (front (Action.bind_of_ok ran))]
          exact .announced only declared named written

end Methods

/-- Nothing was written, and the counters and the tables are as before. -/
structure Untouched (before after : Session) : Prop where
  tried : after.tried = before.tried
  sent : after.sent = before.sent
  sn : after.node.sn = before.node.sn
  keyIdGen : after.node.keyIdGen = before.node.keyIdGen
  entityIdGen : after.node.entityIdGen = before.node.entityIdGen
  publishers : after.node.publishers = before.node.publishers
  subscribers : after.node.subscribers = before.node.subscribers

/-- The call leaves nothing behind if it rejects its arguments. -/
def RejectsCleanly (call : Method Unit) (session : Session) : Prop :=
  (call session).1 = .err .invalidArgument → Untouched session (call session).2

theorem Session.named_entityIdGen_ne {session : Session} {entityType : EntityType} {topic : TopicKeyExpr}
    (long : session.Unnameable entityType topic) : session.named.node.entityIdGen ≠ session.node.entityIdGen := by
  intro same
  have counted := congrArg UInt32.toNat same
  change (UInt32.ofNat (session.node.entityIdGen.toNat + 1)).toNat = _ at counted
  rw [UInt32.toNat_ofNat', Nat.mod_eq_of_lt long.1] at counted
  omega

section Rejection
variable [Target]

theorem createPublisher_rejectsCleanly_iff (publisher : Publisher) (ref : PubRef) (session : Session) :
    RejectsCleanly (createPublisher publisher ref) session ↔
      publisher.locality = .sessionLocal ∨ ¬session.Unnameable .publisher publisher.topic := by
  unfold RejectsCleanly
  have created := createPublisher_created publisher ref session
  generalize createPublisher publisher ref session = outcome at created
  cases created with
  | unannounced only => exact iff_of_true nofun (.inl only)
  | exhausted outside last => exact iff_of_true nofun (.inr fun long => Nat.not_lt.mpr last long.1)
  | unnameable outside long =>
    apply iff_of_false
    · exact fun clean => Session.named_entityIdGen_ne long (clean rfl).entityIdGen
    · exact fun either => either.elim outside fun short => short long
  | unwritten outside named failed =>
    exact iff_of_true nofun (.inr fun long => Option.ne_none_iff_isSome.mpr named long.2)
  | announced outside named written =>
    exact iff_of_true nofun (.inr fun long => Option.some_ne_none _ (named.symm.trans long.2))

theorem createSubscription_rejectsCleanly_iff (topic : TopicKeyExpr) (locality : Locality) (dispatch : SubRef)
    (session : Session) :
    RejectsCleanly (createSubscription topic locality dispatch) session ↔
      locality = .sessionLocal ∨ topic.toKeyExpr = none ∨ session.outcomes session.tried = false ∨
        session.outcomes (session.tried + 1) = false ∨ ¬session.Unnameable .subscriber topic := by
  unfold RejectsCleanly
  have created := createSubscription_created topic locality dispatch session
  generalize createSubscription topic locality dispatch session = outcome at created
  cases created with
  | unannounced only => exact iff_of_true nofun (.inl only)
  | unformatted outside long => exact iff_of_true (fun _ => ⟨rfl, rfl, rfl, rfl, rfl, rfl, rfl⟩) (.inr (.inl long))
  | keyUnwritten outside key failed => exact iff_of_true nofun (.inr (.inr (.inl failed)))
  | subscriberUnwritten outside key keyWritten failed =>
    exact iff_of_true nofun (.inr (.inr (.inr (.inl failed))))
  | exhausted outside declared last =>
    exact iff_of_true nofun (.inr (.inr (.inr (.inr fun long => Nat.not_lt.mpr last long.1))))
  | unnameable outside declared long =>
    apply iff_of_false
    · exact fun clean => Session.named_entityIdGen_ne long (clean rfl).entityIdGen
    · rintro (only | unformatted | failed | failed | short)
      · exact outside only
      · exact Option.some_ne_none _ (declared.key.symm.trans unformatted)
      · exact Bool.false_ne_true (failed.symm.trans declared.keyWritten)
      · exact Bool.false_ne_true (failed.symm.trans declared.subscriberWritten)
      · exact short long
  | tokenUnwritten outside declared named failed =>
    exact iff_of_true nofun (.inr (.inr (.inr (.inr fun long => Option.ne_none_iff_isSome.mpr named long.2))))
  | announced outside declared named tokenWritten =>
    exact iff_of_true nofun
      (.inr (.inr (.inr (.inr fun long => Option.some_ne_none _ (named.symm.trans long.2)))))

/-- A registration that rejects its arguments leaves nothing behind if and only
if it does so before it takes an entity id. -/
theorem registration_rejectsCleanly_iff (session : Session) :
    (∀ (publisher : Publisher) (ref : PubRef), RejectsCleanly (createPublisher publisher ref) session ↔
      publisher.locality = .sessionLocal ∨ ¬session.Unnameable .publisher publisher.topic) ∧
    ∀ (topic : TopicKeyExpr) (locality : Locality) (dispatch : SubRef),
      RejectsCleanly (createSubscription topic locality dispatch) session ↔
        locality = .sessionLocal ∨ topic.toKeyExpr = none ∨ session.outcomes session.tried = false ∨
          session.outcomes (session.tried + 1) = false ∨ ¬session.Unnameable .subscriber topic :=
  ⟨fun publisher ref => createPublisher_rejectsCleanly_iff publisher ref session,
    fun topic locality dispatch => createSubscription_rejectsCleanly_iff topic locality dispatch session⟩

omit [Target] in
/-- With a namespace of 600 letters the key expression fits and the token does not:
two frames are on the link when the subscription is rejected. -/
theorem registration_rejects_late :
    letI := target64
    ¬∀ (session : Session) (topic : TopicKeyExpr) (locality : Locality) (dispatch : SubRef),
      RejectsCleanly (createSubscription topic locality dispatch) session := by
  let := target64
  intro all
  let node := Node.built "listener" (String.ofList (List.replicate 600 'a')) 0 (ZenohId.fromBytes [7]) 10000 10000
  let session : Session := ⟨node, fun _ => true, 0, []⟩
  let topic : TopicKeyExpr := ⟨0, "chatter", "std_msgs::msg::dds_::String_", "RIHS01_"⟩
  have next : session.node.entityIdGen.toNat + 1 < 2 ^ 32 := by decide
  have long : maxLivelinessLen < node.namespace.toList.length := by
    change 512 < (String.ofList (List.replicate 600 'a')).toList.length
    rw [String.toList_ofList, List.length_replicate]
    decide
  have unnameable : session.Unnameable .subscriber topic :=
    ⟨next, Node.token_eq_none_of_namespace next long .subscriber topic⟩
  have clean := (createSubscription_rejectsCleanly_iff topic .any 3 session).mp (all session topic .any 3)
  have key : topic.toKeyExpr ≠ none := by decide +kernel
  rcases clean with only | unformatted | failed | failed | short
  · cases only
  · exact key unformatted
  · cases failed
  · cases failed
  · exact short unnameable

end Rejection
end ZenohRos2
