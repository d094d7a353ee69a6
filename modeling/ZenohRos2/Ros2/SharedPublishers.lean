import ZenohRos2.Ros2.TopicPublisher
import ZenohRos2.Session.Sharing

/-! Topic publishers among the tasks of a session.

The tasks may take turns in any order, and each write may end in any way. What
a subscriber finds on the link under the key expression of a publisher is the
share of the task that publishes there.
-/

set_option autoImplicit false

namespace ZenohRos2.Zenoh
open Rust Cdr Tasks

/-- What a task does: it calls a method, or it has a publisher and some messages for it. -/
inductive Work where
  | call (operation : Operation)
  | publish (topicKe : TopicKeyExpr) (cdrBuf : Bytes) (messages : List (Message × UInt64))

namespace Work

section Programs
variable [Target] (buffers : Buffers)

def program (zid : ZenohId) : Work → Program Request.Reply (List (Outcome Error Unit))
  | .call operation => Program.bind (operation.call buffers) fun result => .done [result]
  | .publish topicKe cdrBuf messages => TopicPublisher.publishAll buffers (.new zid topicKe cdrBuf) messages

end Programs

/-- The task publishes nothing under the key expression. Its slices are no longer than slices are. -/
def Elsewhere [Target] (key : String) : Work → Prop
  | .call (.put keyExpr payload) => keyExpr ≠ key ∧ Addressable (utf8 keyExpr) ∧ Addressable payload
  | .call (.putWithAttachment keyExpr payload _ _ _) =>
    keyExpr ≠ key ∧ Addressable (utf8 keyExpr) ∧ Addressable payload
  | .call (.declareKeyExpr keyExpr) => Addressable (utf8 keyExpr)
  | .call (.subscribe keyExpr) => Addressable (utf8 keyExpr)
  | .call _ => True
  | .publish topicKe cdrBuf _ => topicKe.toKeyExpr.map HeaplessString.text ≠ some key ∧ Addressable cdrBuf

end Work

section Silence
variable [Target] {buffers : Buffers} {key : String}

abbrev Silent (key : String) (frame : Bytes) : Prop := receivedOn key frame = []

theorem silent_of_frameSn {frame : Bytes} (none : frameSn frame = none) : Silent key frame := by
  unfold frameSn at none
  unfold Silent receivedOn received
  split at none
  · cases none
  · rfl

theorem silent_push {keyExpr : String} {bytes : Bytes} {message : PushPut} (suffix : message.suffix = some keyExpr)
    (same : message.bytes = bytes) (other : keyExpr ≠ key) (sn : UInt64)
    (fits : (frameHeaderBytes sn true ++ bytes).length ≤ buffers.txBuf) : Silent key (frameHeaderBytes sn true ++ bytes) := by
  subst same
  refine receivedOn_elsewhere ?_ (Nat.le_trans fits buffers.arrays.1)
  rw [suffix]
  exact other

theorem silent_putWithAttachment {keyExpr : String} {payload : Bytes} {seqNum timestampNs : Int64} {gid : ZenohId}
    (other : keyExpr ≠ key) (short : Addressable (utf8 keyExpr)) (array : Addressable payload) :
    CallWrites (Silent key) (putWithAttachment buffers keyExpr payload seqNum timestampNs gid) :=
  callWrites_sendMessage (encodes_encodePushPutWithAttachment seqNum timestampNs gid short array)
    (silent_push rfl (PushPut.bytes_publication keyExpr payload seqNum timestampNs gid) other)

theorem silent_declareKeyExpr {keyExpr : String} (short : Addressable (utf8 keyExpr)) :
    CallWrites (Silent key) (declareKeyExpr buffers keyExpr) := by
  refine CallWrites.bind (callWrites_ask nofun) fun (keyId : UInt16) => CallWrites.bind ?_ fun _ => trivial
  exact callWrites_sendMessage (encodes_encodeDeclareKeyexpr keyId short) fun sn fits =>
    receivedOn_other (by decide) (Nat.le_trans fits buffers.arrays.1)

theorem silent_call {operation : Operation} (elsewhere : (Work.call operation).Elsewhere key) :
    CallWrites (Silent key) (operation.call buffers) := by
  cases operation with
  | put keyExpr payload =>
    obtain ⟨other, short, array⟩ := elsewhere
    exact callWrites_sendMessage (encodes_encodePushPut 0 short array)
      (silent_push rfl (PushPut.bytes_inline keyExpr 0 payload) other)
  | putWithAttachment keyExpr payload seqNum timestampNs gid =>
    obtain ⟨other, short, array⟩ := elsewhere
    exact silent_putWithAttachment other short array
  | declareKeyExpr keyExpr => exact CallWrites.bind (silent_declareKeyExpr elsewhere) fun _ => trivial
  | subscribe keyExpr =>
    refine CallWrites.bind (CallWrites.bind (silent_declareKeyExpr elsewhere) fun (keyId : UInt16) => ?_) fun _ => trivial
    refine CallWrites.bind ?_ fun _ => trivial
    exact callWrites_sendMessage (encodes_encodeDeclareSubscriberMapped keyId.toUInt32 keyId) fun sn fits =>
      receivedOn_other (by decide) (Nat.le_trans fits buffers.arrays.1)
  | keepalive =>
    change CallWrites _ keepalive
    rw [keepalive_eq]
    exact (callWrites_writeFrame (receivedOn_alone (by decide))).withLink
  | recvOnce cap =>
    refine CallWrites.bind (CallWrites.bind (CallWrites.withLink ?_) fun _ => callWrites_lift _) fun _ => trivial
    exact CallWrites.bind (callWrites_ask nofun) fun _ => callWrites_lift _
  | close =>
    change CallWrites _ close
    rw [close_eq]
    refine CallWrites.bind (callWrites_ask nofun) fun _ => CallWrites.withLink ?_
    exact CallWrites.bind (callWrites_writeFrame (receivedOn_alone (by decide))) fun _ => callWrites_ask nofun

theorem silent_publish {publisher : TopicPublisher} {message : Message} {micros : UInt64}
    (other : publisher.topicKe.toKeyExpr.map HeaplessString.text ≠ some key) (array : Addressable publisher.cdrBuf) :
    Writes (Silent key) (fun returned => returned.2.topicKe = publisher.topicKe ∧ Addressable returned.2.cdrBuf)
      (publisher.publish buffers message micros) := by
  unfold TopicPublisher.publish
  cases serialized : serializeWithHeader message.ty message.value publisher.cdrBuf with
  | err error => exact ⟨rfl, array⟩
  | panic fault => exact ⟨rfl, array⟩
  | ok result =>
    obtain ⟨n, cdrBuf⟩ := result
    obtain ⟨-, -, length⟩ := serializeWithHeader_fits serialized
    have array : Addressable cdrBuf := array.of_length_le (Nat.le_of_eq length)
    cases named : publisher.topicKe.toKeyExpr with
    | none => exact ⟨rfl, array⟩
    | some ke =>
      rw [named] at other
      refine @Program.Asks.bind _ _ _ _ _ (fun _ => True) _ _ _ ?_ fun _ _ => ⟨rfl, array⟩
      cases sliced : (sliceRange cdrBuf 0 n : Outcome Error Bytes) with
      | err error => trivial
      | panic fault => trivial
      | ok payload =>
        obtain ⟨-, rfl⟩ := sliceRange_eq_ok.mp sliced
        refine silent_putWithAttachment (fun same => other (congrArg some same)) (TopicPublisher.addressable_key ke) ?_
        exact array.of_length_le (by rw [List.drop_zero, List.length_take]; omega)

theorem silent_publishAll {publisher : TopicPublisher} {messages : List (Message × UInt64)}
    (other : publisher.topicKe.toKeyExpr.map HeaplessString.text ≠ some key) (array : Addressable publisher.cdrBuf) :
    Writes (Silent key) (fun _ => True) (publisher.publishAll buffers messages) := by
  induction messages generalizing publisher with
  | nil => trivial
  | cons entry rest ih =>
    refine Program.Asks.bind (silent_publish other array) ?_
    rintro ⟨result, after⟩ ⟨same, array⟩
    have later : Writes (Silent key) (fun _ => True) (after.publishAll buffers rest) := ih (by rwa [same]) array
    cases result with
    | panic fault => trivial
    | ok value => exact Program.Asks.bind later fun _ _ => trivial
    | err error => exact Program.Asks.bind later fun _ _ => trivial

theorem silent_program {zid : ZenohId} {work : Work} (elsewhere : work.Elsewhere key) :
    Writes (Silent key) (fun _ => True) (work.program buffers zid) := by
  cases work with
  | call operation => exact Program.Asks.bind (silent_call elsewhere) fun _ _ => trivial
  | publish topicKe cdrBuf messages => exact silent_publishAll elsewhere.1 elsewhere.2

end Silence

section Opened
variable [Target] {buffers : Buffers} {session : Session}

theorem Session.silent_of_opened {transport : Transport} {config : SessionConfig} (key : String)
    (opened : Session.opened buffers transport config = some (.ok session)) :
    session.link.written.flatMap (receivedOn key) = [] := by
  have numbers := (Session.fresh_of_opened opened).numbers
  rw [List.filterMap_eq_nil_iff] at numbers
  exact List.flatMap_eq_nil_iff.mpr fun frame member => silent_of_frameSn (numbers frame member)

end Opened

namespace TopicPublisher
variable [Target] {buffers : Buffers} {session : Session} {key : String} {gid : ZenohId}

theorem receivedOn_carries {frames : List Bytes} {kept : List CdrPayload}
    (carried : List.Forall₂ (Carries key gid) frames kept) :
    frames.flatMap (receivedOn key) = kept.map (CdrPayload.received key gid) := by
  induction carried with
  | nil => rfl
  | cons first _ ih =>
    obtain ⟨addressable, sn, rfl⟩ := first
    rw [List.flatMap_cons, receivedOn_batchFrame addressable, if_pos rfl, ih]
    rfl

omit [Target] in
theorem mem_stamps {cap : Nat} {first : Int64} {messages : List (Message × UInt64)} {payload : CdrPayload}
    (member : some payload ∈ stamps cap first messages) : ∃ message micros, (message, micros) ∈ messages ∧
      payload.data = message.encoded ∧ message.encoded.length ≤ cap := by
  induction messages generalizing first with
  | nil => cases member
  | cons entry rest ih =>
    obtain ⟨message, micros⟩ := entry
    rw [stamps] at member
    split at member
    · rename_i fits
      rcases List.mem_cons.mp member with same | later
      · cases same
        exact ⟨message, micros, List.mem_cons_self, rfl, fits⟩
      · obtain ⟨other, at_, inside, rest⟩ := ih later
        exact ⟨other, at_, List.mem_cons_of_mem _ inside, rest⟩
    · rcases List.mem_cons.mp member with same | later
      · cases same
      · obtain ⟨other, at_, inside, rest⟩ := ih later
        exact ⟨other, at_, List.mem_cons_of_mem _ inside, rest⟩

omit [Target] in
theorem stamps_ordered (cap : Nat) {first : Int64} {messages : List (Message × UInt64)}
    (enough : first.toInt + messages.length < 2 ^ 63) :
    (∀ payload ∈ (stamps cap first messages).reduceOption, first ≤ payload.seqNum) ∧
      (stamps cap first messages).reduceOption.Pairwise fun one other => one.seqNum < other.seqNum := by
  induction messages generalizing first with
  | nil => exact ⟨nofun, .nil⟩
  | cons entry rest ih =>
    obtain ⟨message, micros⟩ := entry
    rw [List.length_cons] at enough
    rw [stamps]
    split
    · have next : (first + 1).toInt = first.toInt + 1 := by
        refine toInt_add_one fun last => ?_
        rw [last, Int64.toInt_maxValue] at enough
        omega
      obtain ⟨above, ordered⟩ := ih (show (first + 1).toInt + rest.length < 2 ^ 63 by omega)
      have behind (payload : CdrPayload) (member : payload ∈ (stamps cap (first + 1) rest).reduceOption) :
          first < payload.seqNum := by
        have least := Int64.le_iff_toInt_le.mp (above payload member)
        rw [Int64.lt_iff_toInt_lt]
        omega
      rw [List.reduceOption_cons_of_some, List.forall_mem_cons, List.pairwise_cons]
      exact ⟨⟨Int64.le_refl first, fun payload member => Int64.le_of_lt (behind payload member)⟩, behind, ordered⟩
    · rw [List.reduceOption_cons_of_none]
      exact ih (by omega)

/-- Whatever tasks share the session, and however they take turns and the writes end: on the link, the messages
under the key expression of a publisher are messages that it was given, in their order and with increasing numbers.
A message whose `publish` returned `Ok` is one of them, with the number of the messages before it. -/
theorem published_in_order (buffers : Buffers) (transport : Transport) (config : SessionConfig) (session : Session)
    (opened : Session.opened buffers transport config = some (.ok session)) (moves : List (Move Work))
    (shared : Pool Request.Reply Session (List (Outcome Error Unit)))
    (ran : Machine.execute (Pool.step perform (Work.program buffers config.zid)) (fun _ _ => True) moves ⟨session, []⟩ =
      some shared)
    {i : Nat} {topicKe : TopicKeyExpr} {cdrBuf : Bytes} {messages : List (Message × UInt64)}
    (works : (spawned moves)[i]? = some (.publish topicKe cdrBuf messages)) {key : String}
    (named : topicKe.toKeyExpr.map HeaplessString.text = some key) (array : Addressable cdrBuf)
    (sound : ∀ entry ∈ messages, Sound entry.1) (enough : messages.length < 2 ^ 63)
    (others : ∀ j work, j ≠ i → (spawned moves)[j]? = some work → work.Elsewhere key) :
    ∃ kept : List CdrPayload, kept.Sublist (stamps cdrBuf.length 0 messages).reduceOption ∧
      shared.state.link.written.flatMap (receivedOn key) = kept.map (CdrPayload.received key config.zid) ∧
      (kept.Pairwise fun one other => one.seqNum < other.seqNum) ∧
      (∀ payload ∈ kept, ∃ message micros, (message, micros) ∈ messages ∧
        Subscription.decoded message.ty payload.data = .ok message) ∧
      ∀ results, shared.tasks[i]? = some (.done results) → ∀ n : Nat, results[n]? = some (Outcome.ok ()) →
        ∃ payload ∈ kept, (stamps cdrBuf.length 0 messages)[n]? = some (some payload) := by
  obtain ⟨ke, found, rfl⟩ := Option.map_eq_some_iff.mp named
  have start : Pool.Attributed (Work.program buffers config.zid) WritesFrames [] [] ⟨session, []⟩ :=
    ⟨rfl, fun j work task none => by simp at none, fun entry member => by cases member⟩
  -- The link is one log of all tasks. Of it only the share of this task is under the key.
  obtain ⟨log, attributed, written⟩ := Pool.exists_attributed grows_written ran start
  rw [List.nil_append, List.nil_append] at attributed
  have inside : i < shared.tasks.length := by
    rw [attributed.count]
    exact (List.getElem?_eq_some_iff.mp works).1
  have own := attributed.own i _ _ works (List.getElem?_eq_getElem inside)
  obtain ⟨kept, share⟩ := exists_share sound array found own
  have silent (entry : Nat × Bytes) (member : entry ∈ log) (other : entry.1 ≠ i) :
      receivedOn ke.text entry.2 = [] := by
    have known := attributed.known entry member
    have present : entry.1 < shared.tasks.length := by rwa [attributed.count]
    have leads := attributed.own entry.1 _ _ (List.getElem?_eq_getElem known) (List.getElem?_eq_getElem present)
    refine Writes.all (silent_program (others entry.1 _ other (List.getElem?_eq_getElem known))) leads entry.2 ?_
    exact mem_shareOf.mpr member
  refine ⟨kept, share.among, ?_, ?_, fun payload member => ?_, fun results same => ?_⟩
  · rw [written, List.flatMap_append, Session.silent_of_opened ke.text opened, List.nil_append, flatMap_shareOf silent]
    exact receivedOn_carries share.carried
  · refine (stamps_ordered cdrBuf.length ?_).2.sublist share.among
    change (0 : Int) + messages.length < 2 ^ 63
    omega
  · obtain ⟨message, micros, given, data, fits⟩ := mem_stamps (List.reduceOption_mem_iff.mp (share.among.subset member))
    refine ⟨message, micros, given, ?_⟩
    rw [data]
    exact Subscription.decoded_encoded (sound _ given).within (array.of_length_le fits)
  · rw [List.getElem?_eq_getElem inside] at same
    exact share.whole results (Option.some.inj same)

omit [Target] in
/-- The first of two messages is not written, and a KeepAlive comes between them. -/
theorem published_in_order_unwritten :
    letI := target64
    let buffers : Buffers := ⟨512, 4096, le_isizeMax (by decide), le_isizeMax (by decide)⟩
    let config : SessionConfig := ⟨ZenohId.fromBytes [7], 0⟩
    let transport : Transport := { Transport.accepting with writes := fun n => if n = 2 then .brokenOff else .flushed }
    let chatter : TopicKeyExpr := ⟨0, "chatter", "UInt32", "hash"⟩
    let messages : List (Message × UInt64) := [(⟨.prim .u32, (5 : UInt32)⟩, 1), (⟨.prim .u32, (6 : UInt32)⟩, 2)]
    let moves : List (Move Work) := [.spawn (.publish chatter (List.replicate 8 0) messages), .spawn (.call .keepalive),
      .run 0, .run 0, .run 0, .run 0, .run 1, .run 1, .run 1, .run 0, .run 0, .run 0, .run 0]
    ∃ session shared, Session.opened buffers transport config = some (.ok session) ∧
      Machine.execute (Pool.step perform (Work.program buffers config.zid)) (fun _ _ => True) moves ⟨session, []⟩ =
        some shared ∧
      ∃ kept : List CdrPayload, kept.Sublist (stamps 8 0 messages).reduceOption ∧
        shared.state.link.written.flatMap (receivedOn "0/chatter/UInt32/hash") =
          kept.map (CdrPayload.received "0/chatter/UInt32/hash" config.zid) ∧
        (kept.Pairwise fun one other => one.seqNum < other.seqNum) ∧
        (∀ payload ∈ kept, ∃ message micros, (message, micros) ∈ messages ∧
          Subscription.decoded message.ty payload.data = .ok message) ∧
        ∀ results, shared.tasks[0]? = some (.done results) → ∀ n : Nat, results[n]? = some (Outcome.ok ()) →
          ∃ payload ∈ kept, (stamps 8 0 messages)[n]? = some (some payload) := by
  intro buffers config transport chatter messages moves
  let := target64
  obtain ⟨session, opened, runs⟩ : ∃ session, Session.opened buffers transport config = some (.ok session) ∧
      (Machine.execute (Pool.step perform (Work.program buffers config.zid)) (fun _ _ => True) moves
        ⟨session, []⟩).isSome := Session.exists_opened (by decide +kernel)
  obtain ⟨shared, ran⟩ := Option.isSome_iff_exists.mp runs
  have works : (spawned moves)[0]? = some (.publish chatter (List.replicate 8 0) messages) := rfl
  have named : chatter.toKeyExpr.map HeaplessString.text = some "0/chatter/UInt32/hash" := by decide +kernel
  refine ⟨session, shared, opened, ran, published_in_order buffers transport config session opened moves shared ran works
    named (le_isizeMax (by decide)) (fun entry member => ?_) (by decide) fun j work other found => ?_⟩
  · rcases List.mem_cons.mp member with rfl | last
    · exact ⟨trivial, trivial⟩
    · rw [List.mem_singleton.mp last]
      exact ⟨trivial, trivial⟩
  · rcases j with _ | _ | j
    · exact absurd rfl other
    · cases found
      trivial
    · cases found

end TopicPublisher
end ZenohRos2.Zenoh
