import Mathlib.Data.List.ReduceOption
import ZenohRos2.Cdr.Encoding
import ZenohRos2.Ros2.Subscription
import ZenohRos2.Session.Shares

/-! Topic publishers on a session that tasks share.

A publisher numbers its messages itself, and hands each of them to the session,
where it may wait for the link while other tasks pass by. It takes no other
message before the session is done with this one.
-/

set_option autoImplicit false

namespace ZenohRos2.Zenoh
open Rust Cdr Tasks

structure TopicPublisher where
  topicKe : TopicKeyExpr
  cdrBuf : Bytes
  seqNum : Int64
  gid : ZenohId

namespace TopicPublisher

def new (zid : ZenohId) (topicKe : TopicKeyExpr) (cdrBuf : Bytes) : TopicPublisher := ⟨topicKe, cdrBuf, 0, zid⟩

/-- `(Instant::now().as_micros() as i64).saturating_mul(1000)` -/
def timestampNs (micros : UInt64) : Int64 := Int64.ofIntClamp (micros.toInt64.toInt * 1000)

section Publish
variable [Target] (buffers : Buffers)

/-- `publish` at a time, with the publisher that it leaves. What a failed
serialization leaves in the buffer is never read. -/
def publish (publisher : TopicPublisher) (message : Message) (micros : UInt64) :
    Program Request.Reply (Outcome Error Unit × TopicPublisher) :=
  match serializeWithHeader message.ty message.value publisher.cdrBuf with
  | .err error => .done (.err (.cdr error), publisher)
  | .panic fault => .done (.panic fault, publisher)
  | .ok (n, cdrBuf) =>
    match publisher.topicKe.toKeyExpr with
    | none => .done (.err .invalidArgument, { publisher with cdrBuf := cdrBuf })
    | some ke =>
      let sending : Call Unit := do
        let payload ← Async.lift (sliceRange cdrBuf 0 n)
        putWithAttachment buffers ke.text payload publisher.seqNum (timestampNs micros) publisher.gid
      -- The number is used up, whatever becomes of the message.
      Program.bind sending fun result =>
        .done (result, { publisher with cdrBuf := cdrBuf, seqNum := publisher.seqNum + 1 })

/-- One message after the other, whatever becomes of those before. A panic ends the task. -/
def publishAll (publisher : TopicPublisher) : List (Message × UInt64) → Program Request.Reply (List (Outcome Error Unit))
  | [] => .done []
  | (message, micros) :: rest =>
    (publish buffers publisher message micros).bind fun
      | (.panic fault, _) => .done [.panic fault]
      | (result, publisher) => (publishAll publisher rest).bind fun results => .done (result :: results)

end Publish

/-- The payloads that are sent for some messages: none for one that the buffer does not hold, and that takes no
number. -/
def stamps (cap : Nat) : Int64 → List (Message × UInt64) → List (Option CdrPayload)
  | _, [] => []
  | seqNum, (message, micros) :: rest =>
    if message.encoded.length ≤ cap then
      some ⟨message.encoded, seqNum, timestampNs micros⟩ :: stamps cap (seqNum + 1) rest
    else none :: stamps cap seqNum rest

section Shares
variable [Target] {buffers : Buffers} {publisher : TopicPublisher} {ke : HeaplessString maxKeyExprLen}
  {frames : List Bytes}

structure Sound (message : Message) : Prop where
  within : message.ty.Within message.value
  held : message.ty.Held message.value

def Carries (ke : String) (gid : ZenohId) (frame : Bytes) (payload : CdrPayload) : Prop :=
  Addressable frame ∧ ∃ sn, frame = batchFrame sn ke gid [payload]

inductive Published (publisher : TopicPublisher) (ke : String) (message : Message) (micros : UInt64)
    (frames : List Bytes) (left : Program Request.Reply (Outcome Error Unit × TopicPublisher)) : Prop where
  | refused (error : Error) (large : publisher.cdrBuf.length < message.encoded.length) (silent : frames = [])
    (returned : left = .done (.err error, publisher))
  | sent (fits : message.encoded.length ≤ publisher.cdrBuf.length) (kept : List CdrPayload)
    (among : kept.Sublist [⟨message.encoded, publisher.seqNum, timestampNs micros⟩])
    (carried : List.Forall₂ (Carries ke publisher.gid) frames kept)
    (returned : ∀ result after, left = .done (result, after) →
      (∃ cdrBuf : Bytes, cdrBuf.length = publisher.cdrBuf.length ∧
        after = { publisher with cdrBuf := cdrBuf, seqNum := publisher.seqNum + 1 }) ∧
      (result = .ok () → kept = [⟨message.encoded, publisher.seqNum, timestampNs micros⟩]))

omit [Target] in
theorem addressable_key [Target] (ke : HeaplessString maxKeyExprLen) : Addressable (utf8 ke.text) := by
  have short := ke.fits
  unfold maxKeyExprLen at short
  exact le_isizeMax (by rw [utf8_length]; omega)

theorem carries_publication {sn : UInt64} {payload : CdrPayload} {gid : ZenohId}
    (fits : (frameHeaderBytes sn true ++ publicationBytes ke.text payload.data payload.seqNum payload.timestampNs gid).length ≤
      buffers.txBuf) :
    Carries ke.text gid (frameHeaderBytes sn true ++
      publicationBytes ke.text payload.data payload.seqNum payload.timestampNs gid) payload := by
  refine ⟨Nat.le_trans fits buffers.arrays.1, sn, ?_⟩
  rw [← List.nil_append [payload], batchFrame_append, batchFrame_nil]

theorem publish_published {message : Message} {micros : UInt64}
    {left : Program Request.Reply (Outcome Error Unit × TopicPublisher)} (sound : Sound message)
    (array : Addressable publisher.cdrBuf) (key : publisher.topicKe.toKeyExpr = some ke)
    (leads : Leads (publish buffers publisher message micros) frames left) :
    Published publisher ke.text message micros frames left := by
  have encodes : Encodes CdrError.bufferOverflow (serializeWithHeader message.ty message.value) message.encoded :=
    encodes_serializeWithHeader sound.within sound.held
  -- A message that the buffer does not hold fails before anything is sent.
  by_cases fits : message.encoded.length ≤ publisher.cdrBuf.length
  · let cdrBuf := message.encoded ++ publisher.cdrBuf.drop message.encoded.length
    let payload : CdrPayload := ⟨message.encoded, publisher.seqNum, timestampNs micros⟩
    let after : TopicPublisher := { publisher with cdrBuf := cdrBuf, seqNum := publisher.seqNum + 1 }
    have length : cdrBuf.length = publisher.cdrBuf.length := by simp [cdrBuf]; omega
    have slice : (sliceRange cdrBuf 0 message.encoded.length : Outcome Error Bytes) = .ok message.encoded := by
      rw [sliceRange, if_pos ⟨Nat.zero_le _, by omega⟩, List.drop_zero, List.take_left]
    have sends : publish buffers publisher message micros = Program.bind
        (sendMessage buffers (encodePushPutWithAttachment ke.text message.encoded publisher.seqNum (timestampNs micros)
          publisher.gid)) fun result => .done (result, after) := by
      unfold publish
      rw [encodes.eq_ok array fits]
      simp only [key]
      change Program.bind (Async.lift (sliceRange cdrBuf 0 message.encoded.length) >>= _ : Call Unit) _ = _
      rw [slice]
      rfl
    have encodes := encodes_encodePushPutWithAttachment publisher.seqNum (timestampNs micros) publisher.gid
      (addressable_key ke) (array.of_length_le fits)
    rw [sends] at leads
    obtain ⟨rest, under, rfl⟩ := leads.of_map
    rcases leads_sendMessage encodes under with ⟨rfl, unsent⟩ | ⟨sn, short, sent⟩
    · refine .sent fits [] (List.nil_sublist _) .nil fun result final same => ?_
      obtain ⟨before, ended, converted⟩ := Program.eq_done_of_map same
      cases converted
      exact ⟨⟨cdrBuf, length, rfl⟩, fun ok => absurd (ok ▸ ended) unsent⟩
    · have carried : Carries ke.text publisher.gid _ payload := carries_publication short
      -- The write may have failed behind the frame, so a frame on the link does not mean `Ok`.
      rcases sent.once with rfl | rfl
      · refine .sent fits [] (List.nil_sublist _) .nil fun result final same => ?_
        obtain ⟨before, ended, converted⟩ := Program.eq_done_of_map same
        cases converted
        exact ⟨⟨cdrBuf, length, rfl⟩, fun ok => by cases sent.ok (ok ▸ ended)⟩
      · refine .sent fits [payload] (List.Sublist.refl _) (.cons carried .nil) fun result final same => ?_
        obtain ⟨before, ended, converted⟩ := Program.eq_done_of_map same
        cases converted
        exact ⟨⟨cdrBuf, length, rfl⟩, fun _ => rfl⟩
  · have failed := encodes publisher.cdrBuf array
    rw [if_neg fits] at failed
    unfold publish at leads
    rw [failed] at leads
    obtain ⟨rfl, rfl⟩ := leads.of_done
    exact .refused _ (Nat.lt_of_not_le fits) rfl rfl

/-- What is on the link of the messages of a publisher: all of those whose call returned `Ok`. -/
structure Share (ke : String) (gid : ZenohId) (stamped : List (Option CdrPayload)) (frames : List Bytes)
    (kept : List CdrPayload) (left : Program Request.Reply (List (Outcome Error Unit))) : Prop where
  among : kept.Sublist stamped.reduceOption
  carried : List.Forall₂ (Carries ke gid) frames kept
  whole : ∀ results, left = .done results → ∀ n : Nat, results[n]? = some (Outcome.ok ()) →
    ∃ payload ∈ kept, stamped[n]? = some (some payload)

section Calls
variable {stamp : Option CdrPayload} {stamped : List (Option CdrPayload)} {key : String} {gid : ZenohId}
  {one two : List Bytes} {kept rest : List CdrPayload} {left : Program Request.Reply (List (Outcome Error Unit))}

omit [Target] in
theorem reduceOption_cons (stamp : Option CdrPayload) (stamped : List (Option CdrPayload)) :
    (stamp :: stamped).reduceOption = stamp.toList ++ stamped.reduceOption := by
  cases stamp <;> rfl

theorem Share.alone (among : kept.Sublist stamp.toList) (carried : List.Forall₂ (Carries key gid) one kept)
    (unsent : ∀ results, left = .done results → Outcome.ok () ∉ results) :
    Share key gid (stamp :: stamped) one kept left where
  among := by
    rw [reduceOption_cons]
    exact among.trans (List.sublist_append_left _ _)
  carried := carried
  whole results same n found := absurd (List.mem_of_getElem? found) (unsent results same)

theorem Share.behind {result : Outcome Error Unit} (among : kept.Sublist stamp.toList)
    (carried : List.Forall₂ (Carries key gid) one kept)
    (whole : result = .ok () → ∃ payload ∈ kept, stamp = some payload) (share : Share key gid stamped two rest left) :
    Share key gid (stamp :: stamped) (one ++ two) (kept ++ rest) (left.bind fun results => .done (result :: results)) where
  among := by
    rw [reduceOption_cons]
    exact among.append share.among
  carried := List.rel_append carried share.carried
  whole results same n found := by
    obtain ⟨before, rfl, rfl⟩ := Program.eq_done_of_map same
    cases n with
    | zero =>
      obtain ⟨payload, member, rfl⟩ := whole (Option.some.inj found)
      exact ⟨payload, List.mem_append_left _ member, rfl⟩
    | succ n =>
      obtain ⟨payload, member, stamped⟩ := share.whole before rfl n found
      exact ⟨payload, List.mem_append_right _ member, stamped⟩

end Calls

theorem exists_share {messages : List (Message × UInt64)} {left : Program Request.Reply (List (Outcome Error Unit))}
    (sound : ∀ entry ∈ messages, Sound entry.1) (array : Addressable publisher.cdrBuf)
    (key : publisher.topicKe.toKeyExpr = some ke) (leads : Leads (publishAll buffers publisher messages) frames left) :
    ∃ kept, Share ke.text publisher.gid (stamps publisher.cdrBuf.length publisher.seqNum messages) frames kept left := by
  -- On the messages: the first call is under way, or it has returned and the others follow.
  induction messages generalizing publisher frames left with
  | nil =>
    obtain ⟨rfl, rfl⟩ := leads.of_done
    refine ⟨[], .refl _, .nil, fun results same n found => ?_⟩
    cases same
    cases found
  | cons entry rest ih =>
    obtain ⟨message, micros⟩ := entry
    have first := sound _ List.mem_cons_self
    have others := fun entry member => sound entry (List.mem_cons_of_mem _ member)
    rcases leads.of_bind with ⟨request, after, under, rfl⟩ | ⟨⟨result, after⟩, one, two, ended, later, rfl⟩
    · cases publish_published first array key under with
      | refused error large silent returned => cases returned
      | sent fits kept among carried returned =>
        rw [stamps, if_pos fits]
        exact ⟨kept, .alone among carried nofun⟩
    · cases publish_published first array key ended with
      | refused error large silent returned =>
        cases returned
        subst silent
        rw [stamps, if_neg (Nat.not_le_of_lt large)]
        obtain ⟨further, under, rfl⟩ := later.of_map
        obtain ⟨kept, share⟩ := ih others array key under
        exact ⟨kept, .behind (List.nil_sublist _) .nil nofun share⟩
      | sent fits kept among carried returned =>
        obtain ⟨⟨cdrBuf, length, rfl⟩, whole⟩ := returned result after rfl
        rw [stamps, if_pos fits]
        have whole (ok : result = .ok ()) : ∃ payload ∈ kept,
            some (⟨message.encoded, publisher.seqNum, timestampNs micros⟩ : CdrPayload) = some payload :=
          ⟨_, whole ok ▸ List.mem_singleton_self _, rfl⟩
        -- An error of one call does not keep the task from the next one.
        have goes_on (leads : Leads ((publishAll buffers
            { publisher with cdrBuf := cdrBuf, seqNum := publisher.seqNum + 1 } rest).bind fun results =>
              .done (result :: results)) two left) :
            ∃ kept, Share ke.text publisher.gid
              (some ⟨message.encoded, publisher.seqNum, timestampNs micros⟩ ::
                stamps publisher.cdrBuf.length (publisher.seqNum + 1) rest) (one ++ two) kept left := by
          obtain ⟨further, under, rfl⟩ := leads.of_map
          obtain ⟨more, share⟩ := @ih { publisher with cdrBuf := cdrBuf, seqNum := publisher.seqNum + 1 } _ _ others
            (array.of_length_le (Nat.le_of_eq length)) key under
          rw [length] at share
          exact ⟨kept ++ more, .behind among carried whole share⟩
        cases result with
        | ok value => exact goes_on later
        | err error => exact goes_on later
        | panic fault =>
          obtain ⟨rfl, rfl⟩ := later.of_done
          rw [List.append_nil]
          exact ⟨kept, .alone among carried fun results same => by cases same; simp⟩

end Shares
end TopicPublisher
end ZenohRos2.Zenoh
