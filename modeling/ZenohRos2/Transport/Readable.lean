import ZenohRos2.Transport.Acceptance
import ZenohRos2.Transport.Safety

/-! Which bodies of a Frame are read without a panic, and which answer a request.

Both are about the bytes alone. An answer is a Reply, or the end of the
responses, at the start of the body.
-/

set_option autoImplicit false

namespace ZenohRos2
open Rust

section Readable
variable [Target] {buf : Bytes}

/-- No length on the way to the payload of a Put, nor its own, overflows when it is added. -/
def PutReadable (body : Bytes) : Prop := PushPutThen body fun _ pos => SliceThen body pos fun _ _ => True

/-- The same of the extensions of a Frame, and of the Put in its body. -/
def FrameReadable (payload : Bytes) : Prop :=
  ByteThen payload 0 fun header => messageId header = transportId.frame →
  VbyteThen payload 1 fun _ pos => ChainThen (hasFlag header frameFlag.z) payload pos fun bodyPos =>
    PutReadable (payload.drop bodyPos)

/-- The same of the end of the responses, and of a Reply. -/
def ResponseReadable (body : Bytes) : Prop :=
  SequencedCondition body networkId.responseFinal ∧
    ReplyThen body fun _ pos => SliceThen body pos fun _ _ => True

theorem returns_decodePushPut_iff (addressable : Addressable buf) :
    ((decodePushPut buf).Returns fun _ => True) ↔ PutReadable buf := by
  apply (Outcome.returns_bind _ _ _).trans
  refine (Outcome.returns_congr fun read _ => ?_).trans (returns_decodePushPutHead_iff addressable
    (fun read => ∀ scope suffix pos, read = some (scope, suffix, pos) → (readSlice buf pos).Returns fun _ => True)
    (fun _ pos => SliceThen buf pos fun _ _ => True) (fun _ _ _ none => by cases none) ?_)
  · cases read with
    | none => simp
    | some head =>
      obtain ⟨scope, suffix, pos⟩ := head
      simp
  · intro header scope middle suffix declared pos _ _ _ inside
    have slice : ((readSlice buf pos).Returns fun _ => True) ↔ SliceThen buf pos fun _ _ => True :=
      returns_readSlice_iff addressable inside fun _ _ _ _ => Iff.rfl
    simpa using slice

theorem returns_decodeFrameHeader_iff (addressable : Addressable buf) {post : UInt64 × Bool × Nat → Prop}
    {next : Nat → Prop} (agree : ∀ sn reliable stop, stop ≤ buf.length → (post (sn, reliable, stop) ↔ next stop)) :
    (decodeFrameHeader buf).Returns post ↔ ByteThen buf 0 fun header => messageId header = transportId.frame →
      VbyteThen buf 1 fun _ pos => ChainThen (hasFlag header frameFlag.z) buf pos next := by
  refine (returns_first_iff (Outcome.err_returns _ _)).trans (byteThen_congr fun header inside => ?_)
  refine (Outcome.returns_guard (Outcome.err_returns _ _)).trans (imp_congr Classical.not_not ?_)
  refine (Outcome.returns_bind _ _ _).trans (returns_readVbyte_iff addressable (by omega) fun sn pos found => ?_)
  have bounds := found.bounds
  exact (Outcome.returns_bind _ _ _).trans
    (returns_skipExtensionsIf_iff addressable bounds.2 _ fun stop _ right => agree sn _ stop right)

theorem decodeFrameHeader_inside (addressable : Addressable buf) {sn : UInt64} {reliable : Bool} {bodyPos : Nat}
    (decoded : decodeFrameHeader buf = .ok (sn, reliable, bodyPos)) : bodyPos ≤ buf.length := by
  have returned : (decodeFrameHeader buf).Returns fun _ => True := by rw [decoded]; trivial
  have fits := (@returns_decodeFrameHeader_iff _ _ addressable (fun _ => True) (fun _ => True) fun _ _ _ _ =>
    Iff.rfl).mp returned
  have bounded : (decodeFrameHeader buf).Returns fun read => read.2.2 ≤ buf.length :=
    (returns_decodeFrameHeader_iff addressable fun _ _ _ inside => iff_of_true inside trivial).mpr fits
  exact bounded.of_ok decoded

/-- What is still to be read of a response: the payload of a Reply. -/
def restReturns (buf : Bytes) : Option ResponseHead → Prop
  | some (.reply _ _ _ pos) => (readSlice buf pos).Returns fun _ => True
  | _ => True

theorem returns_decodeResponse_iff (addressable : Addressable buf) :
    ((decodeResponse buf).Returns fun _ => True) ↔ ResponseReadable buf := by
  apply (Outcome.returns_bind _ _ _).trans
  refine (Outcome.returns_congr fun read _ => ?_).trans (returns_decodeResponseHead_iff addressable
    (restReturns buf) (fun _ pos => SliceThen buf pos fun _ _ => True) trivial (fun _ _ _ => trivial) ?_)
  · cases read with
    | none => exact Iff.rfl
    | some head =>
      -- Of the end of the responses nothing is left to read.
      cases head with
      | final requestId pos => exact Iff.rfl
      | reply requestId scope suffix pos =>
        apply (Outcome.returns_bind _ _ _).trans
        exact Iff.rfl
  · intro header requestId first scope middle suffix declared pos _ _ _ _ inside
    exact returns_readSlice_iff addressable inside fun _ _ _ _ => Iff.rfl

end Readable

section Answers
variable [Target] {body : Bytes} {requestId : UInt32}

/-- The end of the responses to the request stands at the start of the body; of its id the low half counts. -/
structure FinalAt (body : Bytes) (requestId : UInt32) (stop : Nat) : Prop where
  found : ∃ header, body[0]? = some header ∧ messageId header = networkId.responseFinal ∧
    ∃ id pos, VbyteAt body 1 id pos ∧ id.toUInt32 = requestId ∧
      if hasFlag header responseFinalFlag.z then ChainAt body pos stop else stop = pos

/-- A Reply to the request, or the end of the responses to it, stands at the start of the body. -/
def Answered (requestId : UInt32) (body : Bytes) : Prop :=
  (∃ reply stop, (replyWord reply).At body 0 stop ∧ reply.requestId = requestId) ∨
    ∃ stop, FinalAt body requestId stop

theorem skipExtensionsIf_eq_ok (addressable : Addressable body) (present : Bool) {pos stop : Nat} :
    skipExtensionsIf present body pos = .ok stop ↔ if present then ChainAt body pos stop else stop = pos := by
  cases present with
  | false => simp [skipExtensionsIf, eq_comm]
  | true => exact skipExtensions_eq_ok addressable

theorem decodeResponse_eq_final (addressable : Addressable body) {stop : Nat} :
    decodeResponse body = .ok (some (.final requestId, stop)) ↔ FinalAt body requestId stop := by
  have whole : decodeResponse body = .ok (some (.final requestId, stop)) ↔
      decodeResponseHead body = .ok (some (.final requestId stop)) := by
    unfold decodeResponse
    cases decodeResponseHead body with
    | ok head =>
      cases head with
      | none => simp
      | some head =>
        cases head with
        | final id pos => simp
        | reply id scope suffix pos => simp [Outcome.bind_eq_ok]
    | err error => simp
    | panic fault => simp
  rw [whole, decodeResponseHead, first_eq_ok]
  constructor
  · rintro ⟨header, first, ran⟩
    by_cases kind : messageId header = networkId.responseFinal
    · rw [if_pos kind] at ran
      obtain ⟨⟨id, pos⟩, numbered, ran⟩ := Outcome.bind_eq_ok.mp ran
      obtain ⟨last, skipped, same⟩ := Outcome.bind_eq_ok.mp ran
      cases same
      exact ⟨header, first, kind, id, pos, at_vbyteWord.mp ((readVbyte_eq_ok addressable).mp numbered), rfl,
        (skipExtensionsIf_eq_ok addressable _).mp skipped⟩
    · -- Any other message is a Reply, or none.
      rw [if_neg kind] at ran
      split at ran
      · cases ran
      · simp only [readPutHead_map, Outcome.bind_eq_ok] at ran
        obtain ⟨_, -, _, -, _, -, _, -, ran⟩ := ran
        obtain ⟨_, -, -, ran⟩ := (header_eq_ok addressable (by simp) _).mp ran
        simp only [Outcome.bind_eq_ok] at ran
        obtain ⟨_, -, _, -, put, -, same⟩ := ran
        obtain ⟨_, -, same⟩ := Option.map_eq_some_iff.mp (Outcome.ok.inj same)
        cases same
  · rintro ⟨header, first, kind, id, pos, found, rfl, skipped⟩
    refine ⟨header, first, ?_⟩
    rw [if_pos kind, readVbyte_eq addressable found, Outcome.ok_bind]
    simp only
    rw [(skipExtensionsIf_eq_ok addressable _).mpr skipped]
    rfl

theorem answered_iff (addressable : Addressable body) : Answered requestId body ↔
    (∃ reply stop, decodeResponse body = .ok (some (.reply reply, stop)) ∧ reply.requestId = requestId) ∨
      ∃ stop, decodeResponse body = .ok (some (.final requestId, stop)) := by
  unfold Answered
  simp only [decodeResponse_eq_ok addressable, decodeResponse_eq_final addressable]

end Answers
end ZenohRos2
