import ZenohRos2.Lib.Machine
import ZenohRos2.Sdk.Replies
import ZenohRos2.Sdk.Requests

/-! Service calls on one session, and the server that answers them.

The calls come one after the other. A server reads the requests off the wire and
answers each of them when it likes, as often as it likes, or not at all; an
answer may come long after its call has given up, while a later call waits. The
answers come as bytes, which a call may leave in the middle of a frame.
-/

set_option autoImplicit false

namespace ZenohRos2
open Rust Cdr

/-- The request that a message answers, by its id. -/
def NetworkMessage.requestId : NetworkMessage → Option UInt64
  | .push _ => none
  | .reply response => some response.requestId
  | .final response => some response.requestId

section Calls
variable [Target]

/-- A call that waits for its answer; `ty` is the type of the response. -/
structure PendingCall where
  call : ServiceCall
  ty : Ty
  requestId : UInt32
  waiting : Waiting

structure FinishedCall where
  call : ServiceCall
  ty : Ty
  requestId : UInt32
  result : Outcome Error ty.Val

structure RemoteCalls where
  client : Client
  current : Option PendingCall
  finished : List FinishedCall
  /-- Bytes that the client has not read yet. -/
  link : Bytes
  /-- The pending read, of the call or of `spin`. -/
  reading : Reading
  /-- What the server has sent, and in answer to which request. -/
  answered : List (Request × NetworkMessage)

inductive RemoteAct where
  | call (call : ServiceCall) (ty : Ty)
  /-- Whatever else the node does between two calls. -/
  | others (session : Session)
  | respond (frame : ServiceFrame)
  /-- The router writes something else. -/
  | traffic (frame : Bytes)
  /-- The next byte arrives. -/
  | take
  | fail (error : TransportError)
  | timeout

def unanswering (frame : Bytes) : Bool :=
  match decodeFrameHeader frame with
  | .ok (_, _, bodyPos) =>
    match decodeResponse (frame.drop bodyPos) with
    | .ok (some _) => false
    | _ => true
  | _ => true

namespace RemoteCalls

def initial (client : Client) : RemoteCalls := ⟨client, none, [], [], .start, []⟩

def requests (calls : RemoteCalls) : List Request := calls.client.session.requests

/-- The messages of a frame, each with the request that it answers. -/
def answersOf (requests : List Request) (frame : ServiceFrame) : List (Request × NetworkMessage) :=
  frame.messages.filterMap fun message =>
    (requests.find? fun request => message.requestId = some request.requestId).map fun request => (request, message)

def finish (calls : RemoteCalls) (pending : PendingCall) (result : Outcome Error pending.ty.Val) : RemoteCalls :=
  { calls with current := none, finished := calls.finished ++ [⟨pending.call, pending.ty, pending.requestId, result⟩] }

def settle (calls : RemoteCalls) (pending : PendingCall) : Outcome Error (Option pending.ty.Val × Waiting) → RemoteCalls
  | .ok (some resp, _) => calls.finish pending (.ok resp)
  | .ok (none, waiting) => { calls with current := some { pending with waiting := waiting } }
  | .err error => calls.finish pending (.err error)
  | .panic fault => calls.finish pending (.panic fault)

def turn (calls : RemoteCalls) (pending : PendingCall) (arrival : Arrival) : RemoteCalls :=
  calls.settle pending (pending.waiting.turn pending.ty pending.requestId calls.client.session.node arrival)

/-- What a read returns goes to the call that waits. In between it goes to `spin`, which has no use for responses. -/
def arrives (calls : RemoteCalls) (arrival : Arrival) : RemoteCalls :=
  match calls.current with
  | none => calls
  | some pending => calls.turn pending arrival

def polled (calls : RemoteCalls) : Polled → RemoteCalls
  | .pending reading => { calls with reading := reading }
  | .ready (.ok frame) => arrives { calls with reading := .start } (.frame frame)
  | .ready (.err error) => arrives { calls with reading := .start } (.failed error)
  | .ready (.panic _) => { calls with reading := .start }

/-- A call starts a new read, and with a timeout or a failure the pending one is dropped, and what it has taken. -/
def step (calls : RemoteCalls) : RemoteAct → Option RemoteCalls
  | .call call ty =>
    match calls.current with
    | some _ => none
    | none =>
      let pending : PendingCall := ⟨call, ty, calls.client.requestIdGen, .start⟩
      let calls := { calls with reading := .start }
      match requestService call calls.client with
      | (.ok _, client) => some { calls with client := client, current := some pending }
      | (.err error, client) => some (finish { calls with client := client } pending (.err error))
      | (.panic fault, client) => some (finish { calls with client := client } pending (.panic fault))
  | .others session =>
    match calls.current with
    | some _ => none
    | none => some { calls with client := { calls.client with session := session } }
  | .respond frame => some { calls with
      link := calls.link ++ framed frame.bytes
      answered := calls.answered ++ answersOf calls.requests frame }
  | .traffic frame => some { calls with link := calls.link ++ framed frame }
  | .take =>
    match calls.link with
    | [] => none
    | byte :: rest => some (polled { calls with link := rest } (calls.reading.poll rxBufSize byte))
  | .fail error => some (arrives { calls with reading := .start } (.failed error))
  | .timeout => some (arrives { calls with reading := .start } .timeout)

/-- A response answers one of the requests. -/
def Answers (requests : List Request) (message : NetworkMessage) : Prop :=
  ∀ requestId ∈ message.requestId, ∃ request ∈ requests, request.requestId = requestId

-- Not by search, which may run through every id.
instance (requests : List Request) : DecidablePred (Answers requests) := fun _ => Option.decidableForallMem _

/-- Fewer calls than there are request ids. The server answers requests that it has
read; the node sends no other requests. A read is dropped in front of a frame only. -/
def allowed (calls : RemoteCalls) : RemoteAct → Prop
  | .call .. => calls.finished.length < 2 ^ 32 ∧ calls.reading.held = 0
  | .others session => session.sent.take calls.client.session.sent.length = calls.client.session.sent ∧
      ∀ frame ∈ session.sent.drop calls.client.session.sent.length, Request.read frame = none
  | .respond frame => frame.bytes.length ≤ rxBufSize ∧ ∀ message ∈ frame.messages, Answers calls.requests message
  | .traffic frame => frame.length ≤ rxBufSize ∧ unanswering frame
  | .take => True
  | .fail _ => calls.reading.held = 0
  | .timeout => calls.reading.held = 0

instance (calls : RemoteCalls) : (act : RemoteAct) → Decidable (allowed calls act)
  | .call .. => inferInstanceAs (Decidable (_ < _ ∧ _))
  | .others session => inferInstanceAs (Decidable (_ = _ ∧ ∀ frame ∈ session.sent.drop _, _))
  | .respond frame => inferInstanceAs (Decidable (_ ∧ ∀ message ∈ frame.messages, Answers _ message))
  | .traffic _ => inferInstanceAs (Decidable (_ ∧ _))
  | .take => inferInstanceAs (Decidable True)
  | .fail _ => inferInstanceAs (Decidable (_ = _))
  | .timeout => inferInstanceAs (Decidable (_ = _))

section Turns
variable {ty : Ty} {requestId : UInt32} {node : Node} {waiting : Waiting}

/-- The loop goes on, or its decoder has panicked. -/
inductive Undecided : Outcome Error (Option ty.Val × Waiting) → Prop where
  | next (waiting : Waiting) : Undecided (.ok (none, waiting))
  | panic (fault : Fault) : Undecided (.panic fault)

theorem handle_unanswering {frame : Bytes} (other : unanswering frame) :
    Undecided (waiting.handle ty requestId node frame) := by
  unfold unanswering at other
  unfold Waiting.handle
  cases header : decodeFrameHeader frame with
  | err error => exact .next waiting
  | panic fault => exact .panic fault
  | ok read =>
    obtain ⟨sn, reliable, bodyPos⟩ := read
    rw [header] at other
    by_cases inside : bodyPos ≤ frame.length
    · have unmatched : matchResponse ty requestId (frame.drop bodyPos) = .ok none ∨
          ∃ fault, matchResponse ty requestId (frame.drop bodyPos) = .panic fault := by
        unfold matchResponse
        cases decoded : decodeResponse (frame.drop bodyPos) with
        | err error => exact .inl rfl
        | panic fault => exact .inr ⟨fault, rfl⟩
        | ok found =>
          cases found with
          | none => exact .inl rfl
          | some found =>
            simp only [decoded] at other
            cases other
      simp only [ifOk, sliceFrom_eq inside, Outcome.ok_bind]
      rcases unmatched with none | ⟨fault, fails⟩
      · -- The frame goes to the subscriptions, whose errors are ignored.
        simp only [none, Outcome.ok_bind]
        cases dispatchFrame node frame waiting.fragAsm with
        | ok handled => exact .next _
        | err error => exact .next waiting
        | panic fault => exact .panic fault
      · rw [fails]
        exact .panic fault
    · simp only [ifOk, sliceFrom, if_neg inside]
      exact .panic _

theorem take_unanswering {frame : Bytes} (other : unanswering frame) :
    Undecided (waiting.take ty requestId node frame) ∨
      waiting.take ty requestId node frame = .err (.transport .connectionClosed) := by
  unfold Waiting.take index
  simp only [List.take_left]
  split
  · rw [Outcome.ok_bind]
    split
    · exact .inl (handle_unanswering other)
    split
    · exact .inr rfl
    · exact .inl (.next _)
  · exact .inl (.panic _)

/-- What a turn ends the call with. -/
def decision : Outcome Error (Option ty.Val × Waiting) → Option (Outcome Error ty.Val)
  | .ok (some resp, _) => some (.ok resp)
  | .ok (none, _) => none
  | .err error => some (.err error)
  | .panic fault => some (.panic fault)

theorem decision_turn (arrival : Arrival) :
    awaitReply ty requestId node waiting [arrival] =
      (decision (waiting.turn ty requestId node arrival)).map fun result => (result, []) := by
  unfold awaitReply
  cases waiting.turn ty requestId node arrival with
  | ok value =>
    obtain ⟨resp, waiting⟩ := value
    cases resp <;> rfl
  | err error => rfl
  | panic fault => rfl

theorem decision_unanswering {frame : Bytes} (other : unanswering frame) {result : Outcome Error ty.Val}
    (decided : decision (waiting.turn ty requestId node (.frame frame)) = some result) :
    (∀ resp, result ≠ .ok resp) ∧ result ≠ .err .serviceNoReply := by
  have taken : Undecided (waiting.turn ty requestId node (.frame frame)) ∨
      waiting.turn ty requestId node (.frame frame) = .err (.transport .connectionClosed) := take_unanswering other
  rcases taken with undecided | closed
  · generalize waiting.turn ty requestId node (.frame frame) = outcome at undecided decided
    cases undecided with
    | next waiting => cases decided
    | panic fault =>
      cases decided
      exact ⟨by simp, by simp⟩
  · rw [closed] at decided
    cases decided
    exact ⟨by simp, by simp⟩

theorem readReply_ne_noReply (payload : Bytes) : readReply ty payload ≠ .err .serviceNoReply := by
  unfold readReply
  cases deserializeWithHeader ty payload with
  | ok value =>
    intro same
    cases same
  | err error =>
    intro same
    cases same
  | panic fault =>
    intro same
    cases same

/-- A frame of the server decides the call by its first message, if this has the id of the call. -/
theorem decision_responding {frame : ServiceFrame} (fits : frame.bytes.length ≤ rxBufSize)
    {result : Outcome Error ty.Val}
    (decided : decision (waiting.turn ty requestId node (.frame frame.bytes)) = some result) :
    ∃ message ∈ frame.messages, ∃ id ∈ message.requestId, id.toUInt32 = requestId ∧
      ((∃ response, message = .reply response ∧ result = readReply ty response.payload) ∨
        ∃ response, message = .final response ∧ result = .err .serviceNoReply) := by
  obtain ⟨next, one⟩ := awaitReply_frame ty requestId node fits waiting []
  rw [decision_turn, decided] at one
  cases lead : frame.leading ty requestId with
  | none =>
    rw [lead] at one
    cases one
  | some found =>
    rw [lead] at one
    cases one
    obtain ⟨message, first, answer⟩ := Option.bind_eq_some_iff.mp lead
    refine ⟨message, List.mem_of_mem_head? first, ?_⟩
    cases message with
    | push message => cases answer
    | reply response =>
      obtain ⟨same, read⟩ := Option.ite_none_right_eq_some.mp answer
      exact ⟨_, rfl, by simpa using same, .inl ⟨response, rfl, (Option.some.inj read).symm⟩⟩
    | final response =>
      obtain ⟨same, read⟩ := Option.ite_none_right_eq_some.mp answer
      exact ⟨_, rfl, by simpa using same, .inr ⟨response, rfl, (Option.some.inj read).symm⟩⟩

end Turns

section Runs

def idOf (start : UInt32) (n : Nat) : UInt32 := start + UInt32.ofNat n

omit [Target] in
theorem idOf_succ (start : UInt32) (n : Nat) : idOf start (n + 1) = idOf start n + 1 := by
  rw [idOf, idOf, UInt32.ofNat_add, UInt32.add_assoc]
  rfl

omit [Target] in
theorem idOf_inj {start : UInt32} {n m : Nat} (early : n < 2 ^ 32) (late : m < 2 ^ 32) (same : idOf start n = idOf start m) :
    n = m := by
  have ids := congrArg UInt32.toNat ((UInt32.add_right_inj _).mp same)
  rwa [UInt32.toNat_ofNat_of_lt' early, UInt32.toNat_ofNat_of_lt' late] at ids

/-- The ids that are used up, `earlier` of them before the call that waits. -/
structure Numbered (start : UInt32) (earlier : Nat) (calls : RemoteCalls) : Prop where
  next : calls.client.requestIdGen = idOf start (earlier + calls.current.isSome.toNat)
  current : ∀ pending ∈ calls.current, pending.requestId = idOf start earlier ∧ earlier < 2 ^ 32
  requests : ∀ request ∈ calls.requests, (∃ j < earlier, request.requestId = (idOf start j).toUInt64) ∨
    ∃ pending ∈ calls.current, pending.call.asked pending.requestId = some request

def Responds (answered : List (Request × NetworkMessage)) (frame : Bytes) : Prop :=
  ∃ sent : ServiceFrame, frame = sent.bytes ∧ sent.bytes.length ≤ rxBufSize ∧
    ∀ message ∈ sent.messages, message.requestId.isSome → ∃ request, (request, message) ∈ answered

/-- A result that comes from the server answers the request of the call. -/
structure Grounded (answered : List (Request × NetworkMessage)) (done : FinishedCall) : Prop where
  ok : ∀ resp, done.result = .ok resp → ∃ request response, done.call.asked done.requestId = some request ∧
    (request, .reply response) ∈ answered ∧ readReply done.ty response.payload = .ok resp
  noReply : done.result = .err .serviceNoReply → ∃ request response, done.call.asked done.requestId = some request ∧
    (request, .final response) ∈ answered

structure Sound (start : UInt32) (calls : RemoteCalls) : Prop where
  numbered : ∃ earlier ≤ calls.finished.length, Numbered start earlier calls
  distinct : (calls.requests.map Request.requestId).Nodup
  answered : ∀ pair ∈ calls.answered, pair.1 ∈ calls.requests ∧ pair.2.requestId = some pair.1.requestId
  short : ∀ pair ∈ calls.answered, pair.2.bytes.length ≤ rxBufSize
  coming : ∃ frames, calls.reading.Amid rxBufSize calls.link frames ∧
    ∀ frame ∈ frames, Responds calls.answered frame ∨ unanswering frame
  finished : ∀ done ∈ calls.finished, Grounded calls.answered done

variable {start : UInt32} {calls next : RemoteCalls} {pending : PendingCall}

theorem Sound.finish (sound : Sound start calls) (waits : calls.current = some pending)
    {result : Outcome Error pending.ty.Val}
    (grounded : Grounded calls.answered ⟨pending.call, pending.ty, pending.requestId, result⟩) :
    Sound start (calls.finish pending result) where
  numbered := by
    obtain ⟨earlier, bound, numbered⟩ := sound.numbered
    refine ⟨earlier + 1, by simp [RemoteCalls.finish]; omega, ?_, ?_, ?_⟩
    · have used := numbered.next
      rw [waits] at used
      exact used
    · intro _ none
      cases none
    · intro request member
      rcases numbered.requests request member with ⟨j, before, same⟩ | ⟨other, waiting, asked⟩
      · exact .inl ⟨j, by omega, same⟩
      · have same : pending = other := Option.some.inj (waits.symm.trans waiting)
        subst same
        refine .inl ⟨earlier, Nat.lt_succ_self earlier, ?_⟩
        rw [ServiceCall.requestId_asked asked, (numbered.current pending waiting).1]
  distinct := sound.distinct
  answered := sound.answered
  short := sound.short
  coming := sound.coming
  finished done member := by
    rcases List.mem_append.mp member with old | new
    · exact sound.finished done old
    · rw [List.mem_singleton.mp new]
      exact grounded

theorem Sound.turn (sound : Sound start calls) (waits : calls.current = some pending) {arrival : Arrival}
    (grounded : ∀ result, decision (pending.waiting.turn pending.ty pending.requestId calls.client.session.node arrival) =
      some result → Grounded calls.answered ⟨pending.call, pending.ty, pending.requestId, result⟩) :
    Sound start (calls.turn pending arrival) := by
  unfold RemoteCalls.turn
  generalize pending.waiting.turn pending.ty pending.requestId calls.client.session.node arrival = outcome at grounded ⊢
  cases outcome with
  | ok value =>
    obtain ⟨resp, waiting⟩ := value
    cases resp with
    | some resp => exact sound.finish waits (grounded (.ok resp) rfl)
    | none =>
      obtain ⟨earlier, bound, next, current, requests⟩ := sound.numbered
      refine ⟨⟨earlier, bound, ?_, ?_, ?_⟩, sound.distinct, sound.answered, sound.short, sound.coming, sound.finished⟩
      · rw [waits] at next
        exact next
      · intro other same
        cases same
        exact current pending waits
      · intro request member
        rcases requests request member with before | ⟨other, waiting', asked⟩
        · exact .inl before
        · obtain rfl : pending = other := Option.some.inj (waits.symm.trans waiting')
          exact .inr ⟨_, rfl, asked⟩
  | err error => exact sound.finish waits (grounded (.err error) rfl)
  | panic fault => exact sound.finish waits (grounded (.panic fault) rfl)

theorem Sound.own (sound : Sound start calls) (waits : calls.current = some pending) {request : Request}
    (member : request ∈ calls.requests) (same : request.requestId.toUInt32 = pending.requestId) :
    pending.call.asked pending.requestId = some request := by
  obtain ⟨earlier, -, numbered⟩ := sound.numbered
  obtain ⟨id, bound⟩ := numbered.current pending waits
  rcases numbered.requests request member with ⟨j, before, other⟩ | ⟨other, waiting, asked⟩
  · rw [other, UInt32.toUInt32_toUInt64, id] at same
    have clash := idOf_inj (by omega) bound same
    omega
  · obtain rfl : pending = other := Option.some.inj (waits.symm.trans waiting)
    exact asked

theorem Sound.responding (sound : Sound start calls) (waits : calls.current = some pending) {frame : Bytes}
    (responds : Responds calls.answered frame) {node : Node} {result : Outcome Error pending.ty.Val}
    (decided : decision (pending.waiting.turn pending.ty pending.requestId node (.frame frame)) = some result) :
    Grounded calls.answered ⟨pending.call, pending.ty, pending.requestId, result⟩ := by
  obtain ⟨sent, rfl, fits, answers⟩ := responds
  obtain ⟨message, member, id, found, same, way⟩ := decision_responding fits decided
  obtain ⟨request, pair⟩ := answers message member (by rw [found]; rfl)
  obtain ⟨known, answered⟩ := sound.answered _ pair
  have asked : pending.call.asked pending.requestId = some request := by
    refine sound.own waits known ?_
    rw [← same]
    exact congrArg UInt64.toUInt32 (Option.some.inj (answered.symm.trans found))
  rcases way with ⟨response, rfl, read⟩ | ⟨response, rfl, none⟩
  · refine ⟨fun resp ok => ⟨request, response, asked, pair, read.symm.trans ok⟩, fun none => ?_⟩
    exact absurd (read.symm.trans none) (readReply_ne_noReply _)
  · refine ⟨fun resp ok => ?_, fun _ => ⟨request, response, asked, pair⟩⟩
    rw [none] at ok
    cases ok

theorem Grounded.more {answered : List (Request × NetworkMessage)} {done : FinishedCall} (grounded : Grounded answered done)
    (later : List (Request × NetworkMessage)) : Grounded (answered ++ later) done where
  ok resp same := by
    obtain ⟨request, response, asked, pair, read⟩ := grounded.ok resp same
    exact ⟨request, response, asked, List.mem_append_left _ pair, read⟩
  noReply same := by
    obtain ⟨request, response, asked, pair⟩ := grounded.noReply same
    exact ⟨request, response, asked, List.mem_append_left _ pair⟩

theorem Grounded.unsent {answered : List (Request × NetworkMessage)} {call : ServiceCall} {ty : Ty} {requestId : UInt32}
    {result : Outcome Error ty.Val} (failed : ∀ resp, result ≠ .ok resp) (unanswered : result ≠ .err .serviceNoReply) :
    Grounded answered ⟨call, ty, requestId, result⟩ :=
  ⟨fun resp same => absurd same (failed resp), fun same => absurd same unanswered⟩

omit [Target] in
theorem mem_answersOf {requests : List Request} {frame : ServiceFrame} {pair : Request × NetworkMessage} :
    pair ∈ answersOf requests frame → pair.1 ∈ requests ∧ pair.2 ∈ frame.messages ∧
      pair.2.requestId = some pair.1.requestId := by
  intro member
  obtain ⟨message, inside, found⟩ := List.mem_filterMap.mp member
  obtain ⟨request, first, rfl⟩ := Option.map_eq_some_iff.mp found
  exact ⟨List.mem_of_find?_eq_some first, inside, by simpa using List.find?_some first⟩

omit [Target] in
theorem length_message_le (frame : ServiceFrame) {message : NetworkMessage} (member : message ∈ frame.messages) :
    message.bytes.length ≤ frame.bytes.length := by
  obtain ⟨front, rest, split⟩ := List.append_of_mem member
  simp only [ServiceFrame.bytes, ServiceFrame.body, split, List.flatMap_append, List.flatMap_cons, List.length_append]
  omega

theorem Numbered.of_same {earlier : Nat} (numbered : Numbered start earlier calls) (client : next.client = calls.client)
    (current : next.current = calls.current) : Numbered start earlier next := by
  obtain ⟨client', current', finished, link, reading, answered⟩ := next
  subst client current
  exact ⟨numbered.next, numbered.current, numbered.requests⟩

theorem Sound.respond (sound : Sound start calls) {frame : ServiceFrame} (may : allowed calls (.respond frame)) :
    Sound start { calls with
      link := calls.link ++ framed frame.bytes
      answered := calls.answered ++ answersOf calls.requests frame } where
  numbered := by
    obtain ⟨earlier, bound, numbered⟩ := sound.numbered
    exact ⟨earlier, bound, numbered.of_same rfl rfl⟩
  distinct := sound.distinct
  answered pair member := by
    rcases List.mem_append.mp member with old | new
    · exact sound.answered pair old
    · obtain ⟨known, -, same⟩ := mem_answersOf new
      exact ⟨known, same⟩
  short pair member := by
    rcases List.mem_append.mp member with old | new
    · exact sound.short pair old
    · exact Nat.le_trans (length_message_le frame (mem_answersOf new).2.1) may.1
  coming := by
    obtain ⟨frames, amid, sources⟩ := sound.coming
    refine ⟨frames ++ [frame.bytes], amid.write may.1, fun other member => ?_⟩
    rcases List.mem_append.mp member with old | new
    · rcases sources other old with ⟨sent, same, fits, answers⟩ | none
      · refine .inl ⟨sent, same, fits, fun message inside answering => ?_⟩
        obtain ⟨request, pair⟩ := answers message inside answering
        exact ⟨request, List.mem_append_left _ pair⟩
      · exact .inr none
    · rw [List.mem_singleton.mp new]
      refine .inl ⟨frame, rfl, may.1, fun message inside answering => ?_⟩
      obtain ⟨id, found⟩ := Option.isSome_iff_exists.mp answering
      obtain ⟨request, known, same⟩ := may.2 message inside id found
      have answers : (calls.requests.find? fun request => message.requestId = some request.requestId).isSome := by
        rw [List.find?_isSome]
        exact ⟨request, known, by simp [found, same]⟩
      obtain ⟨first, chosen⟩ := Option.isSome_iff_exists.mp answers
      refine ⟨first, List.mem_append_right _ (List.mem_filterMap.mpr ⟨message, inside, ?_⟩)⟩
      rw [chosen]
      rfl
  finished done member := (sound.finished done member).more _

theorem Sound.fails (sound : Sound start calls) (idle : calls.current = none) {client : Client} {earlier : Nat}
    (bound : earlier ≤ calls.finished.length) (numbered : Numbered start earlier calls) {used : Nat} (one : used ≤ 1)
    (next : client.requestIdGen = idOf start (earlier + used)) (requests : client.session.requests = calls.requests)
    (pending : PendingCall) {result : Outcome Error pending.ty.Val} (failed : ∀ resp, result ≠ .ok resp)
    (unanswered : result ≠ .err .serviceNoReply) :
    Sound start (RemoteCalls.finish { calls with client := client } pending result) where
  numbered := by
    refine ⟨earlier + used, by simp [RemoteCalls.finish]; omega, next, ?_, ?_⟩
    · intro _ none
      cases none
    intro request member
    change request ∈ client.session.requests at member
    rw [requests] at member
    rcases numbered.requests request member with ⟨j, before, same⟩ | ⟨other, waiting, -⟩
    · exact .inl ⟨j, by omega, same⟩
    · rw [idle] at waiting
      cases waiting
  distinct := by
    change (client.session.requests.map Request.requestId).Nodup
    rw [requests]
    exact sound.distinct
  answered pair member := by
    change pair.1 ∈ client.session.requests ∧ _
    rw [requests]
    exact sound.answered pair member
  short := sound.short
  coming := sound.coming
  finished done member := by
    rcases List.mem_append.mp member with old | new
    · exact sound.finished done old
    · rw [List.mem_singleton.mp new]
      exact .unsent failed unanswered

theorem Sound.begins (sound : Sound start calls) (idle : calls.current = none) (room : calls.finished.length < 2 ^ 32)
    {call : ServiceCall} {ty : Ty} {client : Client} {request : Request}
    (made : call.asked calls.client.requestIdGen = some request)
    (next : client.requestIdGen = calls.client.requestIdGen + 1)
    (requests : client.session.requests = calls.requests ++ [request]) :
    Sound start { calls with client := client, current := some ⟨call, ty, calls.client.requestIdGen, .start⟩ } := by
  obtain ⟨earlier, bound, numbered⟩ := sound.numbered
  have gen : calls.client.requestIdGen = idOf start earlier := by
    have now := numbered.next
    rwa [idle] at now
  have before (other : Request) (member : other ∈ calls.requests) :
      ∃ j < earlier, other.requestId = (idOf start j).toUInt64 := by
    rcases numbered.requests other member with early | ⟨pending, waiting, -⟩
    · exact early
    · rw [idle] at waiting
      cases waiting
  -- The id is a new one: all others were taken by fewer than 2^32 earlier calls.
  refine ⟨⟨earlier, bound, ?_, ?_, ?_⟩, ?_, ?_, sound.short, sound.coming, sound.finished⟩
  · change client.requestIdGen = idOf start (earlier + 1)
    rw [next, gen, idOf_succ]
  · intro pending same
    cases same
    exact ⟨gen, by omega⟩
  · intro other member
    change other ∈ client.session.requests at member
    rw [requests] at member
    rcases List.mem_append.mp member with old | new
    · exact .inl (before other old)
    · rw [List.mem_singleton.mp new]
      exact .inr ⟨_, rfl, made⟩
  · change (client.session.requests.map Request.requestId).Nodup
    rw [requests, List.map_append, List.map_singleton, List.nodup_append]
    refine ⟨sound.distinct, by simp, fun id old other new => ?_⟩
    rw [List.mem_singleton.mp new, ServiceCall.requestId_asked made, gen]
    obtain ⟨request', known, rfl⟩ := List.mem_map.mp old
    obtain ⟨j, early, same⟩ := before request' known
    rw [same]
    intro clash
    have ids := idOf_inj (by omega) (by omega) (UInt32.toUInt64_inj.mp clash)
    omega
  · intro pair member
    change pair.1 ∈ client.session.requests ∧ _
    rw [requests]
    obtain ⟨known, same⟩ := sound.answered pair member
    exact ⟨List.mem_append_left _ known, same⟩

theorem Sound.reading (sound : Sound start calls) (idle : calls.reading.held = 0) : calls.reading = .start := by
  obtain ⟨frames, amid, -⟩ := sound.coming
  exact amid.eq_start idle

theorem Sound.call (sound : Sound start calls) {call : ServiceCall} {ty : Ty} (may : allowed calls (.call call ty))
    (stepped : calls.step (.call call ty) = some next) : Sound start next := by
  unfold RemoteCalls.step at stepped
  cases idle : calls.current with
  | some pending =>
    simp only [idle] at stepped
    cases stepped
  | none =>
    obtain ⟨earlier, bound, numbered⟩ := sound.numbered
    have gen : calls.client.requestIdGen = idOf start earlier := by
      have now := numbered.next
      rwa [idle] at now
    have requesting := requestService_requesting call calls.client
    simp only [idle] at stepped
    -- The read of `spin` has taken nothing, so the new one is the same.
    rw [← sound.reading may.2] at stepped
    generalize requestService call calls.client = ran at requesting stepped
    cases requesting with
    | @refused result failed unanswered =>
      cases result with
      | ok requestId => exact absurd rfl (failed requestId)
      | err error =>
        cases stepped
        exact sound.fails idle bound numbered (Nat.zero_le 1) gen rfl _ (by simp) (by simpa using unanswered)
      | panic fault =>
        cases stepped
        exact sound.fails idle bound numbered (Nat.zero_le 1) gen rfl _ (by simp) (by simp)
    | @failed result after failed unanswered used requests =>
      have next : after.requestIdGen = idOf start (earlier + 1) := by rw [used, gen, idOf_succ]
      cases result with
      | ok requestId => exact absurd rfl (failed requestId)
      | err error =>
        cases stepped
        exact sound.fails idle bound numbered (Nat.le_refl 1) next requests _ (by simp) (by simpa using unanswered)
      | panic fault =>
        cases stepped
        exact sound.fails idle bound numbered (Nat.le_refl 1) next requests _ (by simp) (by simp)
    | @requested after request made used requests =>
      cases stepped
      exact sound.begins idle may.1 made used requests

theorem Sound.others (sound : Sound start calls) {session : Session}
    (may : allowed calls (.others session)) :
    Sound start { calls with client := { calls.client with session := session } } := by
  have requests : session.requests = calls.requests := by
    obtain ⟨front, silent⟩ := may
    have none : (session.sent.drop calls.client.session.sent.length).filterMap Request.read = [] :=
      List.filterMap_eq_nil_iff.mpr silent
    rw [Session.requests, ← List.take_append_drop calls.client.session.sent.length session.sent, List.filterMap_append,
      none, List.append_nil, front]
    rfl
  obtain ⟨earlier, bound, next, current, known⟩ := sound.numbered
  refine ⟨⟨earlier, bound, next, current, fun request member => ?_⟩, ?_, fun pair member => ?_, sound.short, sound.coming,
    sound.finished⟩
  · exact known request (requests ▸ member)
  · change (session.requests.map Request.requestId).Nodup
    rw [requests]
    exact sound.distinct
  · change pair.1 ∈ session.requests ∧ _
    rw [requests]
    exact sound.answered pair member

theorem Sound.arrives (sound : Sound start calls) {arrival : Arrival}
    (grounded : ∀ pending ∈ calls.current, ∀ result,
      decision (pending.waiting.turn pending.ty pending.requestId calls.client.session.node arrival) = some result →
        Grounded calls.answered ⟨pending.call, pending.ty, pending.requestId, result⟩) :
    Sound start (calls.arrives arrival) := by
  unfold RemoteCalls.arrives
  split
  · exact sound
  · rename_i pending waits
    exact sound.turn waits (grounded pending waits)

theorem Sound.take (sound : Sound start calls) (stepped : calls.step .take = some next) : Sound start next := by
  unfold RemoteCalls.step at stepped
  obtain ⟨frames, amid, sources⟩ := sound.coming
  cases bytes : calls.link with
  | nil =>
    simp only [bytes] at stepped
    cases stepped
  | cons byte rest =>
    simp only [bytes] at stepped
    cases stepped
    rw [bytes] at amid
    obtain ⟨earlier, bound, numbered⟩ := sound.numbered
    have moved (reading : Reading) (frames : List Bytes) (amid : reading.Amid rxBufSize rest frames)
        (sources : ∀ frame ∈ frames, Responds calls.answered frame ∨ unanswering frame) :
        Sound start { calls with link := rest, reading := reading } :=
      ⟨⟨earlier, bound, numbered.of_same rfl rfl⟩, sound.distinct, sound.answered, sound.short, ⟨frames, amid, sources⟩,
        sound.finished⟩
    -- The byte is inside of the first frame that is coming, or it is the last one of it.
    rcases amid.poll (by decide) with ⟨reading, polled, amid⟩ | ⟨frame, later, rfl, polled, amid⟩
    · rw [polled]
      exact moved reading frames amid sources
    · rw [polled]
      have left := moved .start later amid fun other member => sources other (List.mem_cons_of_mem _ member)
      refine left.arrives fun pending waits result decided => ?_
      rcases sources frame List.mem_cons_self with responds | other
      · exact left.responding waits responds decided
      · obtain ⟨failed, unanswered⟩ := decision_unanswering other decided
        exact .unsent failed unanswered

theorem Sound.dropped (sound : Sound start calls) (idle : calls.reading.held = 0) :
    Sound start { calls with reading := .start } := by
  rw [← sound.reading idle]
  exact sound

theorem Sound.step {act : RemoteAct} (sound : Sound start calls) (may : allowed calls act)
    (stepped : calls.step act = some next) : Sound start next := by
  cases act with
  | call call ty => exact sound.call may stepped
  | others session =>
    unfold RemoteCalls.step at stepped
    cases idle : calls.current with
    | some pending =>
      simp only [idle] at stepped
      cases stepped
    | none =>
      simp only [idle] at stepped
      cases stepped
      have same := sound.others may
      rwa [idle] at same
  | respond frame =>
    cases stepped
    exact sound.respond may
  | traffic frame =>
    cases stepped
    obtain ⟨earlier, bound, numbered⟩ := sound.numbered
    obtain ⟨frames, amid, sources⟩ := sound.coming
    refine ⟨⟨earlier, bound, numbered.of_same rfl rfl⟩, sound.distinct, sound.answered, sound.short,
      ⟨frames ++ [frame], amid.write may.1, fun other member => ?_⟩, sound.finished⟩
    rcases List.mem_append.mp member with old | new
    · exact sources other old
    · rw [List.mem_singleton.mp new]
      exact .inr may.2
  | take => exact sound.take stepped
  | fail error =>
    cases stepped
    refine (sound.dropped may).arrives fun pending _ result decided => ?_
    cases decided
    exact .unsent (by simp) (by simp)
  | timeout =>
    cases stepped
    refine (sound.dropped may).arrives fun pending _ result decided => ?_
    cases decided
    exact .unsent (by simp) (by simp)

theorem Run.sound {client : Client} (fresh : client.session.requests = [])
    (run : Machine.Run RemoteCalls.step allowed (.initial client) calls) : Sound client.requestIdGen calls := by
  apply Machine.Run.invariant (Sound client.requestIdGen) run
  · have none : (initial client).requests = [] := fresh
    refine ⟨⟨0, Nat.zero_le _, ?_, by simp [initial], by simp [none]⟩, by simp [none], ?_, ?_, ⟨[], .nil, by simp⟩, ?_⟩
    · exact (UInt32.add_zero _).symm
    all_goals simp [initial]
  · intro calls next act _ before may stepped
    exact before.step may stepped

/-- Whenever answers come, and however many calls have given up before: no two
requests have the same id, and a call returns what the server has sent in answer
to its own request, or an error. -/
theorem calls_answered (client : Client) (fresh : client.session.requests = [])
    (run : Machine.Run RemoteCalls.step allowed (.initial client) calls) :
    (calls.requests.map Request.requestId).Nodup ∧
      (∀ pair ∈ calls.answered, pair.1 ∈ calls.requests ∧ pair.2.requestId = some pair.1.requestId) ∧
      ∀ done ∈ calls.finished, Grounded calls.answered done := by
  have sound := Run.sound fresh run
  exact ⟨sound.distinct, sound.answered, sound.finished⟩

end Runs

end RemoteCalls
end Calls

namespace RemoteCalls

/-- The reply to the first call comes while the second one waits. -/
theorem calls_answered_late :
    letI := target64
    let client : Client :=
      ⟨⟨Node.built "client" "" 0 (ZenohId.fromBytes [7]) 10000 10000, fun _ => true, 0, []⟩, 1⟩
    ∃ calls : RemoteCalls, Machine.Run RemoteCalls.step allowed (.initial client) calls ∧
      (calls.finished.length = 2 ∧ calls.current.isNone) ∧
      (calls.requests.map Request.requestId).Nodup ∧
      (∀ pair ∈ calls.answered, pair.1 ∈ calls.requests ∧ pair.2.requestId = some pair.1.requestId) ∧
      ∀ done ∈ calls.finished, Grounded calls.answered done := by
  let := target64
  intro client
  let adder : TopicKeyExpr := ⟨0, "add", "Add", "hash"⟩
  let call (octet : UInt8) : ServiceCall := ⟨8, le_isizeMax (by decide), .prim .u8, octet, adder⟩
  let late : ServiceFrame := ⟨⟨0, true, []⟩, [octetReply 1 5]⟩
  let own : ServiceFrame := ⟨⟨1, true, []⟩, [octetReply 2 9, .final ⟨2, []⟩]⟩
  obtain ⟨calls, run, ended⟩ : ∃ calls : RemoteCalls, Machine.Run RemoteCalls.step allowed (.initial client) calls ∧
      (calls.finished.length = 2 ∧ calls.current.isNone) :=
    Machine.exists_run ([.call (call 3) (.prim .u8), .timeout, .call (call 4) (.prim .u8), .respond late, .respond own] ++
      List.replicate (framed late.bytes ++ framed own.bytes).length .take) (by decide +kernel)
  exact ⟨calls, run, ended, calls_answered client (by decide) run⟩

end RemoteCalls
end ZenohRos2
