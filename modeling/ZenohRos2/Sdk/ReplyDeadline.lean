import Mathlib.Algebra.GroupWithZero.Nat
import ZenohRos2.Lib.Machine
import ZenohRos2.Sdk.Replies
import ZenohRos2.Transport.Readable

/-! The wait of a service call against the clock.

The timeout bounds each read of the loop, and the next read starts it afresh. So
the frames of others keep a call waiting, each for another timeout. Which frames
these are is a matter of their bytes.
-/

set_option autoImplicit false

namespace ZenohRos2
open Rust Cdr

/-- A read of the loop, with the milliseconds that it takes. -/
structure TimedRead (timeout : Nat) where
  arrival : Arrival
  after : Nat
  -- `read_frame` fails on a frame that is longer than `rx_buf`.
  fits : ∀ payload, arrival = .frame payload → payload.length ≤ rxBufSize
  -- `with_timeout` asks for the frame first: one that is there at the bound is still taken.
  within : if arrival = .timeout then after = timeout else after ≤ timeout
  deriving DecidableEq

/-- A call since its request was written, with the locals of the loop until it returns. -/
structure TimedCall where
  elapsed : Nat
  waiting : Option Waiting
  deriving DecidableEq

def goesOn {α : Type} : Outcome Error (Option α × Waiting) → Option Waiting
  | .ok (none, waiting) => some waiting
  | _ => none

/-- The first byte that a read finds in `rx_buf` is not that of a Close. -/
def Waiting.Quiet (waiting : Waiting) : Prop :=
  ∃ first rest, waiting.rxBuf = first :: rest ∧ messageId first ≠ transportId.close

section Passes
variable [Target] (requestId : UInt32)

/-- The body does not start with an answer to the request, and no length in it overflows. -/
def BodyPasses (body : Bytes) : Prop := ResponseReadable body ∧ ¬Answered requestId body ∧ PutReadable body

/-- A frame that a call does not return at: no Close, and no Frame with such a body. -/
def Arrival.Passes : Arrival → Prop
  | .frame payload => ByteThen payload 0 fun header => messageId header ≠ transportId.close ∧
      (messageId header = transportId.frame →
        VbyteThen payload 1 fun _ pos => ChainThen (hasFlag header frameFlag.z) payload pos fun bodyPos =>
          BodyPasses requestId (payload.drop bodyPos))
  | .failed _ => False
  | .timeout => False

end Passes

section Wait
variable [Target] (ty : Ty) (requestId : UInt32) (node : Node)

namespace TimedCall
variable {timeout : Nat}

def step (call : TimedCall) (read : TimedRead timeout) : Option TimedCall :=
  call.waiting.map fun waiting =>
    ⟨call.elapsed + read.after, goesOn (waiting.turn ty requestId node read.arrival)⟩

/-- A call that still waits has waited for the timeout at most. -/
def InTime (timeout : Nat) (call : TimedCall) : Prop := call.waiting.isSome → call.elapsed ≤ timeout

instance (timeout : Nat) : DecidablePred (InTime timeout) := fun _ => inferInstanceAs (Decidable (_ → _))

end TimedCall

variable {ty} {requestId} {node}

omit [Target] in
theorem Waiting.start_quiet : Waiting.start.Quiet := ⟨0, List.replicate 4095 0, rfl, by decide⟩

section GoesOn
variable {α β : Type}

omit [Target] in
theorem goesOn_ifOk (call : Decode β) {waiting : Waiting} {next : β → Outcome Error (Option α × Waiting)} :
    (goesOn (ifOk call (none, waiting) next)).isSome ↔ call.Returns fun value => (goesOn (next value)).isSome := by
  cases call with
  | ok value => exact Iff.rfl
  | err error => exact iff_of_true rfl trivial
  | panic fault => exact iff_of_false (by simp [ifOk, goesOn]) id

omit [Target] in
theorem ifOk_eq_ok (call : Decode β) {otherwise value : α} {next : β → Outcome Error α} (same : otherwise = value) :
    ifOk call otherwise next = .ok value ↔ call.Returns fun found => next found = .ok value := by
  cases call with
  | ok found => exact Iff.rfl
  | err error => exact iff_of_true (congrArg Outcome.ok same) trivial
  | panic fault => exact iff_of_false (by simp [ifOk]) id

end GoesOn

variable (ty requestId) in
theorem matchResponse_eq_none {body : Bytes} (addressable : Addressable body) :
    matchResponse ty requestId body = .ok none ↔ ResponseReadable body ∧ ¬Answered requestId body := by
  rw [answered_iff addressable, ← returns_decodeResponse_iff addressable, matchResponse, ifOk_eq_ok _ rfl]
  cases decodeResponse body with
  | err error => simp
  | panic fault => simp
  | ok found =>
    obtain - | ⟨msg, stop⟩ := found
    · simp
    cases msg with
    | final id => by_cases same : id = requestId <;> simp [same]
    | reply reply =>
      by_cases same : reply.requestId = requestId
      · cases read : readReply ty reply.payload <;> simp [same, read]
      · simp [same]

theorem handleBody_calm_iff {body : Bytes} (addressable : Addressable body) (handle : IncomingPut → Handled) :
    ((handleBody handle body).Returns fun _ => True) ↔ PutReadable body := by
  rw [← returns_decodePushPut_iff addressable, handleBody]
  cases decodePushPut body with
  | ok found => cases found <;> simp [ifOk]
  | err error => simp [ifOk]
  | panic fault => simp [ifOk]

theorem handle_goesOn_iff {waiting : Waiting} {first : UInt8} {tail : Bytes} (kind : messageId first = transportId.frame)
    (addressable : Addressable (first :: tail)) :
    (goesOn (waiting.handle ty requestId node (first :: tail))).isSome ↔
      VbyteThen (first :: tail) 1 fun _ pos => ChainThen (hasFlag first frameFlag.z) (first :: tail) pos fun bodyPos =>
        BodyPasses requestId ((first :: tail).drop bodyPos) := by
  have header := @returns_decodeFrameHeader_iff _ _ addressable
    (fun read => BodyPasses requestId ((first :: tail).drop read.2.2))
    (fun bodyPos => BodyPasses requestId ((first :: tail).drop bodyPos)) fun _ _ _ _ => Iff.rfl
  have start : (first :: tail)[0]? = some first := rfl
  rw [Waiting.handle, goesOn_ifOk]
  refine Iff.trans (Outcome.returns_congr fun read decoded => ?_) (header.trans
    ⟨fun all => all first start kind, fun holds other found _ => by cases start.symm.trans found; exact holds⟩)
  obtain ⟨sn, reliable, bodyPos⟩ := read
  have inside := decodeFrameHeader_inside addressable decoded
  have dispatched : dispatchFrame node (first :: tail) waiting.fragAsm =
      (handleBody (fun put => ⟨routeToSubscribers node.subscribers put, []⟩) ((first :: tail).drop bodyPos) >>=
        fun handled => .ok (handled, waiting.fragAsm)) := by
    unfold dispatchFrame dispatchWith
    simp only [List.isEmpty_cons, Bool.false_eq_true, if_false,
      show (index (first :: tail) 0 : Outcome Error UInt8) = .ok first from rfl, Outcome.ok_bind,
      parseTransportMsgKind_frame kind, decoded, ifOk, sliceFrom_eq inside]
  -- An error of the dispatch is ignored by the loop, a panic is not.
  have calm := handleBody_calm_iff (addressable.drop bodyPos)
    fun put => ⟨routeToSubscribers node.subscribers put, []⟩
  simp only [sliceFrom_eq inside, Outcome.ok_bind, dispatched]
  rw [BodyPasses, ← and_assoc, ← matchResponse_eq_none ty requestId (addressable.drop bodyPos), ← calm]
  cases matchResponse ty requestId ((first :: tail).drop bodyPos) with
  | err error => simp [goesOn]
  | panic fault => simp [goesOn]
  | ok found =>
    cases found with
    | some resp => simp [goesOn]
    | none =>
      cases handleBody (fun put => ⟨routeToSubscribers node.subscribers put, []⟩) ((first :: tail).drop bodyPos) with
      | ok handled => simp [goesOn]
      | err error => simp [goesOn]
      | panic fault => simp [goesOn]

theorem handle_rxBuf {waiting next : Waiting} {frameBuf : Bytes}
    (went : goesOn (waiting.handle ty requestId node frameBuf) = some next) : next.rxBuf = waiting.rxBuf := by
  unfold Waiting.handle ifOk at went
  split at went
  · rename_i read _
    obtain ⟨sn, reliable, bodyPos⟩ := read
    cases cut : (sliceFrom frameBuf bodyPos : Outcome Error Bytes) with
    | ok body =>
      simp only [cut, Outcome.ok_bind] at went
      cases found : matchResponse ty requestId body with
      | ok answer =>
        rw [found, Outcome.ok_bind] at went
        cases answer with
        | some resp => cases went
        | none =>
          simp only at went
          split at went
          · cases went
            rfl
          · cases went
            rfl
          · cases went
      | err error => simp [found, goesOn] at went
      | panic fault => simp [found, goesOn] at went
    | err error => simp [cut, goesOn] at went
    | panic fault => simp [cut, goesOn] at went
  · cases went
    rfl
  · cases went

theorem take_nil {waiting : Waiting} (quiet : waiting.Quiet) :
    waiting.take ty requestId node [] = .ok (none, waiting) := by
  obtain ⟨first, rest, held, notClose⟩ := quiet
  have same : (index (first :: rest) 0 : Outcome Error UInt8) = .ok first := rfl
  have empty : waiting.handle ty requestId node [] = .ok (none, waiting) := rfl
  unfold Waiting.take
  simp only [List.length_nil, List.drop_zero, List.nil_append, List.take_zero, held, same, Outcome.ok_bind,
    if_neg notClose]
  rw [← held, empty, ite_self]

/-- A call goes on after an arrival just if the arrival passes, whatever it has read before. -/
theorem turn_goesOn_iff {waiting : Waiting} (quiet : waiting.Quiet) {arrival : Arrival}
    (fits : ∀ payload, arrival = .frame payload → payload.length ≤ rxBufSize) :
    (goesOn (waiting.turn ty requestId node arrival)).isSome ↔ arrival.Passes requestId := by
  cases arrival with
  | failed error => exact iff_of_false (by simp [Waiting.turn, goesOn]) id
  | timeout => exact iff_of_false (by simp [Waiting.turn, goesOn]) id
  | frame payload =>
    rw [Waiting.turn]
    cases payload with
    | nil =>
      -- The loop looks at the first byte of an earlier frame, which was no Close.
      rw [take_nil quiet]
      exact iff_of_true rfl fun header found => by cases found
    | cons first tail =>
      have addressable : Addressable (first :: tail) := le_isizeMax (Nat.lt_of_le_of_lt (fits _ rfl) (by decide))
      have passes : (Arrival.frame (first :: tail)).Passes requestId ↔
          messageId first ≠ transportId.close ∧ (messageId first = transportId.frame →
            VbyteThen (first :: tail) 1 fun _ pos => ChainThen (hasFlag first frameFlag.z) (first :: tail) pos
              fun bodyPos => BodyPasses requestId ((first :: tail).drop bodyPos)) :=
        ⟨fun all => all first rfl, fun holds other found => by cases found; exact holds⟩
      rw [take_cons, passes]
      by_cases kind : messageId first = transportId.frame
      · have notClose : messageId first ≠ transportId.close := by rw [kind]; decide
        rw [if_pos kind, handle_goesOn_iff kind addressable, and_iff_right notClose, forall_prop_of_true kind]
      · rw [if_neg kind, iff_true_intro (fun same => absurd same kind), and_true]
        by_cases close : messageId first = transportId.close
        · rw [if_pos close]
          exact iff_of_false (by simp [goesOn]) (not_not_intro close)
        · rw [if_neg close]
          exact iff_of_true rfl close

theorem turn_quiet {waiting next : Waiting} (quiet : waiting.Quiet) {arrival : Arrival}
    (went : goesOn (waiting.turn ty requestId node arrival) = some next) : next.Quiet := by
  cases arrival with
  | failed error => cases went
  | timeout => cases went
  | frame payload =>
    rw [Waiting.turn] at went
    cases payload with
    | nil =>
      rw [take_nil quiet] at went
      cases went
      exact quiet
    | cons first tail =>
      rw [take_cons] at went
      split at went
      · rename_i kind
        exact ⟨first, _, handle_rxBuf went, by rw [kind]; decide⟩
      · split at went
        · cases went
        · rename_i close
          cases went
          exact ⟨first, _, rfl, close⟩

/-- Of the frames made of messages, a call waits through those whose first message is no answer to it. -/
theorem passes_service_iff (ty : Ty) (frame : ServiceFrame) (fits : frame.bytes.length ≤ rxBufSize) :
    (Arrival.frame frame.bytes).Passes requestId ↔ frame.leading ty requestId = none := by
  let node := Node.built "client" "" 0 (ZenohId.fromBytes [7]) 10000 10000
  have addressable : Addressable frame.bytes := le_isizeMax (Nat.lt_of_le_of_lt fits (by decide))
  rw [← @turn_goesOn_iff _ ty requestId node _ Waiting.start_quiet _ fun _ same => by cases same; exact fits]
  have front : frame.bytes = frame.head.headerByte :: frame.bytes.tail := rfl
  rw [Waiting.turn, front, take_cons, if_pos frame.head.messageId_headerByte, ← front, handle_service _ frame addressable]
  cases frame.leading ty requestId with
  | none => exact iff_of_true rfl rfl
  | some result => cases result <;> exact iff_of_false (by simp [goesOn]) (by simp)

namespace TimedCall
variable {timeout : Nat}

theorem always_inTime_iff {waiting : Waiting} (quiet : waiting.Quiet) (elapsed : Nat)
    (reads : List (TimedRead timeout)) :
    Machine.Always (step ty requestId node) (InTime timeout) ⟨elapsed, some waiting⟩ reads ↔
      ∀ front, front <+: reads → (∀ read ∈ front, read.arrival.Passes requestId) →
        elapsed + (front.map TimedRead.after).sum ≤ timeout := by
  -- On the reads: a read that passes moves the clock on, and any other one ends the wait.
  induction reads generalizing elapsed waiting with
  | nil => simp [Machine.Always, InTime]
  | cons read reads ih =>
    have decides := @turn_goesOn_iff _ ty requestId node _ quiet _ read.fits
    unfold Machine.Always
    simp only [step, Option.map_some]
    cases went : goesOn (waiting.turn ty requestId node read.arrival) with
    | some next =>
      have passes := decides.mp (by rw [went]; rfl)
      rw [ih (turn_quiet quiet went)]
      constructor
      · rintro ⟨now, later⟩ front before all
        rcases List.prefix_cons_iff.mp before with rfl | ⟨rest, rfl, shorter⟩
        · exact now rfl
        · have more := later rest shorter fun other member => all other (List.mem_cons_of_mem _ member)
          rw [List.map_cons, List.sum_cons, ← Nat.add_assoc]
          exact more
      · intro all
        refine ⟨fun _ => all [] List.nil_prefix nofun, fun front before passing => ?_⟩
        have more := all (read :: front) (List.prefix_cons_iff.mpr (.inr ⟨front, rfl, before⟩)) fun other member => by
          rcases List.mem_cons.mp member with rfl | member
          · exact passes
          · exact passing other member
        rw [List.map_cons, List.sum_cons, ← Nat.add_assoc] at more
        exact more
    | none =>
      -- The call has returned, so of the fronts only the empty one counts.
      have ends : ¬read.arrival.Passes requestId := fun passes => by
        have kept := decides.mpr passes
        rw [went] at kept
        cases kept
      have returned : Machine.Always (step ty requestId node) (InTime timeout) ⟨elapsed + read.after, none⟩ reads := by
        cases reads <;> simp [Machine.Always, InTime, step]
      constructor
      · rintro ⟨now, -⟩ front before all
        rcases List.prefix_cons_iff.mp before with rfl | ⟨rest, rfl, -⟩
        · exact now rfl
        · exact absurd (all read List.mem_cons_self) ends
      · intro all
        exact ⟨fun _ => all [] List.nil_prefix nofun, returned⟩

theorem still_waiting_iff (waiting : Waiting) (elapsed : Nat) (reads : List (TimedRead timeout)) :
    awaitReply ty requestId node waiting (reads.map TimedRead.arrival) = none ↔
      ∃ call, Machine.execute (step ty requestId node) (fun _ _ => True) reads ⟨elapsed, some waiting⟩ = some call ∧
        call.waiting.isSome := by
  induction reads generalizing elapsed waiting with
  | nil => simp [awaitReply, Machine.execute]
  | cons read reads ih =>
    have ended (elapsed : Nat) : ¬∃ call,
        Machine.execute (step ty requestId node) (fun _ _ => True) reads ⟨elapsed, none⟩ = some call ∧
          call.waiting.isSome := by
      cases reads <;> simp [Machine.execute, step]
    simp only [List.map_cons, awaitReply, Machine.execute, if_true, step, Option.map_some, Option.bind_some]
    cases waiting.turn ty requestId node read.arrival with
    | ok found =>
      obtain ⟨answer, next⟩ := found
      cases answer with
      | some resp => exact iff_of_false (by simp) (ended _)
      | none => exact ih next _
    | err error => exact iff_of_false (by simp) (ended _)
    | panic fault => exact iff_of_false (by simp) (ended _)

/-- In every waiting state the time since the request was written is within the
timeout, just when the reads in front of the first arrival that does not pass
take no longer together. -/
theorem inTime_iff (node : Node) (ty : Ty) (requestId : UInt32) (timeout : Nat) (reads : List (TimedRead timeout)) :
    Machine.Always (step ty requestId node) (InTime timeout) ⟨0, some .start⟩ reads ↔
      ∀ front, front <+: reads → (∀ read ∈ front, read.arrival.Passes requestId) →
        (front.map TimedRead.after).sum ≤ timeout := by
  rw [always_inTime_iff Waiting.start_quiet]
  simp only [Nat.zero_add]

omit [Target] in
/-- Two keepalives, each just within the timeout, make the call wait for twice that time. -/
theorem waits_beyond_timeout :
    let node := Node.built "client" "" 0 (ZenohId.fromBytes [7]) 10000 10000
    let keepalive : TimedRead 5000 := ⟨.frame [4], 4999, fun _ same => by cases same; decide, by decide⟩
    letI := target64
    ((Machine.execute (step (.prim .u8) 1 node) (fun _ _ => True) [keepalive, keepalive] ⟨0, some .start⟩).map
        fun call => (call.elapsed, call.waiting.isSome)) = some (9998, true) ∧
      ¬Machine.Always (step (.prim .u8) 1 node) (InTime 5000) ⟨0, some .start⟩ [keepalive, keepalive] := by
  decide +kernel

end TimedCall
end Wait
end ZenohRos2
