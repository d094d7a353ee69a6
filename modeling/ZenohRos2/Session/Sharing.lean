import ZenohRos2.Session.Opening

/-! The order of the frames that tasks write on a shared session.

A task takes its number behind one lock, and writes the frame behind another.
Between the two any other task may pass it by.
-/

set_option autoImplicit false

namespace ZenohRos2.Zenoh
open Rust Tasks

abbrev Task := Program Request.Reply (Outcome Error Unit)

def Operation.task [Target] (buffers : Buffers) (operation : Operation) : Task := operation.call buffers

abbrev Shared := Pool Request.Reply Session (Outcome Error Unit)

/-- The frame that a task writes next, or waits for the link to write. -/
def pendingFrame {α : Type} : Program Request.Reply α → Option Bytes
  | .call (.write frame) _ => some frame
  | .call .lockLink rest => pendingFrame (rest ())
  | _ => none

section Order
variable [Target]

def heldNumber {α : Type} (task : Program Request.Reply α) : Option UInt64 := (pendingFrame task).bind frameSn

def Session.numbers (session : Session) : List UInt64 := session.link.written.filterMap frameSn

namespace Shared

def step (buffers : Buffers) (shared : Shared) (move : Move Operation) : Option Shared :=
  Pool.step perform (Operation.task buffers) shared move

def InOrder (shared : Shared) : Prop := shared.state.numbers.Pairwise (· < ·)

instance : DecidablePred InOrder := fun _ => inferInstanceAs (Decidable (List.Pairwise _ _))

/-- What a task may do next for the Frames to stay in order. -/
def Admits (shared : Shared) (task : Nat) : Option Task → Prop
  -- The counter has not come round to 0 again.
  | some (.call .nextSnReliable _) =>
    shared.state.snReliable = 0 → shared.state.numbers = [] ∧ ∀ other ∈ shared.tasks, heldNumber other = none
  -- The least number that is taken enters the link first.
  | some (.call .lockLink rest) => ∀ j < shared.tasks.length, j ≠ task →
    ∀ mine ∈ heldNumber (rest ()), ∀ theirs ∈ shared.tasks[j]?.bind heldNumber, mine < theirs
  | _ => True

def InTurn (shared : Shared) : Move Operation → Prop
  | .spawn _ => True
  | .run task => shared.Admits task shared.tasks[task]?

-- By the members of the two options: there are instances that would go through all 2^64 numbers.
instance decidableBelow (one other : Option UInt64) : Decidable (∀ mine ∈ one, ∀ theirs ∈ other, mine < theirs) :=
  @Option.decidableForallMem _ _ (fun _ => @Option.decidableForallMem _ _ (fun _ => inferInstance) other) one

instance decidableAdmits (shared : Shared) (task : Nat) : (found : Option Task) → Decidable (shared.Admits task found)
  | none => isTrue trivial
  | some (.done _) => isTrue trivial
  | some (.call .nextSnReliable _) => inferInstanceAs (Decidable (_ → _))
  | some (.call .lockLink rest) =>
    @Nat.decidableBallLT shared.tasks.length _ fun j _ =>
      @forall_prop_decidable _ _ _ fun _ => decidableBelow (heldNumber (rest ())) (shared.tasks[j]?.bind heldNumber)
  | some (.call .nextKeyId _) => isTrue trivial
  | some (.call (.setState _) _) => isTrue trivial
  | some (.call .unlockLink _) => isTrue trivial
  | some (.call (.write _) _) => isTrue trivial
  | some (.call (.read _) _) => isTrue trivial

instance decidableInTurn (shared : Shared) : (move : Move Operation) → Decidable (shared.InTurn move)
  | .spawn _ => isTrue trivial
  | .run task => decidableAdmits shared task shared.tasks[task]?

end Shared

section Frames

theorem frameSn_frameHeaderBytes (sn : UInt64) (body : Bytes) :
    frameSn (frameHeaderBytes sn true ++ body) = some sn := by
  have short := vbyte_length_le sn
  have large := le_usizeSize
  have decoded := (computes_decodeVbyte (vbyte sn ++ body)).found (sn, 0 + (vbyte sn).length) (VbyteAt.of_drop rfl)
  let first : UInt8 := transportId.frame ||| flagIf true frameFlag.r
  have read : readVbyte (first :: (vbyte sn ++ body)) 1 = .ok (sn, 1 + (0 + (vbyte sn).length)) := by
    rw [readVbyte, sliceFrom_eq (by simp), Outcome.ok_bind, List.drop_one, List.tail_cons, decoded, Outcome.ok_bind]
    change (usizeAdd 1 (0 + (vbyte sn).length) >>= fun pos => Outcome.ok (sn, pos)) = _
    rw [usizeAdd_eq (by omega), Outcome.ok_bind]
  change frameSn (first :: (vbyte sn ++ body)) = some sn
  have header : (index (first :: (vbyte sn ++ body)) 0 : Outcome TransportError UInt8) = .ok first := rfl
  have kind : messageId first = transportId.frame := by decide
  have plain : hasFlag first frameFlag.z = false := by decide
  simp only [frameSn, decodeFrameHeader, List.isEmpty_cons, Bool.false_eq_true, if_false, header, Outcome.ok_bind, kind,
    ne_eq, not_true_eq_false, read, plain]
  rfl

theorem encodeMessage_number {size : Nat} {sn : UInt64} {message : WireEncoder} {frame : Bytes}
    (array : size ≤ isizeMax) (encoded : encodeMessage size sn message = .ok frame) : frameSn frame = some sn := by
  have addressable : Addressable (List.replicate size (0 : UInt8)) := by
    unfold Addressable
    rwa [List.length_replicate]
  obtain ⟨⟨pos, buf⟩, begun, encoded⟩ := Outcome.bind_eq_ok.mp encoded
  obtain ⟨⟨_, cursor⟩, called, sliced⟩ := Outcome.bind_eq_ok.mp encoded
  have begun := Outcome.mapErr_eq_ok.mp begun
  rw [encodes_encodeFrameHeader sn true _ addressable] at begun
  split at begun
  · cases begun
    obtain ⟨rest, _, called⟩ := Outcome.bind_eq_ok.mp (Outcome.mapErr_eq_ok.mp called)
    obtain ⟨⟨count, tail⟩, _, called⟩ := Outcome.bind_eq_ok.mp called
    obtain ⟨stop, added, called⟩ := Outcome.bind_eq_ok.mp called
    cases called
    obtain ⟨-, rfl⟩ := usizeAdd_eq_ok.mp added
    obtain ⟨-, rfl⟩ := sliceRange_eq_ok.mp sliced
    simp only [List.take_left, List.drop_zero, List.take_length_add_append]
    exact frameSn_frameHeaderBytes sn _
  · cases begun

end Frames
section Programs
variable {α β : Type}

/-- A program writes a Frame with the number that it took last, and takes another one for the next.
It writes and reads while it holds the link. -/
inductive Numbered {α : Type} : Option UInt64 → Bool → Call α → Prop where
  | returned (value : α) : Numbered none false (.done (.ok value))
  -- The number is lost.
  | failed {number : Option UInt64} (error : Error) : Numbered number false (.done (.err error))
  | panicked {number : Option UInt64} (fault : Fault) : Numbered number false (.done (.panic fault))
  | nextKeyId {rest : UInt16 → Call α} :
    (∀ keyId, Numbered none false (rest keyId)) → Numbered none false (.call .nextKeyId rest)
  | nextSnReliable {rest : UInt64 → Call α} :
    (∀ sn, Numbered (some sn) false (rest sn)) → Numbered none false (.call .nextSnReliable rest)
  | setState {holds : Bool} {state : SessionState} {rest : Unit → Call α} :
    Numbered none holds (rest ()) → Numbered none holds (.call (.setState state) rest)
  | lockLink {number : Option UInt64} {rest : Unit → Call α} :
    Numbered number true (rest ()) → Numbered number false (.call .lockLink rest)
  | unlockLink {rest : Unit → Call α} : Numbered none false (rest ()) → Numbered none true (.call .unlockLink rest)
  | write {frame : Bytes} {rest : Outcome TransportError Unit → Call α} :
    (∀ result, Numbered none true (rest result)) → Numbered (frameSn frame) true (.call (.write frame) rest)
  | read {cap : Nat} {rest : Outcome TransportError Bytes → Call α} :
    (∀ result, Numbered none true (rest result)) → Numbered none true (.call (.read cap) rest)

theorem Numbered.holds_of_write {number : Option UInt64} {holds : Bool} {frame : Bytes}
    {rest : Outcome TransportError Unit → Call α} (numbered : Numbered number holds (.call (.write frame) rest)) :
    holds = true := by
  cases numbered
  rfl

theorem numbered_lift (result : Outcome Error α) : Numbered none false (Async.lift result) := by
  cases result with
  | ok value => exact .returned value
  | err error => exact .failed error
  | panic fault => exact .panicked fault

theorem Numbered.bind {number : Option UInt64} {holds : Bool} {first : Call α} {next : α → Call β}
    (one : Numbered number holds first) (two : ∀ value, Numbered none false (next value)) :
    Numbered number holds (first >>= next) := by
  change Numbered number holds (Program.bind first _)
  induction one with
  | returned value => exact two value
  | failed error => exact .failed error
  | panicked fault => exact .panicked fault
  | nextKeyId _ ih => exact .nextKeyId ih
  | nextSnReliable _ ih => exact .nextSnReliable ih
  | setState _ ih => exact .setState ih
  | lockLink _ ih => exact .lockLink ih
  | unlockLink _ ih => exact .unlockLink ih
  | write _ ih => exact .write ih
  | read _ ih => exact .read ih

theorem Numbered.heldNumber_eq {number : Option UInt64} {holds : Bool} {task : Call α}
    (numbered : Numbered number holds task) : heldNumber task = none ∨ heldNumber task = number := by
  induction numbered with
  | lockLink _ ih => exact ih
  | write => exact .inr rfl
  | _ => exact .inl rfl

theorem Numbered.heldNumber_none {holds : Bool} {task : Call α} (numbered : Numbered none holds task) :
    heldNumber task = none := numbered.heldNumber_eq.elim id id

theorem numbered_writeFrame (frame : Bytes) : Numbered (frameSn frame) false (withLink (writeFrame frame)) :=
  .lockLink (.write fun result => .unlockLink (numbered_lift (result.mapErr .transport)))

theorem numbered_sendMessage (buffers : Buffers) (message : WireEncoder) :
    Numbered none false (sendMessage buffers message) := by
  refine .nextSnReliable fun sn => ?_
  change Numbered (some sn) false (Async.lift (encodeMessage buffers.txBuf sn message) >>= fun frame =>
    withLink (writeFrame frame))
  cases encoded : encodeMessage buffers.txBuf sn message with
  | ok frame =>
    rw [← encodeMessage_number buffers.arrays.1 encoded]
    exact numbered_writeFrame frame
  | err error => exact .failed error
  | panic fault => exact .panicked fault

theorem numbered_declareKeyExpr (buffers : Buffers) (keyExpr : String) :
    Numbered none false (declareKeyExpr buffers keyExpr) :=
  .nextKeyId fun keyId => (numbered_sendMessage buffers _).bind fun _ => .returned keyId

theorem numbered_call (buffers : Buffers) (operation : Operation) : Numbered none false (operation.call buffers) := by
  cases operation with
  | put keyExpr payload => exact numbered_sendMessage buffers _
  | putWithAttachment keyExpr payload seqNum timestampNs gid => exact numbered_sendMessage buffers _
  | declareKeyExpr keyExpr => exact (numbered_declareKeyExpr buffers keyExpr).bind fun _ => .returned ()
  | subscribe keyExpr =>
    refine Numbered.bind ?_ fun _ => .returned ()
    exact (numbered_declareKeyExpr buffers keyExpr).bind fun keyId =>
      (numbered_sendMessage buffers _).bind fun _ => .returned keyId
  -- A KeepAlive and a Close carry no number.
  | keepalive =>
    change Numbered (frameSn keepaliveFrame) false keepalive
    rw [keepalive_eq]
    exact numbered_writeFrame keepaliveFrame
  | recvOnce cap =>
    have received : Numbered none false (withLink (readFrame cap)) :=
      .lockLink (.read fun result => .unlockLink (numbered_lift (result.mapErr .transport)))
    exact (received.bind fun msgBuf => numbered_lift (readMessage msgBuf)).bind fun _ => .returned ()
  | close =>
    change Numbered none false close
    rw [close_eq]
    refine .setState (.lockLink ?_)
    change Numbered (frameSn closeFrame) true _
    refine .write fun result => ?_
    cases result with
    | ok _ => exact .setState (.unlockLink (.returned ()))
    | err error => exact .unlockLink (.failed (.transport error))
    | panic fault => exact .unlockLink (.panicked fault)

end Programs

/-- What a task holds is behind the Frames on the link, and in front of the counter. At 0 the counter
has not moved yet, or it has come round. -/
structure Fits (session : Session) (task : Task) : Prop where
  numbered : ∃ number holds, Numbered number holds task
  counted : session.snReliable ≠ 0 → ∀ held, heldNumber task = some held → held < session.snReliable
  behind : ∀ n ∈ session.numbers, ∀ held, heldNumber task = some held → n < held

/-- What the second task holds comes behind what the first one is writing. -/
def GoesFirst (task other : Task) : Prop :=
  ∀ (frame : Bytes) (rest : Outcome TransportError Unit → Task) (mine theirs : UInt64),
    task = .call (.write frame) rest → frameSn frame = some mine → heldNumber other = some theirs → mine < theirs

section Free
variable {task : Task} {holds : Bool}

theorem Numbered.fits (numbered : Numbered none holds task) (session : Session) : Fits session task where
  numbered := ⟨_, _, numbered⟩
  counted _ held holds := by
    rw [numbered.heldNumber_none] at holds
    cases holds
  behind n _ held holds := by
    rw [numbered.heldNumber_none] at holds
    cases holds

theorem Numbered.apart (numbered : Numbered none holds task) (other : Task) :
    GoesFirst task other ∧ GoesFirst other task := by
  have free := numbered.heldNumber_none
  constructor
  · rintro frame rest mine theirs rfl number -
    have same : heldNumber (Program.call (.write frame) rest : Task) = frameSn frame := rfl
    rw [same, number] at free
    cases free
  · intro frame rest mine theirs _ _ taken
    rw [free] at taken
    cases taken

end Free

namespace Shared
variable {shared next : Shared}

structure Orderly (shared : Shared) : Prop where
  sorted : shared.InOrder
  below : shared.state.snReliable ≠ 0 → ∀ n ∈ shared.state.numbers, n < shared.state.snReliable
  fits : ∀ task ∈ shared.tasks, Fits shared.state task
  apart : Apart GoesFirst shared.tasks

theorem Orderly.spawn (orderly : shared.Orderly) (buffers : Buffers) (operation : Operation) :
    Orderly ⟨shared.state, shared.tasks ++ [operation.task buffers]⟩ := by
  have numbered : Numbered none false (operation.task buffers) := numbered_call buffers operation
  refine ⟨orderly.sorted, orderly.below, fun task member => ?_, orderly.apart.snoc fun other _ => numbered.apart other⟩
  rcases List.mem_append.mp member with old | new
  · exact orderly.fits task old
  · rw [List.mem_singleton.mp new]
    exact numbered.fits shared.state

section Step
variable {i : Nat} {old new : Task} {session : Session}

theorem Orderly.replace (orderly : shared.Orderly) (numbers : session.numbers = shared.state.numbers)
    (counter : session.snReliable = shared.state.snReliable) (fits : Fits shared.state new)
    (apart : ∀ (j : Nat) (other : Task), j ≠ i → shared.tasks[j]? = some other →
      GoesFirst new other ∧ GoesFirst other new) : Orderly ⟨session, shared.tasks.set i new⟩ := by
  have same {task : Task} (fits : Fits shared.state task) : Fits session task :=
    ⟨fits.numbered, by rw [counter]; exact fits.counted, by rw [numbers]; exact fits.behind⟩
  refine ⟨?_, ?_, ?_, orderly.apart.set apart⟩
  · change session.numbers.Pairwise (· < ·)
    rw [numbers]
    exact orderly.sorted
  · simp only [numbers, counter]
    exact orderly.below
  · intro task among
    rcases eq_or_other_of_mem_set among with rfl | ⟨j, -, here⟩
    · exact same fits
    · exact same (orderly.fits task (List.mem_of_getElem? here))

theorem Orderly.replace_free {holds : Bool} (orderly : shared.Orderly)
    (numbers : session.numbers = shared.state.numbers) (counter : session.snReliable = shared.state.snReliable)
    (numbered : Numbered none holds new) : Orderly ⟨session, shared.tasks.set i new⟩ :=
  orderly.replace numbers counter (numbered.fits _) fun _ other _ _ => numbered.apart other

theorem Orderly.enter {number : Option UInt64} {rest : Unit → Task} (orderly : shared.Orderly)
    (numbers : session.numbers = shared.state.numbers) (counter : session.snReliable = shared.state.snReliable)
    (found : shared.tasks[i]? = some (.call .lockLink rest)) (inTurn : shared.InTurn (.run i))
    (numbered : Numbered number true (rest ())) : Orderly ⟨session, shared.tasks.set i (rest ())⟩ := by
  rw [InTurn, found] at inTurn
  have fits := orderly.fits _ (List.mem_of_getElem? found)
  apply orderly.replace numbers counter ⟨⟨_, _, numbered⟩, fits.counted, fits.behind⟩
  intro j other distinct here
  refine ⟨?_, ?_⟩
  · intro frame tail mine theirs writing own taken
    refine inTurn j (List.getElem?_eq_some_iff.mp here).1 distinct mine ?_ theirs ?_
    · rw [writing]
      exact own
    · rw [here]
      exact taken
  · intro frame tail mine theirs writing own
    exact orderly.apart j i other _ distinct here found frame tail mine theirs writing own

omit [Target] in
theorem lt_succ_of_ne_zero {sn : UInt64} (moved : sn + 1 ≠ 0) : sn < sn + 1 := by
  have last : (sn + 1).toNat ≠ 0 := fun zero => moved (UInt64.toNat_inj.mp zero)
  have bound := sn.toNat_lt
  rw [UInt64.lt_iff_toNat_lt]
  rw [UInt64.toNat_add] at last ⊢
  change (_ + 1) % _ ≠ 0 at last
  change _ < (_ + 1) % _
  omega

theorem Orderly.take {rest : UInt64 → Task} (orderly : shared.Orderly)
    (found : shared.tasks[i]? = some (.call .nextSnReliable rest)) (inTurn : shared.InTurn (.run i))
    (numbered : Numbered (some shared.state.snReliable) false (rest shared.state.snReliable)) :
    Orderly ⟨{ shared.state with snReliable := shared.state.snReliable + 1 },
      shared.tasks.set i (rest shared.state.snReliable)⟩ := by
  rw [InTurn, found] at inTurn
  -- At 0 the counter is new, or it has come round, which `inTurn` keeps to an empty link.
  have below : ∀ n ∈ shared.state.numbers, n < shared.state.snReliable := by
    intro n onLink
    by_cases zero : shared.state.snReliable = 0
    · rw [(inTurn zero).1] at onLink
      cases onLink
    · exact orderly.below zero n onLink
  have under {task : Task} (member : task ∈ shared.tasks) {held : UInt64} (taken : heldNumber task = some held) :
      held < shared.state.snReliable := by
    by_cases zero : shared.state.snReliable = 0
    · rw [(inTurn zero).2 task member] at taken
      cases taken
    · exact (orderly.fits task member).counted zero held taken
  have own {held : UInt64} (taken : heldNumber (rest shared.state.snReliable) = some held) :
      held = shared.state.snReliable := by
    rcases numbered.heldNumber_eq with free | same
    · rw [free] at taken
      cases taken
    · rw [same] at taken
      exact (Option.some.inj taken).symm
  refine ⟨orderly.sorted, fun moved n onLink => UInt64.lt_trans (below n onLink) (lt_succ_of_ne_zero moved), ?_, ?_⟩
  · intro task among
    rcases eq_or_other_of_mem_set among with rfl | ⟨j, -, here⟩
    · exact ⟨⟨_, _, numbered⟩, fun moved held taken => by rw [own taken]; exact lt_succ_of_ne_zero moved,
        fun n onLink held taken => by rw [own taken]; exact below n onLink⟩
    · have member := List.mem_of_getElem? here
      exact ⟨(orderly.fits task member).numbered,
        fun moved held taken => UInt64.lt_trans (under member taken) (lt_succ_of_ne_zero moved),
        (orderly.fits task member).behind⟩
  · refine orderly.apart.set fun j other distinct here => ⟨?_, ?_⟩
    · intro frame tail mine theirs writing
      rw [writing] at numbered
      cases numbered.holds_of_write
    · intro frame tail mine theirs writing number taken
      rw [own taken]
      apply under (List.mem_of_getElem? here)
      rw [writing]
      exact number

theorem Orderly.wrote {frame : Bytes} {rest : Outcome TransportError Unit → Task} (orderly : shared.Orderly)
    (found : shared.tasks[i]? = some (.call (.write frame) rest))
    (numbered : ∀ result, Numbered none true (rest result)) :
    Orderly ⟨{ shared.state with link := (shared.state.link.write frame).2 },
      shared.tasks.set i (rest (shared.state.link.write frame).1)⟩ := by
  let after : Session := { shared.state with link := (shared.state.link.write frame).2 }
  have quiet (same : after.numbers = shared.state.numbers) :
      Orderly ⟨after, shared.tasks.set i (rest (shared.state.link.write frame).1)⟩ :=
    orderly.replace_free same rfl (numbered (shared.state.link.write frame).1)
  by_cases takes : shared.state.link.Takes frame
  · have appended : after.numbers = shared.state.numbers ++ [frame].filterMap frameSn := by
      change (if _ then _ else _ : List Bytes).filterMap frameSn = _
      rw [if_pos takes, List.filterMap_append]
      rfl
    -- A frame of its own has no number, so the order is not touched.
    cases number : frameSn frame with
    | none => exact quiet (by rw [appended, List.filterMap_cons_none number, List.filterMap_nil, List.append_nil])
    | some mine =>
      rw [List.filterMap_cons_some number, List.filterMap_nil] at appended
      have own := orderly.fits _ (List.mem_of_getElem? found)
      refine ⟨?_, ?_, ?_, orderly.apart.set fun j other _ _ => (numbered _).apart other⟩
      · change after.numbers.Pairwise (· < ·)
        rw [appended, List.pairwise_append]
        refine ⟨orderly.sorted, List.pairwise_singleton _ _, fun n onLink last new => ?_⟩
        rw [List.mem_singleton.mp new]
        exact own.behind n onLink mine number
      · change _ → ∀ n ∈ after.numbers, _
        rw [appended]
        intro moved n onLink
        rcases List.mem_append.mp onLink with before | new
        · exact orderly.below moved n before
        · rw [List.mem_singleton.mp new]
          exact own.counted moved mine number
      · intro task among
        rcases eq_or_other_of_mem_set among with rfl | ⟨j, distinct, here⟩
        · exact (numbered _).fits _
        · have fits := orderly.fits task (List.mem_of_getElem? here)
          refine ⟨fits.numbered, fits.counted, ?_⟩
          change ∀ n ∈ after.numbers, _
          rw [appended]
          intro n onLink held taken
          rcases List.mem_append.mp onLink with before | new
          · exact fits.behind n before held taken
          · rw [List.mem_singleton.mp new]
            exact orderly.apart i j _ task (Ne.symm distinct) found here frame rest mine held rfl number taken
  · apply quiet
    change (if _ then _ else _ : List Bytes).filterMap frameSn = _
    rw [if_neg takes]
    rfl

end Step

theorem Orderly.step {buffers : Buffers} {move : Move Operation} (orderly : shared.Orderly)
    (stepped : shared.step buffers move = some next) (inTurn : shared.InTurn move) : next.Orderly := by
  cases move with
  | spawn operation =>
    cases stepped
    exact orderly.spawn buffers operation
  | run i =>
    obtain ⟨request, rest, reply, session, found, answered, rfl⟩ := Pool.step_run stepped
    obtain ⟨number, holds, numbered⟩ := (orderly.fits _ (List.mem_of_getElem? found)).numbered
    cases numbered with
    | nextKeyId each =>
      cases answered
      exact orderly.replace_free rfl rfl (each _)
    | nextSnReliable each =>
      cases answered
      exact orderly.take found inTurn (each _)
    | setState next =>
      cases answered
      exact orderly.replace_free rfl rfl next
    | lockLink inside =>
      simp only [perform] at answered
      split at answered
      · cases answered
      · cases answered
        exact orderly.enter rfl rfl found inTurn inside
    | unlockLink next =>
      cases answered
      exact orderly.replace_free rfl rfl next
    | write each =>
      cases answered
      exact orderly.wrote found each
    | read each =>
      cases answered
      exact orderly.replace_free rfl rfl (each _)

theorem run_alone {buffers : Buffers} {operation : Operation} {session after : Session} {result : Outcome Error Unit}
    (ran : Async.run perform (operation.call buffers) session = some (result, after)) :
    Machine.Run (step buffers) (fun _ _ => True) ⟨session, []⟩ ⟨after, [.done result]⟩ :=
  .head ⟨.spawn operation, trivial, rfl⟩ (Program.run_alone 0 ran rfl)

/-- However the tasks take turns, the Frames on the link are in order, if each task enters the link with
the least number that is taken and not written. -/
theorem inOrder_of_inTurn (buffers : Buffers) (transport : Transport) (config : SessionConfig) (session : Session)
    (opened : Session.opened buffers transport config = some (.ok session)) (moves : List (Move Operation))
    (inTurn : Machine.Meets (step buffers) InTurn ⟨session, []⟩ moves) :
    Machine.Always (step buffers) InOrder ⟨session, []⟩ moves := by
  have fresh := Session.fresh_of_opened opened
  have numbers : session.numbers = [] := fresh.numbers
  refine Machine.always_of_meets Orderly.step Orderly.sorted ⟨?_, ?_, nofun, nofun⟩ inTurn
  · change session.numbers.Pairwise (· < ·)
    rw [numbers]
    exact .nil
  · intro moved
    exact absurd fresh.snReliable moved

omit [Target] in
/-- Two publications, of which the second takes its number before the first is written. -/
theorem inOrder_of_inTurn_two :
    letI := target64
    let buffers : Buffers := ⟨512, 4096, le_isizeMax (by decide), le_isizeMax (by decide)⟩
    let config : SessionConfig := ⟨ZenohId.fromBytes [7], 0⟩
    let moves : List (Move Operation) :=
      [.spawn (.put "a" []), .spawn (.put "b" []), .run 0, .run 1, .run 0, .run 0, .run 0, .run 1, .run 1]
    ∃ session, Session.opened buffers .accepting config = some (.ok session) ∧
      Machine.Always (step buffers) InOrder ⟨session, []⟩ moves := by
  intro buffers config moves
  let := target64
  obtain ⟨session, opened, inTurn⟩ : ∃ session, Session.opened buffers .accepting config = some (.ok session) ∧
      Machine.Meets (step buffers) InTurn ⟨session, []⟩ moves := Session.exists_opened (by decide +kernel)
  exact ⟨session, opened, inOrder_of_inTurn buffers .accepting config session opened moves inTurn⟩

omit [Target] in
/-- The second publication overtakes the first one on its way to the link. -/
theorem number_overtaken :
    letI := target64
    let buffers : Buffers := ⟨512, 4096, le_isizeMax (by decide), le_isizeMax (by decide)⟩
    let config : SessionConfig := ⟨ZenohId.fromBytes [7], 0⟩
    let moves : List (Move Operation) :=
      [.spawn (.put "a" []), .spawn (.put "b" []), .run 0, .run 1, .run 1, .run 1, .run 1, .run 0, .run 0]
    ∃ session, Session.opened buffers .accepting config = some (.ok session) ∧
      ((Machine.execute (step buffers) (fun _ _ => True) moves ⟨session, []⟩).map fun shared =>
          shared.state.numbers) = some [1, 0] ∧
        ¬Machine.Always (step buffers) InOrder ⟨session, []⟩ moves := by
  intro buffers config moves
  let := target64
  exact Session.exists_opened (by decide +kernel)

end Shared

end Order
end ZenohRos2.Zenoh
