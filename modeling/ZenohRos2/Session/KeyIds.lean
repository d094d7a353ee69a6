import ZenohRos2.Lib.Counter
import ZenohRos2.Session.Opening

/-! The key ids of a session, which its tasks take from one counter.

A task takes its id when it starts, and returns it after its declarations are
written. No method takes a declaration back, so that every id that was returned
stays in force. The counter wraps, and then gives out 0 and the first ids again.
-/

set_option autoImplicit false

namespace ZenohRos2.Zenoh
open Rust Tasks

section Programs
variable {α β : Type}

/-- A program takes one key id at most, this one if it has, and returns values like these. -/
inductive Keyed {α : Type} (returns : Option UInt16 → α → Prop) : Option UInt16 → Call α → Prop where
  | returned {keyId : Option UInt16} {value : α} : returns keyId value → Keyed returns keyId (.done (.ok value))
  | failed {keyId : Option UInt16} (error : Error) : Keyed returns keyId (.done (.err error))
  | panicked {keyId : Option UInt16} (fault : Fault) : Keyed returns keyId (.done (.panic fault))
  | nextKeyId {rest : UInt16 → Call α} :
    (∀ keyId, Keyed returns (some keyId) (rest keyId)) → Keyed returns none (.call .nextKeyId rest)
  | other {keyId : Option UInt16} {request : Request} {rest : request.Reply → Call α} :
    request ≠ .nextKeyId → (∀ reply, Keyed returns keyId (rest reply)) → Keyed returns keyId (.call request rest)

abbrev Unkeyed (keyId : Option UInt16) (call : Call α) : Prop := Keyed (fun after _ => after = keyId) keyId call

variable {returns : Option UInt16 → α → Prop} {keyId : Option UInt16}

theorem Keyed.bind {out : Option UInt16 → β → Prop} {first : Call α} {next : α → Call β}
    (one : Keyed returns keyId first) (two : ∀ keyId value, returns keyId value → Keyed out keyId (next value)) :
    Keyed out keyId (first >>= next) := by
  change Keyed out keyId (Program.bind first _)
  induction one with
  | returned met => exact two _ _ met
  | failed error => exact .failed error
  | panicked fault => exact .panicked fault
  | nextKeyId _ ih => exact .nextKeyId ih
  | other differs _ ih => exact .other differs ih

theorem Unkeyed.bind {out : Option UInt16 → β → Prop} {first : Call α} {next : α → Call β}
    (one : Unkeyed keyId first) (two : ∀ value, Keyed out keyId (next value)) : Keyed out keyId (first >>= next) :=
  Keyed.bind one fun _ value same => same ▸ two value

theorem unkeyed_lift (result : Outcome Error α) : Unkeyed keyId (Async.lift result) := by
  cases result with
  | ok value => exact .returned rfl
  | err error => exact .failed error
  | panic fault => exact .panicked fault

theorem unkeyed_ask {request : Request} (differs : request ≠ .nextKeyId) : Unkeyed keyId (ask request) :=
  .other differs fun _ => .returned rfl

theorem Keyed.withLink {body : Call α} (keyed : Keyed returns keyId body) : Keyed returns keyId (withLink body) := by
  refine .other nofun fun _ => ?_
  induction keyed with
  | returned met => exact .other nofun fun _ => .returned met
  | failed error => exact .other nofun fun _ => .failed error
  | panicked fault => exact .other nofun fun _ => .panicked fault
  | nextKeyId _ ih => exact .nextKeyId ih
  | other differs _ ih => exact .other differs ih

theorem unkeyed_writeFrame (frame : Bytes) : Unkeyed keyId (writeFrame frame) :=
  Unkeyed.bind (unkeyed_ask nofun) fun _ => unkeyed_lift _

theorem unkeyed_readFrame (cap : Nat) : Unkeyed keyId (readFrame cap) :=
  Unkeyed.bind (unkeyed_ask nofun) fun _ => unkeyed_lift _

end Programs

theorem nextKeyId_perform {request : Request} {session after : Session} {reply : request.Reply}
    (differs : request ≠ .nextKeyId) (answered : perform request session = some (reply, after)) :
    after.nextKeyId = session.nextKeyId := by
  cases request with
  | nextKeyId => exact absurd rfl differs
  | lockLink =>
    simp only [perform] at answered
    split at answered
    · cases answered
    · cases answered
      rfl
  | _ =>
    cases answered
    rfl

theorem Keyed.keeps {α : Type} {returns : Option UInt16 → α → Prop} {keyId : Option UInt16} {call : Call α}
    {session after : Session} {result : Outcome Error α} (keyed : Keyed returns keyId call) (asked : keyId ≠ none)
    (ran : Async.run perform call session = some (result, after)) : after.nextKeyId = session.nextKeyId := by
  induction keyed generalizing session with
  | returned met =>
    cases ran
    rfl
  | failed error =>
    cases ran
    rfl
  | panicked fault =>
    cases ran
    rfl
  | nextKeyId _ ih => exact absurd rfl asked
  | other differs _ ih =>
    obtain ⟨⟨reply, between⟩, answered, rest⟩ := Option.bind_eq_some_iff.mp ran
    exact (ih reply asked rest).trans (nextKeyId_perform differs answered)

section Operations
variable [Target] (buffers : Buffers)

def Operation.keyId : Operation → Call (Option UInt16)
  | .declareKeyExpr keyExpr => do return some (← Zenoh.declareKeyExpr buffers keyExpr)
  | .subscribe keyExpr => do return some (← Zenoh.subscribe buffers keyExpr)
  | operation => do
    operation.call buffers
    return none

abbrev KeyedTask (keyId : Option UInt16) (task : Call (Option UInt16)) : Prop :=
  Keyed (fun taken returned => returned = taken) keyId task

theorem unkeyed_sendMessage {keyId : Option UInt16} (message : WireEncoder) :
    Unkeyed keyId (sendMessage buffers message) :=
  Unkeyed.bind (unkeyed_ask nofun) fun _ => (unkeyed_lift _).bind fun frame => (unkeyed_writeFrame frame).withLink

theorem unkeyed_doHandshake {keyId : Option UInt16} (config : SessionConfig) :
    Unkeyed keyId (doHandshake buffers config) := by
  refine Unkeyed.bind (unkeyed_ask nofun) fun _ => Unkeyed.bind (Keyed.withLink ?_) fun _ =>
    Unkeyed.bind (unkeyed_ask nofun) fun _ => .returned rfl
  refine Unkeyed.bind (unkeyed_lift _) fun _ => (unkeyed_writeFrame _).bind fun _ => (unkeyed_readFrame _).bind
    fun received => Unkeyed.bind (unkeyed_lift _) fun (initAck, _) => ?_
  change Keyed _ _ (if initAck.version ≠ protoVersion then _ else _)
  split
  · exact unkeyed_lift _
  · exact Unkeyed.bind (unkeyed_lift _) fun _ => (unkeyed_writeFrame _).bind fun _ => (unkeyed_readFrame _).bind
      fun _ => Unkeyed.bind (unkeyed_lift _) fun _ => .returned rfl

theorem keyed_declareKeyExpr (keyExpr : String) :
    Keyed (fun taken keyId => taken = some keyId) none (declareKeyExpr buffers keyExpr) :=
  .nextKeyId fun _ => (unkeyed_sendMessage buffers _).bind fun _ => .returned rfl

theorem unkeyed_call {operation : Operation} (declares : ∀ keyExpr, operation ≠ .declareKeyExpr keyExpr)
    (subscribes : ∀ keyExpr, operation ≠ .subscribe keyExpr) : Unkeyed none (operation.call buffers) := by
  cases operation with
  | put keyExpr payload => exact unkeyed_sendMessage buffers _
  | putWithAttachment keyExpr payload seqNum timestampNs gid => exact unkeyed_sendMessage buffers _
  | declareKeyExpr keyExpr => exact absurd rfl (declares keyExpr)
  | subscribe keyExpr => exact absurd rfl (subscribes keyExpr)
  | keepalive =>
    change Unkeyed none keepalive
    rw [keepalive_eq]
    exact (unkeyed_writeFrame keepaliveFrame).withLink
  | recvOnce cap =>
    refine Unkeyed.bind (Unkeyed.bind (unkeyed_readFrame cap).withLink fun msgBuf => ?_) fun _ => .returned rfl
    exact unkeyed_lift (readMessage msgBuf)
  | close =>
    change Unkeyed none close
    rw [close_eq]
    refine Unkeyed.bind (unkeyed_ask nofun) fun _ => Keyed.withLink ?_
    have disconnects : Unkeyed none (ask (.setState .disconnected)) := unkeyed_ask nofun
    exact (unkeyed_writeFrame closeFrame).bind fun _ => disconnects

theorem keyedTask_keyId (operation : Operation) : KeyedTask none (operation.keyId buffers) := by
  have none {operation : Operation} (unkeyed : Unkeyed none (operation.call buffers)) :
      KeyedTask none (operation.call buffers >>= fun _ => pure none) := unkeyed.bind fun _ => .returned rfl
  cases operation with
  | declareKeyExpr keyExpr => exact (keyed_declareKeyExpr buffers keyExpr).bind fun _ _ taken => .returned taken.symm
  | subscribe keyExpr =>
    refine Keyed.bind ((keyed_declareKeyExpr buffers keyExpr).bind fun taken keyId same => ?_)
      fun _ _ taken => .returned (taken : _ = _).symm
    exact (unkeyed_sendMessage buffers _).bind fun _ => .returned same
  | put keyExpr payload => exact none (unkeyed_call buffers nofun nofun)
  | putWithAttachment keyExpr payload seqNum timestampNs gid => exact none (unkeyed_call buffers nofun nofun)
  | keepalive => exact none (unkeyed_call buffers nofun nofun)
  | recvOnce cap => exact none (unkeyed_call buffers nofun nofun)
  | close => exact none (unkeyed_call buffers nofun nofun)

variable {buffers}

theorem Session.nextKeyId_of_opened {transport : Transport} {config : SessionConfig} {session : Session}
    (opened : Session.opened buffers transport config = some (.ok session)) : session.nextKeyId = 1 := by
  obtain ⟨⟨result, after⟩, ran, same⟩ := Option.map_eq_some_iff.mp opened
  cases result with
  | err error => cases same
  | panic fault => cases same
  | ok result =>
    cases same
    have unkeyed : Unkeyed (some 0) (doHandshake buffers config) := unkeyed_doHandshake buffers config
    exact Keyed.keeps unkeyed (Option.some_ne_none 0) ran

end Operations

abbrev KeyTask := Program Request.Reply (Outcome Error (Option UInt16))

abbrev KeyPool := Pool Request.Reply Session (Outcome Error (Option UInt16))

def asksKeyId : Option KeyTask → Bool
  | some (.call .nextKeyId _) => true
  | _ => false

def returnedKeyId : Option KeyTask → Option UInt16
  | some (.done (.ok keyId)) => keyId
  | _ => none

/-- The tasks of a session, with a book of the key ids. -/
structure Declaring where
  pool : KeyPool
  /-- How many key ids were taken. -/
  taken : Nat
  /-- How many were taken before that of a task. -/
  place : Nat → Nat
  /-- The key ids that calls returned. -/
  granted : Counter.Ledger UInt16

namespace Declaring

def start (session : Session) : Declaring := ⟨⟨session, []⟩, 0, fun _ => 0, []⟩

def placeOf (declaring : Declaring) (task : Nat) : Nat :=
  if asksKeyId declaring.pool.tasks[task]? then declaring.taken else declaring.place task

def after (declaring : Declaring) (task : Nat) (pool : KeyPool) : Declaring where
  pool := pool
  taken := if asksKeyId declaring.pool.tasks[task]? then declaring.taken + 1 else declaring.taken
  place := Function.update declaring.place task (declaring.placeOf task)
  granted := declaring.granted ++ (returnedKeyId pool.tasks[task]?).toList.map fun keyId =>
    (declaring.placeOf task, keyId)

section Steps
variable [Target] (buffers : Buffers)

def step (declaring : Declaring) (move : Move Operation) : Option Declaring :=
  (Pool.step perform (Operation.keyId buffers) declaring.pool move).map fun pool =>
    match move with
    | .spawn _ => { declaring with pool := pool }
    | .run task => declaring.after task pool

/-- No call returns 0 or the key id of another one, nor any when all of them are in force. -/
def Proper (declaring : Declaring) : Prop := Counter.Proper (2 ^ 16) 0 declaring.granted

/-- A call that returns a key id with its next step took one that had not been returned, and not 0. -/
def FirstTime (declaring : Declaring) : Move Operation → Prop
  | .spawn _ => True
  | .run task => (∃ pool, Pool.step perform (Operation.keyId buffers) declaring.pool (.run task) = some pool ∧
      (returnedKeyId pool.tasks[task]?).isSome) →
    Counter.FirstTime (2 ^ 16) declaring.granted (declaring.placeOf task)

/-- Each task has the id of its place. -/
structure Sound (declaring : Declaring) : Prop where
  counter : declaring.pool.state.nextKeyId = Counter.uint16 declaring.taken
  tasks : ∀ (i : Nat) (task : KeyTask), declaring.pool.tasks[i]? = some task →
    ∃ keyId, KeyedTask keyId task ∧ ∀ taken, keyId = some taken → taken = Counter.uint16 (declaring.place i)
  counted : Counter.Counted Counter.uint16 declaring.granted

variable {buffers} {declaring next : Declaring}

omit [Target] in
theorem asksKeyId_other {request : Request} {rest : request.Reply → KeyTask} (differs : request ≠ .nextKeyId) :
    asksKeyId (some (.call request rest)) = false := by
  cases request with
  | nextKeyId => exact absurd rfl differs
  | _ => rfl

omit [Target] in
theorem returnedKeyId_keyed {keyId : Option UInt16} {task : KeyTask} (keyed : KeyedTask keyId task) {returned : UInt16}
    (found : returnedKeyId (some task) = some returned) : keyId = some returned := by
  cases keyed with
  | returned same => exact same.symm.trans found
  | failed error => cases found
  | panicked fault => cases found
  | nextKeyId each => cases found
  | other differs each => cases found

structure Ran (declaring : Declaring) (task : Nat) (pool : KeyPool) (left : KeyTask) : Prop where
  tasks : pool.tasks = declaring.pool.tasks.set task left
  here : pool.tasks[task]? = some left
  counter : pool.state.nextKeyId = Counter.uint16 (declaring.after task pool).taken
  keyed : ∃ keyId, KeyedTask keyId left ∧ ∀ taken, keyId = some taken → taken = Counter.uint16 (declaring.placeOf task)

theorem Sound.ran (sound : declaring.Sound) {task : Nat} {pool : KeyPool}
    (stepped : Pool.step perform (Operation.keyId buffers) declaring.pool (.run task) = some pool) :
    ∃ left, Ran declaring task pool left := by
  obtain ⟨request, rest, reply, session, found, answered, rfl⟩ := Pool.step_run stepped
  have inside : task < declaring.pool.tasks.length := (List.getElem?_eq_some_iff.mp found).1
  refine ⟨rest reply, rfl, List.getElem?_set_self inside, ?_, ?_⟩
  all_goals obtain ⟨keyId, keyed, own⟩ := sound.tasks task _ found
  · cases keyed with
    | nextKeyId each =>
      cases answered
      simp only [after, found, asksKeyId, if_true, Counter.uint16_succ, ← sound.counter]
    | other differs each =>
      rw [nextKeyId_perform differs answered, sound.counter]
      simp only [after, found, asksKeyId_other differs, Bool.false_eq_true, if_false]
  · cases keyed with
    | nextKeyId each =>
      cases answered
      refine ⟨_, each _, fun taken same => ?_⟩
      cases same
      simp only [placeOf, found, asksKeyId, if_true, ← sound.counter]
    | other differs each =>
      refine ⟨keyId, each reply, fun taken same => ?_⟩
      simp only [placeOf, found, asksKeyId_other differs, Bool.false_eq_true, if_false]
      exact own taken same

omit [Target] in
theorem Ran.returned {task : Nat} {pool : KeyPool} {left : KeyTask}
    (ran : Ran declaring task pool left) {returned : UInt16} (found : returnedKeyId pool.tasks[task]? = some returned) :
    returned = Counter.uint16 (declaring.placeOf task) := by
  obtain ⟨keyId, keyed, own⟩ := ran.keyed
  rw [ran.here] at found
  exact own returned (returnedKeyId_keyed keyed found)

omit [Target] in
theorem Ran.granted {task : Nat} {pool : KeyPool} {left : KeyTask}
    (ran : Ran declaring task pool left) : (declaring.after task pool).granted =
      if (returnedKeyId pool.tasks[task]?).isSome then
        declaring.granted ++ [(declaring.placeOf task, Counter.uint16 (declaring.placeOf task))]
      else declaring.granted := by
  rw [after]
  cases found : returnedKeyId pool.tasks[task]? with
  | none => simp
  | some returned => simp [ran.returned found]

theorem Sound.step {move : Move Operation} (sound : declaring.Sound)
    (stepped : declaring.step buffers move = some next) : next.Sound := by
  obtain ⟨pool, taken, rfl⟩ := Option.map_eq_some_iff.mp stepped
  cases move with
  | spawn operation =>
    cases taken
    refine ⟨sound.counter, fun i task found => ?_, sound.counted⟩
    simp only at found
    rw [List.getElem?_append] at found
    split at found
    · exact sound.tasks i task found
    · have new := List.mem_singleton.mp (List.mem_of_getElem? found)
      exact ⟨none, new ▸ keyedTask_keyId buffers operation, nofun⟩
  | run task =>
    obtain ⟨left, ran⟩ := sound.ran taken
    refine ⟨ran.counter, fun i other found => ?_, ?_⟩
    · by_cases same : i = task
      · subst same
        obtain ⟨keyId, keyed, own⟩ := ran.keyed
        cases ran.here.symm.trans found
        exact ⟨keyId, keyed, by simpa only [after, Function.update_self] using own⟩
      · simp only [after, ran.tasks, List.getElem?_set_ne (Ne.symm same)] at found
        simpa only [after, Function.update_of_ne same] using sound.tasks i other found
    · rw [ran.granted]
      split
      · exact sound.counted.snoc _
      · exact sound.counted

theorem Sound.proper_iff {move : Move Operation} (sound : declaring.Sound) (proper : declaring.Proper)
    (stepped : declaring.step buffers move = some next) : next.Proper ↔ declaring.FirstTime buffers move := by
  obtain ⟨pool, taken, rfl⟩ := Option.map_eq_some_iff.mp stepped
  cases move with
  | spawn operation => exact iff_of_true proper trivial
  | run task =>
    obtain ⟨left, ran⟩ := sound.ran taken
    have only : (∃ pool', Pool.step perform (Operation.keyId buffers) declaring.pool (.run task) = some pool' ∧
        (returnedKeyId pool'.tasks[task]?).isSome) ↔ (returnedKeyId pool.tasks[task]?).isSome := by
      rw [taken]
      simp
    rw [FirstTime, only]
    change Counter.Proper _ _ (declaring.after task pool).granted ↔ _
    rw [ran.granted]
    split
    · rename_i returns
      rw [Counter.Proper.snoc_iff (by decide) Counter.wraps_uint16 sound.counted proper]
      exact ⟨fun first _ => first, fun first => first returns⟩
    · rename_i returns
      exact iff_of_true proper fun some => absurd some returns

theorem proper_iff_firstTime {session : Session} (fresh : session.nextKeyId = 1) (moves : List (Move Operation)) :
    Machine.Always (step buffers) Proper (start session) moves ↔
      Machine.Meets (step buffers) (FirstTime buffers) (start session) moves := by
  refine Machine.always_iff_meets Sound Sound.step Sound.proper_iff ⟨fresh, ?_, ?_⟩ ⟨?_, ?_, ?_⟩
  · exact fun i task found => by cases found
  · exact fun granted member => by cases member
  · exact fun granted member => by cases member
  · exact List.nodup_nil
  · exact Nat.two_pow_pos 16

section Again

theorem exists_alone {task : Nat} {first : KeyTask} {declaring : Declaring} {after : Session}
    {result : Outcome Error (Option UInt16)} (begun : ∀ value, first ≠ .done value)
    (found : declaring.pool.tasks[task]? = some first)
    (ran : Async.run perform first declaring.pool.state = some (result, after)) :
    ∃ moves next, Machine.execute (Declaring.step buffers) (fun _ _ => True) moves declaring = some next ∧
      next.pool = ⟨after, declaring.pool.tasks.set task (.done result)⟩ ∧
      next.granted.map (·.2) = declaring.granted.map (·.2) ++ (returnedKeyId (some (.done result))).toList := by
  -- On the program, one request at a time; nobody else moves in between.
  induction first generalizing declaring with
  | done value => exact absurd rfl (begun value)
  | call request rest ih =>
    obtain ⟨⟨reply, between⟩, answered, rest'⟩ := Option.bind_eq_some_iff.mp ran
    have inside : task < declaring.pool.tasks.length := (List.getElem?_eq_some_iff.mp found).1
    let pool : KeyPool := ⟨between, declaring.pool.tasks.set task (rest reply)⟩
    have here : pool.tasks[task]? = some (rest reply) := List.getElem?_set_self inside
    have stepped : declaring.step buffers (.run task) = some (declaring.after task pool) := by
      simp only [Declaring.step, Pool.step, found, answered, Option.map_some]
      rfl
    have granted : (declaring.after task pool).granted.map (·.2) =
        declaring.granted.map (·.2) ++ (returnedKeyId (some (rest reply))).toList := by
      rw [Declaring.after, here]
      simp
    cases left : rest reply with
    | done value =>
      rw [left] at rest' granted
      cases rest'
      refine ⟨[.run task], declaring.after task pool, Machine.execute_cons.mpr ⟨trivial, _, stepped, rfl⟩, ?_, granted⟩
      rw [← left]
      rfl
    | call request' rest'' =>
      have further : ∀ value, rest reply ≠ .done value := fun value same => by
        rw [left] at same
        cases same
      have at_ : (declaring.after task pool).pool.tasks[task]? = some (rest reply) := here
      obtain ⟨moves, next, executed, same, ids⟩ := ih reply further at_ rest'
      refine ⟨.run task :: moves, next, Machine.execute_cons.mpr ⟨trivial, _, stepped, executed⟩, ?_, ?_⟩
      · rw [same]
        exact congrArg _ (List.set_set _)
      · rw [ids, granted, left]
        simp [returnedKeyId]

omit [Target] in
theorem run_transport {α : Type} {call : Call α} {session after : Session} {result : Outcome Error α}
    (ran : Async.run perform call session = some (result, after)) :
    after.link.transport = session.link.transport := by
  induction call generalizing session with
  | done value =>
    cases ran
    rfl
  | call request rest ih =>
    obtain ⟨⟨reply, between⟩, answered, further⟩ := Option.bind_eq_some_iff.mp ran
    refine (ih reply further).trans ?_
    cases request with
    | lockLink =>
      simp only [perform] at answered
      split at answered
      · cases answered
      · cases answered
        rfl
    | _ =>
      cases answered
      rfl

structure Idle (session : Session) (taken : Nat) : Prop where
  free : session.link.locked = false
  flushes : ∀ i, session.link.transport.writes i = .flushed
  counter : session.nextKeyId = Counter.uint16 taken

theorem idle_of_opened {transport : Transport} {config : SessionConfig} {session : Session}
    (opened : Session.opened buffers transport config = some (.ok session))
    (flushes : ∀ i, transport.writes i = .flushed) : Idle session 0 := by
  refine ⟨(Session.fresh_of_opened opened).free, fun i => ?_, Session.nextKeyId_of_opened opened⟩
  obtain ⟨⟨result, after⟩, ran, same⟩ := Option.map_eq_some_iff.mp opened
  cases result with
  | err error => cases same
  | panic fault => cases same
  | ok result =>
    cases same
    rw [run_transport ran]
    exact flushes i

theorem run_sendMessage {session : Session} {message : WireEncoder} {frame : Bytes}
    (free : session.link.locked = false) (flushes : ∀ i, session.link.transport.writes i = .flushed)
    (encoded : encodeMessage buffers.txBuf session.snReliable message = .ok frame) (short : frame.length ≤ 65535) :
    Async.run perform (sendMessage buffers message) session =
      some (.ok (), { session with snReliable := session.snReliable + 1 }.wrote frame) := by
  let numbered : Session := { session with snReliable := session.snReliable + 1 }
  have begun : Async.run perform (sendMessage buffers message) session =
      Async.run perform (Async.lift (encodeMessage buffers.txBuf session.snReliable message) >>= fun frame =>
        withLink (writeFrame frame)) numbered := rfl
  have unlocked : numbered.link.locked = false := free
  have wrote : ((numbered.holding true).link.write frame).1 = .ok () := by
    apply (writeFrame_eq short _).trans
    exact if_pos (decide_eq_true (flushes session.link.tried))
  have released := Session.holding_self (numbered.wrote frame) free
  rw [encoded] at begun
  apply begun.trans
  change Async.run perform (withLink (writeFrame frame)) numbered = _
  rw [run_withLink _ unlocked, run_writeFrame, wrote]
  exact congrArg (fun after => some (_, after)) released

theorem Idle.declares {session : Session} {taken : Nat} (idle : Idle session taken) (room : 64 ≤ buffers.txBuf) :
    ∃ after, Async.run perform ((Operation.declareKeyExpr "a").keyId buffers) session =
      some (.ok (some (Counter.uint16 taken)), after) ∧ Idle after (taken + 1) := by
  have header := frameHeaderBytes_length_le session.snReliable true
  have id := vbyte_length_le session.nextKeyId.toUInt64
  have key : (inlineKeyBytes "a").length = 3 := by decide +kernel
  let frame := frameHeaderBytes session.snReliable true ++ declareKeyexprBytes session.nextKeyId "a"
  have fits : frame.length ≤ 64 := by
    simp only [frame, declareKeyexprBytes, List.length_append, List.length_singleton]
    omega
  let asked : Session := { session with nextKeyId := session.nextKeyId + 1 }
  have encoded : encodeMessage buffers.txBuf asked.snReliable (encodeDeclareKeyexpr session.nextKeyId "a") = .ok frame :=
    encodeMessage_eq (encodes_encodeDeclareKeyexpr session.nextKeyId (le_isizeMax (by decide))) buffers.arrays.1
      (Nat.le_trans fits room)
  have unlocked : asked.link.locked = false := idle.free
  let after : Session := { asked with snReliable := asked.snReliable + 1 }.wrote frame
  have sent : Async.run perform (sendMessage buffers (encodeDeclareKeyexpr session.nextKeyId "a")) asked =
    some (.ok (), after) := run_sendMessage unlocked idle.flushes encoded (Nat.le_trans fits (by decide))
  have declared : Async.run perform (declareKeyExpr buffers "a") session = some (.ok session.nextKeyId, after) :=
    Async.run_bind_eq_ok.mpr ⟨session.nextKeyId, asked, rfl, Async.run_bind_eq_ok.mpr ⟨(), after, sent, rfl⟩⟩
  refine ⟨after, Async.run_bind_eq_ok.mpr ⟨session.nextKeyId, after, declared, ?_⟩, idle.free, idle.flushes, ?_⟩
  · rw [idle.counter]
    rfl
  · change session.nextKeyId + 1 = _
    rw [Counter.uint16_succ, idle.counter]

theorem exists_declared {session : Session} (idle : Idle session 0) (room : 64 ≤ buffers.txBuf) (n : Nat) :
    ∃ moves declaring, Machine.execute (Declaring.step buffers) (fun _ _ => True) moves (start session) = some declaring ∧
      declaring.granted.map (·.2) = (List.range n).map Counter.uint16 ∧ Idle declaring.pool.state n := by
  induction n with
  | zero => exact ⟨[], start session, rfl, rfl, idle⟩
  | succ n ih =>
    obtain ⟨before, declaring, executed, ids, idle⟩ := ih
    obtain ⟨after, ran, idle⟩ := idle.declares room
    let task : KeyTask := (Operation.declareKeyExpr "a").keyId buffers
    let spawned : Declaring := { declaring with pool := ⟨declaring.pool.state, declaring.pool.tasks ++ [task]⟩ }
    have here : spawned.pool.tasks[declaring.pool.tasks.length]? = some task := List.getElem?_concat_length
    have begun : ∀ value, task ≠ .done value := by
      obtain ⟨rest, asks⟩ : ∃ rest, task = .call .nextKeyId rest := ⟨_, rfl⟩
      rw [asks]
      exact fun value same => by cases same
    obtain ⟨moves, next, alone, pool, granted⟩ := exists_alone begun here ran
    refine ⟨before ++ .spawn (.declareKeyExpr "a") :: moves, next, ?_, ?_, ?_⟩
    · rw [Machine.execute_append, executed]
      exact Machine.execute_cons.mpr ⟨trivial, spawned, rfl, alone⟩
    · rw [granted]
      change declaring.granted.map (·.2) ++ _ = _
      rw [ids, List.range_succ, List.map_append]
      rfl
    · rw [pool]
      exact idle

end Again
end Steps
end Declaring
end ZenohRos2.Zenoh
