import ZenohRos2.Lib.Machine
import ZenohRos2.Sdk.Refinement

/-! The lease that the node promised, in its three receive loops.

The loops run against a clock. A wait ends with a frame before its bound or with
a timeout at it; drains and keepalives take no time and succeed. A keepalive is
sent only after a timeout, whatever time has passed since the last write.
-/

set_option autoImplicit false

namespace ZenohRos2
open Rust

/-- Half of the smaller lease, in milliseconds. -/
def Node.keepaliveInterval (node : Node) : Nat := (min node.ourLeaseMs node.leaseMs / 2).toNat

/-- A timer that is due starts its next period now. -/
def fireTimers (now : Nat) (timers : List TimerEntry) : List TimerEntry :=
  timers.map fun timer => if timer.nextFire ≤ now then { timer with nextFire := now + timer.period } else timer

/-- `next_deadline`, with the minimum found so far. -/
def nextDeadline (now : Nat) (timers : List TimerEntry) (min : Nat) : Nat :=
  match timers with
  | [] => min
  | timer :: rest =>
    if now < timer.nextFire then
      let remaining := timer.nextFire - now
      nextDeadline now rest (if remaining < min then remaining else min)
    else 0

inductive LoopPhase where
  /-- At the head of the loop, before the drain. -/
  | head
  | waiting (bound : Nat)
  /-- The wait has timed out. -/
  | expired
  | returned
  deriving DecidableEq

def LoopPhase.bound : LoopPhase → Option Nat
  | .waiting bound => some bound
  | _ => none

structure Clocked where
  now : Nat
  /-- When the node last wrote a frame. -/
  lastTx : Nat
  timers : List TimerEntry
  phase : LoopPhase
  deriving DecidableEq

namespace Clocked

def silence (state : Clocked) : Nat := state.now - state.lastTx

end Clocked

inductive LoopInput where
  /-- The node drains its publishers, which hold these messages. -/
  | drain (statics : PubRef → Publisher)
  /-- A frame ends the wait; some frames end the loop. -/
  | frame (after : Nat) (ends : Bool)
  | timeout

/-- The time of the last write after a drain, which writes if anything is pending for the network. -/
def Clocked.drained (node : Node) (statics : PubRef → Publisher) (state : Clocked) : Nat :=
  if (outgoing node.gid node.publishers statics).isEmpty then state.lastTx else state.now

/-- `with_timeout(bound, read_frame(..))` -/
def Clocked.wait (state : Clocked) (bound : Nat) (received timedOut : LoopPhase) : LoopInput → Option Clocked
  | .frame after ends =>
    if after < bound then
      some { state with
        now := state.now + after
        phase := if ends then .returned else received }
    else none
  | .timeout => some { state with now := state.now + bound, phase := timedOut }
  | .drain _ => none

namespace Sdk

def spinTurn (node : Node) (state : Clocked) (input : LoopInput) : Option Clocked :=
  match state.phase, input with
  | .head, .drain statics =>
    some { state with lastTx := state.drained node statics, phase := .waiting node.keepaliveInterval }
  | .waiting bound, input => state.wait bound .head .expired input
  -- The drain may write or not: a keepalive follows.
  | .expired, .drain _ => some { state with lastTx := state.now, phase := .head }
  | _, _ => none

def spinWithCallbacksTurn (node : Node) (state : Clocked) (input : LoopInput) : Option Clocked :=
  match state.phase, input with
  | .head, .drain statics =>
    let timers := fireTimers state.now state.timers
    some { state with
      lastTx := state.drained node statics
      timers := timers
      phase := .waiting (nextDeadline state.now timers node.keepaliveInterval) }
  | .waiting bound, input => state.wait bound .head .expired input
  | .expired, .drain _ =>
    some { state with
      lastTx := state.now
      timers := fireTimers state.now state.timers
      phase := .head }
  | _, _ => none

/-- The loop of `call_service` waits again after a frame, and neither drains nor keeps the session alive. -/
def callServiceTurn (timeout : Nat) (state : Clocked) (input : LoopInput) : Option Clocked :=
  match state.phase with
  | .waiting bound => state.wait bound (.waiting timeout) .returned input
  | _ => none

end Sdk

inductive ReceiveLoop where
  | spin
  | spinWithCallbacks
  | callService (timeout : Nat)
  deriving DecidableEq

namespace ReceiveLoop

def step (node : Node) : ReceiveLoop → Clocked → LoopInput → Option Clocked
  | .spin => Sdk.spinTurn node
  | .spinWithCallbacks => Sdk.spinWithCallbacksTurn node
  | .callService timeout => Sdk.callServiceTurn timeout

/-- The node has just written a frame: the last of the registration, or the request. -/
def start (loop : ReceiveLoop) (now : Nat) (timers : List TimerEntry) : Clocked :=
  match loop with
  | .callService timeout => ⟨now, now, timers, .waiting timeout⟩
  | _ => ⟨now, now, timers, .head⟩

end ReceiveLoop

/-- A step is taken in time if the wait it ends would keep the lease up to its bound. -/
def InTime (node : Node) (state : Clocked) (_ : LoopInput) : Prop :=
  ∀ bound ∈ state.phase.bound, state.silence + bound ≤ node.ourLeaseMs.toNat

instance (node : Node) (state : Clocked) (input : LoopInput) : Decidable (InTime node state input) :=
  inferInstanceAs (Decidable (∀ bound ∈ state.phase.bound, _ ≤ _))

def anyInput : Clocked → LoopInput → Prop := fun _ _ => True

instance (state : Clocked) (input : LoopInput) : Decidable (anyInput state input) := inferInstanceAs (Decidable True)

inductive Clocked.Moved (state next : Clocked) : Prop where
  | stays (now : next.now = state.now) (lastTx : next.lastTx = state.lastTx)
  | writes (now : next.now = state.now) (lastTx : next.lastTx = state.now)
  | waits {bound after : Nat} (waiting : state.phase = .waiting bound) (within : after ≤ bound)
      (now : next.now = state.now + after) (lastTx : next.lastTx = state.lastTx)

section Steps
variable {node : Node} {loop : ReceiveLoop} {state next : Clocked} {input : LoopInput}

theorem Clocked.wait_moved {bound : Nat} {received timedOut : LoopPhase} (waiting : state.phase = .waiting bound)
    (step : state.wait bound received timedOut input = some next) : state.Moved next := by
  cases input with
  | drain statics => cases step
  | frame after ends =>
    simp only [Clocked.wait] at step
    split at step
    · rename_i early
      cases step
      exact .waits waiting (Nat.le_of_lt early) rfl rfl
    · cases step
  | timeout =>
    cases step
    exact .waits waiting (Nat.le_refl bound) rfl rfl

theorem Clocked.drained_moved (statics : PubRef → Publisher) (now : next.now = state.now)
    (lastTx : next.lastTx = state.drained node statics) : state.Moved next := by
  unfold drained at lastTx
  split at lastTx
  · exact .stays now lastTx
  · exact .writes now lastTx

theorem ReceiveLoop.step_moved (step : loop.step node state input = some next) : state.Moved next := by
  cases loop with
  | spin =>
    change Sdk.spinTurn node state input = some next at step
    unfold Sdk.spinTurn at step
    split at step
    · cases step
      exact Clocked.drained_moved _ rfl rfl
    · rename_i waiting
      exact Clocked.wait_moved waiting step
    · cases step
      exact .writes rfl rfl
    · cases step
  | spinWithCallbacks =>
    change Sdk.spinWithCallbacksTurn node state input = some next at step
    unfold Sdk.spinWithCallbacksTurn at step
    split at step
    · cases step
      exact Clocked.drained_moved _ rfl rfl
    · rename_i waiting
      exact Clocked.wait_moved waiting step
    · cases step
      exact .writes rfl rfl
    · cases step
  | callService timeout =>
    change Sdk.callServiceTurn timeout state input = some next at step
    unfold Sdk.callServiceTurn at step
    split at step
    · rename_i waiting
      exact Clocked.wait_moved waiting step
    · cases step

theorem Clocked.Moved.lastTx_le (moved : state.Moved next) (past : state.lastTx ≤ state.now) :
    next.lastTx ≤ next.now := by
  cases moved with
  | stays now lastTx => omega
  | writes now lastTx => omega
  | waits waiting within now lastTx => omega

theorem Clocked.Moved.silence_le (moved : state.Moved next) (kept : state.silence ≤ node.ourLeaseMs.toNat)
    (inTime : InTime node state input) : next.silence ≤ node.ourLeaseMs.toNat := by
  unfold silence at kept ⊢
  cases moved with
  | stays now lastTx => omega
  | writes now lastTx => omega
  | @waits bound after waiting within now lastTx =>
    have room := inTime bound (by rw [waiting]; rfl)
    unfold silence at room
    omega

theorem ReceiveLoop.start_lastTx (loop : ReceiveLoop) (now : Nat) (timers : List TimerEntry) :
    (loop.start now timers).lastTx = (loop.start now timers).now := by
  cases loop <;> rfl

theorem ReceiveLoop.step_timeout (loop : ReceiveLoop) (node : Node) {bound : Nat} (waiting : state.phase = .waiting bound) :
    ∃ next, loop.step node state .timeout = some next ∧ next.now = state.now + bound ∧
      next.lastTx = state.lastTx := by
  cases loop <;> simp [step, Sdk.spinTurn, Sdk.spinWithCallbacksTurn, Sdk.callServiceTurn, Clocked.wait, waiting]

end Steps

/-- The clocked drain writes just when the drain machine does. -/
theorem drain_writes_iff [Target] (statics : PubRef → Publisher) (node : Node)
    (named : ∀ ref ∈ node.publishers, (statics ref).Named) :
    ∃ after, Reaches Sdk.drainBody (called ⟨statics, node, []⟩) ⟨after, .idle (some (.ok ()))⟩ ∧
      (after.frames = [] ↔ (outgoing node.gid node.publishers statics).isEmpty) := by
  obtain ⟨after, frames, returned, writes, -⟩ := Sdk.drainsBursts.completes node.publishers
    (show (World.mk statics node []).node.publishers.drop 0 = _ from List.drop_zero) Buffers.zeroed_sized named
  have all : after.frames = frames := writes.frames
  refine ⟨after, returned, ?_⟩
  rw [all, List.isEmpty_iff, ← writes.messages, List.flatMap_eq_nil_iff]
  constructor
  · rintro rfl frame member
    cases member
  · intro empty
    cases frames with
    | nil => rfl
    | cons frame rest =>
      -- A written frame holds a message.
      have many := (writes.sized frame (List.mem_cons_self ..)).2
      rw [empty frame (List.mem_cons_self ..)] at many
      cases many

/-- A run whose waits all start in time keeps the lease in every state. And a
wait that does not start in time breaks it, if the router stays silent. -/
theorem lease_kept_in_time (loop : ReceiveLoop) (node : Node) (now : Nat) (timers : List TimerEntry) :
    (∀ state, Machine.Run (loop.step node) (InTime node) (loop.start now timers) state →
      state.silence ≤ node.ourLeaseMs.toNat) ∧
    ∀ state, Machine.Run (loop.step node) anyInput (loop.start now timers) state →
      ¬InTime node state .timeout →
        ∃ next, loop.step node state .timeout = some next ∧ node.ourLeaseMs.toNat < next.silence := by
  have fresh := loop.start_lastTx now timers
  constructor
  · intro state run
    apply Machine.Run.invariant (fun state => state.silence ≤ node.ourLeaseMs.toNat) run
    · rw [Clocked.silence, fresh, Nat.sub_self]
      exact Nat.zero_le _
    · intro state next input _ kept inTime step
      exact (ReceiveLoop.step_moved step).silence_le kept inTime
  -- The timeout of this very wait is allowed, and breaks the lease.
  · intro state run late
    have past : state.lastTx ≤ state.now := by
      apply Machine.Run.invariant (fun state => state.lastTx ≤ state.now) run (Nat.le_of_eq fresh)
      intro state next input _ past _ step
      exact (ReceiveLoop.step_moved step).lastTx_le past
    cases phase : state.phase with
    | waiting bound =>
      obtain ⟨next, step, later, same⟩ := loop.step_timeout node phase
      refine ⟨next, step, ?_⟩
      have broken : node.ourLeaseMs.toNat < state.silence + bound := by
        simpa [InTime, LoopPhase.bound, phase] using late
      unfold Clocked.silence at broken ⊢
      omega
    | head => exact absurd (by simp [InTime, LoopPhase.bound, phase]) late
    | expired => exact absurd (by simp [InTime, LoopPhase.bound, phase]) late
    | returned => exact absurd (by simp [InTime, LoopPhase.bound, phase]) late

/-- One early frame does no harm. -/
theorem lease_kept_in_time_once :
    let node := Node.built "listener" "" 0 (ZenohId.fromBytes [7]) 10000 10000
    ∃ state, Machine.Run (ReceiveLoop.spin.step node) (InTime node) (ReceiveLoop.spin.start 0 []) state ∧
      state.now = 9999 ∧ state.silence ≤ node.ourLeaseMs.toNat := by
  intro node
  obtain ⟨state, run, late⟩ : ∃ state, Machine.Run (ReceiveLoop.spin.step node) (InTime node)
      (ReceiveLoop.spin.start 0 []) state ∧ state.now = 9999 :=
    Machine.exists_run [.drain fun _ => .fresh ⟨0, "", "", ""⟩ .any 0 0, .frame 4999 false,
      .drain fun _ => .fresh ⟨0, "", "", ""⟩ .any 0 0, .timeout] (by decide +kernel)
  exact ⟨state, run, late, (lease_kept_in_time .spin node 0 []).1 state run⟩

/-- While frames arrive just before each timeout, no keepalive is sent. -/
theorem lease_broken :
    let node := Node.built "listener" "" 0 (ZenohId.fromBytes [7]) 10000 10000
    ∀ loop ∈ [ReceiveLoop.spin, .spinWithCallbacks, .callService 5000],
      ∃ state, Machine.Run (loop.step node) anyInput (loop.start 0 []) state ∧
        node.ourLeaseMs.toNat < state.silence := by
  intro node loop member
  let idle : LoopInput := .drain fun _ => .fresh ⟨0, "", "", ""⟩ .any 0 0
  simp only [List.mem_cons, List.not_mem_nil, or_false] at member
  rcases member with rfl | rfl | rfl
  · exact Machine.exists_run [idle, .frame 4999 false, idle, .frame 4999 false, idle, .frame 4999 false]
      (by decide +kernel)
  · exact Machine.exists_run [idle, .frame 4999 false, idle, .frame 4999 false, idle, .frame 4999 false]
      (by decide +kernel)
  · exact Machine.exists_run [.frame 4999 false, .frame 4999 false, .frame 4999 false] (by decide +kernel)

end ZenohRos2
