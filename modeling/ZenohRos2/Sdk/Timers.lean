import Mathlib.Data.List.Forall2
import ZenohRos2.Lib.Periodic
import ZenohRos2.Sdk.Intervals
import ZenohRos2.Sdk.Tables

/-! The timers of a node and the waits of `spin_with_callbacks`.

The clock is read by each registration, by each check of the timers and by each
computation of a wait, and any time may pass between two readings. A timer that
is checked late starts its next period at the check, not where it was due.
-/

set_option autoImplicit false

namespace ZenohRos2
open Rust Zenoh Periodic

section Deadline
variable {now : Nat} {timers : List TimerEntry} {min : Nat}

theorem nextDeadline_cons {timer : TimerEntry} (later : now < timer.nextFire) :
    nextDeadline now (timer :: timers) min =
      nextDeadline now timers (if timer.nextFire - now < min then timer.nextFire - now else min) := if_pos later

theorem nextDeadline_le (now : Nat) (timers : List TimerEntry) (min : Nat) : nextDeadline now timers min ≤ min := by
  induction timers generalizing min with
  | nil => exact Nat.le_refl _
  | cons timer rest ih =>
    unfold nextDeadline
    split
    · refine Nat.le_trans (ih _) ?_
      split <;> omega
    · exact Nat.zero_le _

theorem add_nextDeadline_le {timer : TimerEntry} (member : timer ∈ timers) (later : now < timer.nextFire) :
    now + nextDeadline now timers min ≤ timer.nextFire := by
  induction timers generalizing min with
  | nil => cases member
  | cons first rest ih =>
    by_cases waits : now < first.nextFire
    · rw [nextDeadline_cons waits]
      rcases List.mem_cons.mp member with rfl | more
      · have bound := nextDeadline_le now rest (if timer.nextFire - now < min then timer.nextFire - now else min)
        split at bound <;> split <;> omega
      · exact ih more
    · rw [nextDeadline, if_neg waits]
      exact Nat.le_of_lt later

theorem due_of_nextDeadline_eq_zero (positive : 0 < min) (zero : nextDeadline now timers min = 0) :
    ∃ timer ∈ timers, timer.nextFire ≤ now := by
  induction timers generalizing min with
  | nil => exact absurd zero (Nat.ne_of_gt positive)
  | cons first rest ih =>
    unfold nextDeadline at zero
    split at zero
    · obtain ⟨timer, member, due⟩ := ih (by split <;> omega) zero
      exact ⟨timer, List.mem_cons_of_mem _ member, due⟩
    · exact ⟨first, List.mem_cons_self .., by omega⟩

end Deadline

inductive TimerPhase where
  /-- No call of `spin_with_callbacks` goes on. -/
  | idle
  /-- At the head of the loop. -/
  | head
  /-- The timers have been checked. -/
  | checked
  | waiting (bound : Nat)
  /-- The wait has timed out. -/
  | expired
  deriving DecidableEq, Repr

inductive TimerInput where
  | register (now period : Nat)
  | call
  /-- `fire_timers`, which reads the clock once. -/
  | fire (now : Nat)
  /-- `next_deadline` -/
  | deadline (now : Nat)
  | frame
  | timeout
  /-- The call returns: a drain, the read, the dispatch or the keepalive has failed. -/
  | leave
  deriving DecidableEq, Repr

def TimerInput.reading : TimerInput → Option Nat
  | .register now _ | .fire now | .deadline now => some now
  | _ => none

/-- The loop of `spin_with_callbacks`, where `bound` is the wait that is computed. The drains and the keepalive read
no timer. -/
def TimerPhase.flow (bound : Nat) : TimerPhase → TimerInput → Option TimerPhase
  | .idle, .register _ _ => some .idle
  | .idle, .call => some .head
  | .head, .fire _ => some .checked
  | .checked, .deadline _ => some (.waiting bound)
  | .waiting _, .frame => some .head
  | .waiting _, .timeout => some .expired
  | .expired, .fire _ => some .head
  | .head, .leave | .waiting _, .leave => some .idle
  | _, _ => none

theorem TimerPhase.flow_waiting {bound wait : Nat} {phase : TimerPhase} {input : TimerInput}
    (flows : phase.flow bound input = some (.waiting wait)) : wait = bound ∧ ∃ now, input = .deadline now := by
  unfold flow at flows
  split at flows <;> cases flows
  exact ⟨rfl, _, rfl⟩

/-- A node with a log for each of its timers. -/
structure TimerRun where
  node : Node
  /-- The last reading of the clock. -/
  now : Nat
  phase : TimerPhase
  logs : List Log

namespace TimerRun

def start (node : Node) (now : Nat) : TimerRun := ⟨node, now, .idle, []⟩

def apply (state : TimerRun) : TimerInput → TimerRun
  | .register now period => { state with
      node := (state.node.registerTimer now period).2
      logs := pushWithin maxTimers state.logs ⟨now, []⟩ }
  | .fire now => { state with
      node := { state.node with timers := fireTimers now state.node.timers }
      logs := List.zipWith (fun timer log => if timer.nextFire ≤ now then log.record now else log) state.node.timers
        state.logs }
  | _ => state

/-- The clock does not go back. -/
def step (state : TimerRun) (input : TimerInput) : Option TimerRun :=
  let now := input.reading.getD state.now
  if state.now ≤ now then
    let bound := nextDeadline now state.node.timers state.node.keepaliveInterval
    (state.phase.flow bound input).map fun phase => { state.apply input with now := now, phase := phase }
  else none

def Allowed (_ : TimerRun) : TimerInput → Prop
  | .register _ period => 0 < period
  | _ => True

instance (state : TimerRun) : (input : TimerInput) → Decidable (Allowed state input)
  | .register _ period => inferInstanceAs (Decidable (0 < period))
  | .call | .fire _ | .deadline _ | .frame | .timeout | .leave => inferInstanceAs (Decidable True)

structure Kept (now : Nat) (timer : TimerEntry) (log : Log) : Prop where
  positive : 0 < timer.period
  next : timer.nextFire = log.latest + timer.period
  spaced : log.Spaced timer.period
  past : log.latest ≤ now

theorem Kept.mono {now later : Nat} {timer : TimerEntry} {log : Log} (kept : Kept now timer log)
    (after : now ≤ later) : Kept later timer log := { kept with past := Nat.le_trans kept.past after }

theorem Kept.check {now later : Nat} {timer : TimerEntry} {log : Log} (kept : Kept now timer log)
    (after : now ≤ later) :
    Kept later (if timer.nextFire ≤ later then { timer with nextFire := later + timer.period } else timer)
      (if timer.nextFire ≤ later then log.record later else log) := by
  by_cases due : timer.nextFire ≤ later
  · rw [if_pos due, if_pos due]
    exact ⟨kept.positive, rfl, kept.spaced.record (kept.next ▸ due), Nat.le_refl _⟩
  · rw [if_neg due, if_neg due]
    exact kept.mono after

theorem forall₂_check {now later : Nat} {timers : List TimerEntry} {logs : List Log}
    (kept : List.Forall₂ (Kept now) timers logs) (after : now ≤ later) :
    List.Forall₂ (Kept later) (fireTimers later timers)
      (List.zipWith (fun timer log => if timer.nextFire ≤ later then log.record later else log) timers logs) := by
  induction kept with
  | nil => exact .nil
  | cons one _ ih => exact .cons (one.check after) ih

theorem forall₂_register {now later period : Nat} {timers : List TimerEntry} {logs : List Log}
    (kept : List.Forall₂ (Kept now) timers logs) (after : now ≤ later) (positive : 0 < period) :
    List.Forall₂ (Kept later) (pushWithin maxTimers timers ⟨period, later + period⟩)
      (pushWithin maxTimers logs ⟨later, []⟩) := by
  have before : List.Forall₂ (Kept later) timers logs := kept.imp fun _ _ one => one.mono after
  have fresh : Kept later ⟨period, later + period⟩ ⟨later, []⟩ :=
    ⟨positive, rfl, Log.spaced_nil _ _, Nat.le_refl _⟩
  unfold pushWithin
  rw [kept.length_eq]
  split
  · exact List.rel_append before (.cons fresh .nil)
  · exact before

structure Bounded (interval now : Nat) (timers : List TimerEntry) (bound : Nat) : Prop where
  interval : bound ≤ interval
  notPast : ∀ timer ∈ timers, now < timer.nextFire → now + bound ≤ timer.nextFire
  due : bound = 0 → ∃ timer ∈ timers, timer.nextFire ≤ now

structure Sound (interval : Nat) (state : TimerRun) : Prop where
  lease : state.node.keepaliveInterval = interval
  logs : List.Forall₂ (Kept state.now) state.node.timers state.logs
  waits : ∀ bound, state.phase = .waiting bound → Bounded interval state.now state.node.timers bound

variable {interval : Nat} {state next : TimerRun} {input : TimerInput}

theorem Sound.start {node : Node} (now : Nat) (none : node.timers = []) :
    Sound node.keepaliveInterval (TimerRun.start node now) where
  lease := rfl
  logs := by
    change List.Forall₂ _ node.timers []
    rw [none]
    exact .nil
  waits := nofun

theorem Sound.logs_apply (sound : Sound interval state) (allowed : Allowed state input)
    (after : state.now ≤ input.reading.getD state.now) :
    List.Forall₂ (Kept (input.reading.getD state.now)) (state.apply input).node.timers (state.apply input).logs := by
  cases input with
  | register now period => exact forall₂_register sound.logs after allowed
  | fire now => exact forall₂_check sound.logs after
  | deadline now => exact sound.logs.imp fun _ _ one => one.mono after
  | _ => exact sound.logs

theorem Sound.of_step (positive : 0 < interval) (sound : Sound interval state) (allowed : Allowed state input)
    (stepped : state.step input = some next) : Sound interval next := by
  obtain ⟨after, flows⟩ := Option.ite_none_right_eq_some.mp stepped
  obtain ⟨phase, next, rfl⟩ := Option.map_eq_some_iff.mp flows
  refine ⟨?_, sound.logs_apply allowed after, ?_⟩
  · rw [← sound.lease]
    cases input <;> rfl
  · intro bound waiting
    change phase = .waiting bound at waiting
    obtain ⟨rfl, now, rfl⟩ := TimerPhase.flow_waiting (next.trans (congrArg some waiting))
    rw [sound.lease]
    exact ⟨nextDeadline_le _ _ _, fun timer member later => add_nextDeadline_le member later,
      due_of_nextDeadline_eq_zero positive⟩

theorem Sound.of_run (positive : 0 < interval) (first : Sound interval state)
    (run : Machine.Run TimerRun.step Allowed state next) : Sound interval next :=
  run.invariant (Sound interval) first fun _ sound allowed stepped => sound.of_step positive allowed stepped

end TimerRun

/-- What a timer has done by now: its first period and all others have passed before it fired. -/
structure PeriodKept (now : Nat) (timer : TimerEntry) (log : Log) : Prop where
  first : ∀ time, log.times.getLast? = some time → log.start + timer.period ≤ time
  apart : log.times.IsChain fun later earlier => earlier + timer.period ≤ later
  count : log.times.length ≤ (now - log.start) / timer.period

/-- In every run of a node that a handshake has made, no timer fires early, and no wait is longer than half a lease
or than the time to the next timer. -/
theorem timers_keep_period [Target] {buffers : Zenoh.Buffers} {transport : Transport} {config : SessionConfig}
    {handshake : HandshakeResult} {session : Zenoh.Session}
    (ran : Ran (doHandshake buffers config) (.new transport config) handshake session)
    (nodeName «namespace» : String) (domainId : UInt32) (now : Nat) {state : TimerRun}
    (run : Machine.Run TimerRun.step TimerRun.Allowed (.start (Node.built nodeName «namespace» domainId config.zid
      handshake.leaseMs handshake.ourLeaseMs) now) state) :
    List.Forall₂ (PeriodKept state.now) state.node.timers state.logs ∧
    ∀ bound, state.phase = .waiting bound →
      bound ≤ state.node.keepaliveInterval ∧
      (∀ timer ∈ state.node.timers, state.now < timer.nextFire → state.now + bound ≤ timer.nextFire) ∧
      (bound = 0 → ∃ timer ∈ state.node.timers, timer.nextFire ≤ state.now) := by
  obtain ⟨cookie, -, -, -, offered⟩ := Ran.doHandshake ran rfl
  have positive : 0 < (Node.built nodeName «namespace» domainId config.zid handshake.leaseMs
      handshake.ourLeaseMs).keepaliveInterval := by
    rw [Node.keepaliveInterval_built, offered, show (defaultLeaseMs : UInt64).toNat = 10000 from rfl]
    omega
  have sound := (TimerRun.Sound.start now rfl).of_run positive run
  refine ⟨sound.logs.imp fun timer log kept => ⟨fun _ => kept.spaced.first, kept.spaced.apart,
    kept.spaced.length_le kept.positive kept.past⟩, fun bound waiting => ?_⟩
  have bounded := sound.waits bound waiting
  exact ⟨sound.lease ▸ bounded.interval, bounded.notPast, bounded.due⟩

/-- A timer of 100 that is first checked at 250 fires once, and not again at 349. -/
theorem timers_keep_period_late : letI := target64
    ∃ state : TimerRun, state.logs = [⟨0, [250]⟩] ∧
      List.Forall₂ (PeriodKept state.now) state.node.timers state.logs := by
  let := target64
  obtain ⟨handshake, session, ran, -, -⟩ := exists_accepted
  have fires : ∃ state, Machine.Run TimerRun.step TimerRun.Allowed (.start (Node.built "" "" 0 (ZenohId.fromBytes [7])
      handshake.leaseMs handshake.ourLeaseMs) 0) state ∧ state.logs = [⟨0, [250]⟩] :=
    Machine.exists_run [.register 0 100, .call, .fire 250, .deadline 251, .timeout, .fire 349, .fire 349] rfl
  obtain ⟨state, run, logs⟩ := fires
  exact ⟨state, logs, (timers_keep_period ran "" "" 0 0 run).1⟩

end ZenohRos2
