import ZenohRos2.Sdk.Lease
import ZenohRos2.Sdk.Starvation

/-! A router that falls silent.

The loops run against a clock that also records when the last frame came in, and
how long the last wait may take. Nothing in them reads that record: after any
number of timeouts they go on.
-/

set_option autoImplicit false

namespace ZenohRos2
open Rust

inductive SpinLoop where
  | spin
  | spinWithCallbacks
  deriving DecidableEq

def SpinLoop.turn (node : Node) : SpinLoop → Clocked → LoopInput → Option Clocked
  | .spin => Sdk.spinTurn node
  | .spinWithCallbacks => Sdk.spinWithCallbacksTurn node

/-- A loop with the time of the last frame from the router. -/
structure Watch where
  clock : Clocked
  lastRx : Nat
  /-- The bound of the wait in progress, and between two waits that of the last one. -/
  bound : Nat
  deriving DecidableEq

inductive WatchInput where
  /-- The drain at the head, and the start of a wait with this bound. -/
  | wait (statics : PubRef → Publisher) (bound : Nat)
  | frame (after : Nat) (ends : Bool)
  | timeout
  /-- The drain behind a timeout, and the keepalive. -/
  | drain (statics : PubRef → Publisher)
  /-- A drain that meets a publisher without a key expression. -/
  | drainFails (statics : PubRef → Publisher)

namespace Watch

def silence (watch : Watch) : Nat := watch.clock.now - watch.lastRx

/-- A frame that comes in at the bound is still taken, and some frames end the loop. -/
def receive (watch : Watch) (after : Nat) (ends : Bool) : Option Watch :=
  match watch.clock.phase with
  | .waiting bound =>
    if after ≤ bound then
      let now := watch.clock.now + after
      some { watch with
        clock := { watch.clock with now := now, phase := if ends then .returned else .head }
        lastRx := now }
    else none
  | _ => none

/-- The loops return from a drain that fails. -/
def step (node : Node) (loop : SpinLoop) (watch : Watch) : WatchInput → Option Watch
  | .wait statics bound =>
    if watch.clock.phase = .head ∧ Drains statics node then
      (loop.turn node watch.clock (.drain statics)).bind fun clock =>
        if clock.phase = .waiting bound then some { watch with clock := clock, bound := bound } else none
    else none
  | .frame after ends => watch.receive after ends
  | .timeout => (loop.turn node watch.clock .timeout).map fun clock => { watch with clock := clock }
  | .drain statics =>
    if watch.clock.phase = .expired ∧ Drains statics node then
      (loop.turn node watch.clock (.drain statics)).map fun clock => { watch with clock := clock }
    else none
  | .drainFails statics =>
    if (watch.clock.phase = .head ∨ watch.clock.phase = .expired) ∧ ¬Drains statics node then
      some { watch with clock := { watch.clock with phase := .returned } }
    else none

/-- The handshake has just ended with a frame from the router. -/
def start (now : Nat) (timers : List TimerEntry) : Watch := ⟨⟨now, now, timers, .head⟩, now, 0⟩

/-- As long as the loop runs, the router has been heard within its lease and one wait. -/
def Heard (node : Node) (watch : Watch) : Prop :=
  watch.clock.phase ≠ .returned → watch.silence ≤ node.leaseMs.toNat + watch.bound

instance (node : Node) : DecidablePred (Heard node) := fun _ => inferInstanceAs (Decidable (_ → _))

/-- In front of each timeout, the waits that have timed out since the last frame fill the
lease at most. And in front of a shorter wait, they exceed it by that wait at most. -/
def Patient (lease : Nat) : Nat → Nat → List WatchInput → Prop
  | _, _, [] => True
  | quiet, _, .wait _ bound :: rest => quiet ≤ lease + bound ∧ Patient lease quiet bound rest
  | _, bound, .frame _ _ :: rest => Patient lease 0 bound rest
  | quiet, bound, .timeout :: rest => quiet ≤ lease ∧ Patient lease (quiet + bound) bound rest
  | quiet, bound, _ :: rest => Patient lease quiet bound rest

instance instDecidablePatient (lease : Nat) :
    (quiet bound : Nat) → (inputs : List WatchInput) → Decidable (Patient lease quiet bound inputs)
  | _, _, [] => isTrue trivial
  | quiet, _, .wait _ bound :: rest =>
    have := instDecidablePatient lease quiet bound rest
    inferInstanceAs (Decidable (quiet ≤ lease + bound ∧ Patient lease quiet bound rest))
  | _, bound, .frame _ _ :: rest => instDecidablePatient lease 0 bound rest
  | quiet, bound, .timeout :: rest =>
    have := instDecidablePatient lease (quiet + bound) bound rest
    inferInstanceAs (Decidable (quiet ≤ lease ∧ Patient lease (quiet + bound) bound rest))
  | quiet, bound, .drain _ :: rest => instDecidablePatient lease quiet bound rest
  | quiet, bound, .drainFails _ :: rest => instDecidablePatient lease quiet bound rest

/-- Inputs while the router is silent, with a key expression for every publisher that needs one. -/
def Silent : WatchInput → Prop
  | .frame _ _ => False
  | .drainFails _ => False
  | _ => True

section Steps
variable {node : Node} {loop : SpinLoop} {watch next : Watch}

inductive Stepped (watch : Watch) : WatchInput → Watch → Prop where
  | waits {statics : PubRef → Publisher} {bound : Nat} {next : Watch} (running : watch.clock.phase ≠ .returned)
      (waiting : next.clock.phase = .waiting bound) (same : next.bound = bound)
      (now : next.clock.now = watch.clock.now) (lastRx : next.lastRx = watch.lastRx) :
      Stepped watch (.wait statics bound) next
  | received {after : Nat} {ends : Bool} {next : Watch} (goesOn : ∀ bound, next.clock.phase ≠ .waiting bound)
      (same : next.bound = watch.bound) (heard : next.lastRx = next.clock.now) :
      Stepped watch (.frame after ends) next
  | timedOut {next : Watch} {bound : Nat} (waiting : watch.clock.phase = .waiting bound)
      (goesOn : next.clock.phase = .expired) (same : next.bound = watch.bound)
      (now : next.clock.now = watch.clock.now + bound) (lastRx : next.lastRx = watch.lastRx) :
      Stepped watch .timeout next
  | drained {statics : PubRef → Publisher} {next : Watch} (running : watch.clock.phase ≠ .returned)
      (goesOn : next.clock.phase = .head) (same : next.bound = watch.bound)
      (now : next.clock.now = watch.clock.now) (lastRx : next.lastRx = watch.lastRx) :
      Stepped watch (.drain statics) next
  | failed {statics : PubRef → Publisher} :
      Stepped watch (.drainFails statics) { watch with clock := { watch.clock with phase := .returned } }

theorem turn_drain {statics : PubRef → Publisher} {clock : Clocked}
    (turned : loop.turn node watch.clock (.drain statics) = some clock) :
    watch.clock.phase ≠ .returned ∧ (watch.clock.phase = .expired → clock.phase = .head) ∧
      clock.now = watch.clock.now := by
  cases phase : watch.clock.phase <;> cases loop <;>
    simp only [SpinLoop.turn, Sdk.spinTurn, Sdk.spinWithCallbacksTurn, Clocked.wait, phase] at turned <;>
    cases turned <;> exact ⟨by simp, by simp, rfl⟩

theorem turn_timeout {clock : Clocked} (turned : loop.turn node watch.clock .timeout = some clock) :
    ∃ bound, watch.clock.phase = .waiting bound ∧ clock.phase = .expired ∧
      clock.now = watch.clock.now + bound := by
  cases phase : watch.clock.phase <;> cases loop <;>
    simp only [SpinLoop.turn, Sdk.spinTurn, Sdk.spinWithCallbacksTurn, Clocked.wait, phase] at turned <;>
    cases turned <;> exact ⟨_, rfl, rfl, rfl⟩

theorem stepped_of_step {input : WatchInput} (stepped : watch.step node loop input = some next) :
    Stepped watch input next := by
  cases input with
  | wait statics bound =>
    simp only [step] at stepped
    split at stepped
    · obtain ⟨clock, turned, same⟩ := Option.bind_eq_some_iff.mp stepped
      obtain ⟨running, -, now⟩ := turn_drain turned
      split at same
      · rename_i waiting
        cases same
        exact .waits running waiting rfl now rfl
      · cases same
    · cases stepped
  | frame after ends =>
    change watch.receive after ends = some next at stepped
    unfold receive at stepped
    split at stepped
    · split at stepped
      · cases stepped
        exact .received (fun bound => by cases ends <;> simp) rfl rfl
      · cases stepped
    · cases stepped
  | timeout =>
    obtain ⟨clock, turned, rfl⟩ := Option.map_eq_some_iff.mp stepped
    obtain ⟨bound, waiting, goesOn, now⟩ := turn_timeout turned
    exact .timedOut waiting goesOn rfl now rfl
  | drain statics =>
    simp only [step] at stepped
    split at stepped
    · rename_i may
      obtain ⟨clock, turned, rfl⟩ := Option.map_eq_some_iff.mp stepped
      obtain ⟨running, goesOn, now⟩ := turn_drain turned
      exact .drained running (goesOn may.1) rfl now rfl
    · cases stepped
  | drainFails statics =>
    simp only [step] at stepped
    split at stepped
    · cases stepped
      exact .failed
    · cases stepped

/-- The bound that is recorded is that of the wait in progress. -/
structure Recorded (watch : Watch) : Prop where
  past : watch.lastRx ≤ watch.clock.now
  bound : ∀ bound, watch.clock.phase = .waiting bound → watch.bound = bound

theorem Recorded.step {input : WatchInput} (recorded : watch.Recorded)
    (stepped : watch.step node loop input = some next) : next.Recorded := by
  have past := recorded.past
  cases stepped_of_step stepped with
  | waits running waiting same now lastRx =>
    refine ⟨by omega, fun bound found => ?_⟩
    rw [waiting] at found
    cases found
    exact same
  | received goesOn same heard => exact ⟨by omega, fun bound found => absurd found (goesOn bound)⟩
  | timedOut waiting goesOn same now lastRx =>
    exact ⟨by omega, fun bound found => by rw [goesOn] at found; cases found⟩
  | drained running goesOn same now lastRx =>
    exact ⟨by omega, fun bound found => by rw [goesOn] at found; cases found⟩
  | failed => exact ⟨past, nofun⟩

theorem patient_cons {input : WatchInput} {inputs : List WatchInput} (recorded : watch.Recorded)
    (heard : watch.Heard node) (stepped : watch.step node loop input = some next) :
    Patient node.leaseMs.toNat watch.silence watch.bound (input :: inputs) ↔
      next.Heard node ∧ Patient node.leaseMs.toNat next.silence next.bound inputs := by
  have past := recorded.past
  cases stepped_of_step stepped with
  | @waits _ bound _ running waiting same now lastRx =>
    -- No time has gone by, but a shorter bound may be exceeded from now on.
    have quiet : next.silence = watch.silence := by rw [silence, silence, now, lastRx]
    simp [Patient, Heard, waiting, same, quiet]
  | received goesOn same heard =>
    have quiet : next.silence = 0 := by rw [silence, heard, Nat.sub_self]
    simp [Patient, Heard, same, quiet]
  | @timedOut _ bound waiting goesOn same now lastRx =>
    have quiet : next.silence = watch.silence + bound := by
      unfold silence
      omega
    simp [Patient, Heard, goesOn, same, recorded.bound bound waiting, quiet]
  | drained running goesOn same now lastRx =>
    have quiet : next.silence = watch.silence := by rw [silence, silence, now, lastRx]
    simp only [Patient, Heard, goesOn, same, quiet]
    exact (and_iff_right fun _ => heard running).symm
  | failed => exact (and_iff_right fun running => absurd rfl running).symm

theorem always_heard_iff {inputs : List WatchInput} (recorded : watch.Recorded) (heard : watch.Heard node)
    (executed : (Machine.execute (step node loop) (fun _ _ => True) inputs watch).isSome) :
    Machine.Always (step node loop) (Heard node) watch inputs ↔
      Patient node.leaseMs.toNat watch.silence watch.bound inputs := by
  -- On the inputs. Each of them is taken, so both sides speak of the same states.
  induction inputs generalizing watch with
  | nil => exact iff_of_true heard trivial
  | cons input inputs ih =>
    obtain ⟨final, ran⟩ := Option.isSome_iff_exists.mp executed
    obtain ⟨-, next, stepped, rest⟩ := Machine.execute_cons.mp ran
    rw [patient_cons recorded heard stepped, Machine.Always, stepped, and_iff_right heard]
    simp only
    by_cases still : next.Heard node
    · rw [ih (recorded.step stepped) still (by rw [rest]; rfl), and_iff_right still]
    · exact iff_of_false (fun always => still always.first) fun both => still both.1

end Steps

theorem start_recorded (now : Nat) (timers : List TimerEntry) : (start now timers).Recorded := ⟨Nat.le_refl _, nofun⟩

/-- In every run of either loop, the router has been heard within its lease and one wait
just when the waits of the run, as long as they are, leave it no more time. -/
theorem heard_iff_patient (node : Node) (loop : SpinLoop) (now : Nat) (timers : List TimerEntry)
    (inputs : List WatchInput)
    (executed : (Machine.execute (step node loop) (fun _ _ => True) inputs (start now timers)).isSome) :
    Machine.Always (step node loop) (Heard node) (start now timers) inputs ↔
      Patient node.leaseMs.toNat 0 0 inputs := by
  have quiet : (start now timers).silence = 0 := Nat.sub_self now
  rw [always_heard_iff (start_recorded now timers) (fun _ => by rw [quiet]; exact Nat.zero_le _) executed, quiet]
  rfl

/-- A timer that is due every 400 ms makes the waits shorter than the interval of 1 s. -/
theorem heard_iff_patient_timer :
    let node := Node.built "listener" "" 0 (ZenohId.fromBytes [7]) 2000 2000
    let idle (_ : PubRef) : Publisher := .fresh ⟨0, "", "", ""⟩ .any 0 0
    let turns (count : Nat) : List WatchInput :=
      (List.replicate count [.wait idle 400, .timeout, .drain idle]).flatten
    Machine.Always (step node .spinWithCallbacks) (Heard node) (start 0 [⟨400, 400⟩]) (turns 6) ∧
      ¬Machine.Always (step node .spinWithCallbacks) (Heard node) (start 0 [⟨400, 400⟩]) (turns 7) := by
  intro node idle turns
  have executed (count : Nat) (few : count = 6 ∨ count = 7) : (Machine.execute (step node .spinWithCallbacks)
      (fun _ _ => True) (turns count) (start 0 [⟨400, 400⟩])).isSome := by
    rcases few with rfl | rfl <;> decide +kernel
  have patient : Patient node.leaseMs.toNat 0 0 (turns 6) ∧ ¬Patient node.leaseMs.toNat 0 0 (turns 7) := by
    decide +kernel
  exact ⟨(heard_iff_patient node .spinWithCallbacks 0 _ _ (executed 6 (.inl rfl))).mpr patient.1,
    fun always => patient.2 ((heard_iff_patient node .spinWithCallbacks 0 _ _ (executed 7 (.inr rfl))).mp always)⟩

/-- At most so many timeouts in a row that all but the last one fill the lease. -/
def InRows (lease interval : Nat) : Nat → List WatchInput → Prop
  | _, [] => True
  | row, .timeout :: rest => row * interval ≤ lease ∧ InRows lease interval (row + 1) rest
  | _, .frame _ _ :: rest => InRows lease interval 0 rest
  | row, _ :: rest => InRows lease interval row rest

section Rows
variable {node : Node} {watch next : Watch}

theorem spin_wait {statics : PubRef → Publisher} {bound : Nat}
    (stepped : watch.step node .spin (.wait statics bound) = some next) : bound = node.keepaliveInterval := by
  simp only [step] at stepped
  split at stepped
  · rename_i may
    obtain ⟨clock, turned, same⟩ := Option.bind_eq_some_iff.mp stepped
    simp only [SpinLoop.turn, Sdk.spinTurn, may.1] at turned
    cases turned
    simp only [LoopPhase.waiting.injEq] at same
    split at same
    · rename_i interval
      exact interval.symm
    · cases same
  · cases stepped

theorem patient_iff_inRows {inputs : List WatchInput} (recorded : watch.Recorded) {row : Nat}
    (heard : row * node.keepaliveInterval ≤ node.leaseMs.toNat + node.keepaliveInterval)
    (waits : ∀ bound, watch.clock.phase = .waiting bound → bound = node.keepaliveInterval)
    (executed : (Machine.execute (step node .spin) (fun _ _ => True) inputs watch).isSome) :
    Patient node.leaseMs.toNat (row * node.keepaliveInterval) watch.bound inputs ↔
      InRows node.leaseMs.toNat node.keepaliveInterval row inputs := by
  induction inputs generalizing watch row with
  | nil => exact Iff.rfl
  | cons input inputs ih =>
    obtain ⟨final, ran⟩ := Option.isSome_iff_exists.mp executed
    obtain ⟨-, next, stepped, rest⟩ := Machine.execute_cons.mp ran
    have behind : (Machine.execute (step node .spin) (fun _ _ => True) inputs next).isSome := by rw [rest]; rfl
    have again := recorded.step stepped
    cases stepped_of_step stepped with
    | @waits _ bound _ running waiting same now lastRx =>
      -- The bound never changes, so a wait that begins asks for nothing more.
      have interval := spin_wait stepped
      have later := ih again heard (fun other found => by rw [waiting] at found; cases found; exact interval) behind
      unfold Patient InRows
      rw [← same, later, same, interval]
      exact and_iff_right heard
    | received goesOn same _ =>
      have later := @ih next again 0 (by omega) (fun other found => absurd found (goesOn other)) behind
      rw [same, Nat.zero_mul] at later
      exact later
    | @timedOut _ bound waiting goesOn same now lastRx =>
      unfold Patient InRows
      refine and_congr_right fun within => ?_
      have interval := waits bound waiting
      have later := @ih next again (row + 1) (by rw [Nat.succ_mul]; omega)
        (fun other found => by rw [goesOn] at found; cases found) behind
      rw [same, Nat.succ_mul] at later
      rwa [recorded.bound bound waiting, interval] at later ⊢
    | drained running goesOn same now lastRx =>
      have later := ih again heard (fun other found => by rw [goesOn] at found; cases found) behind
      rw [same] at later
      exact later
    | failed => exact ih again heard (fun other found => nomatch found) behind

/-- In every run of `spin`, the router has been heard within its lease and one wait just when
in front of each timeout those of its row fill the lease at most. -/
theorem spin_heard_iff (node : Node) (now : Nat) (timers : List TimerEntry) {inputs : List WatchInput}
    (executed : (Machine.execute (step node .spin) (fun _ _ => True) inputs (start now timers)).isSome) :
    Machine.Always (step node .spin) (Heard node) (start now timers) inputs ↔
      InRows node.leaseMs.toNat node.keepaliveInterval 0 inputs := by
  have quiet : (start now timers).silence = 0 := Nat.sub_self now
  rw [always_heard_iff (start_recorded now timers) (fun _ => by rw [quiet]; exact Nat.zero_le _) executed, quiet,
    ← patient_iff_inRows (start_recorded now timers) (by omega) nofun executed, Nat.zero_mul]

end Rows

/-- However long the router stays silent, no timeout ends a loop. -/
theorem silent_runs_on (node : Node) (loop : SpinLoop) {now : Nat} {timers : List TimerEntry} {watch : Watch}
    (run : Machine.Run (step node loop) (fun _ input => Silent input) (start now timers) watch) :
    watch.clock.phase ≠ .returned := by
  apply Machine.Run.invariant (fun watch => watch.clock.phase ≠ .returned) run nofun
  intro state next input _ _ silent stepped
  cases stepped_of_step stepped with
  | waits running waiting => rw [waiting]; exact nofun
  | received => exact silent.elim
  | timedOut waiting goesOn => rw [goesOn]; exact nofun
  | drained running goesOn => rw [goesOn]; exact nofun
  | failed => exact silent.elim

/-- After four timeouts in a row nothing has been heard for 20 seconds, and the loops still run. -/
theorem silence_unnoticed :
    ¬∀ (node : Node) (loop : SpinLoop) (now : Nat) (timers : List TimerEntry) (inputs : List WatchInput),
      Machine.Always (step node loop) (Heard node) (start now timers) inputs := by
  intro all
  let node := Node.built "listener" "" 0 (ZenohId.fromBytes [7]) 10000 10000
  let idle (_ : PubRef) : Publisher := .fresh ⟨0, "", "", ""⟩ .any 0 0
  let turn : List WatchInput := [.wait idle 5000, .timeout, .drain idle]
  exact absurd (all node .spin 0 [] (turn ++ turn ++ turn ++ turn)) (by decide +kernel)

end Watch
end ZenohRos2
