import ZenohRos2.Transport.Protocol

/-! Keepalives on a timer of their own, for the users of a session. -/

set_option autoImplicit false

namespace ZenohRos2

/-- The clock that the application is built with, and what its durations are documented to be. -/
class TimeDriver where
  Duration : Type
  ticks : Duration → Nat
  fromMillis : Nat → Duration
  div : Duration → Nat → Duration
  ticksPerMs : Nat
  positive : 0 < ticksPerMs
  ticks_fromMillis : ∀ ms, ticks (fromMillis ms) = ms * ticksPerMs
  -- In whole ticks.
  ticks_div : ∀ duration n, ticks (div duration n) = ticks duration / n

abbrev TimeDriver.counting (ticksPerMs : Nat) (positive : 0 < ticksPerMs) : TimeDriver where
  Duration := Nat
  ticks duration := duration
  fromMillis ms := ms * ticksPerMs
  div duration n := duration / n
  ticksPerMs := ticksPerMs
  positive := positive
  ticks_fromMillis _ := rfl
  ticks_div _ _ := rfl

section Durations
variable [TimeDriver]

def Duration : Type := TimeDriver.Duration

namespace Duration

def ticks (duration : Duration) : Nat := TimeDriver.ticks duration

def fromMillis (ms : Nat) : Duration := TimeDriver.fromMillis ms

def div (duration : Duration) (n : Nat) : Duration := TimeDriver.div duration n

@[simp] theorem ticks_fromMillis (ms : Nat) : (fromMillis ms).ticks = ms * TimeDriver.ticksPerMs :=
  TimeDriver.ticks_fromMillis ms

@[simp] theorem ticks_div (duration : Duration) (n : Nat) : (duration.div n).ticks = duration.ticks / n :=
  TimeDriver.ticks_div duration n

/-- The interval is positive, and two of them pass within the lease. -/
def Keeps (interval : Duration) (leaseMs : UInt64) : Prop :=
  0 < interval.ticks ∧ 2 * interval.ticks ≤ (fromMillis leaseMs.toNat).ticks

theorem keeps_fromMillis_iff (ms : Nat) (leaseMs : UInt64) :
    (fromMillis ms).Keeps leaseMs ↔ 0 < ms ∧ 2 * ms ≤ leaseMs.toNat := by
  have positive := TimeDriver.positive
  simp only [Keeps, ticks_fromMillis, ← Nat.mul_assoc, Nat.mul_le_mul_right_iff positive]
  exact and_congr_left fun _ => ⟨Nat.pos_of_mul_pos_right, fun some => Nat.mul_pos some positive⟩

end Duration

structure KeepAliveManager where
  interval : Duration
  timeout : Duration
  /-- The instant of the last frame, in ticks. -/
  lastRx : Nat

/-- A quarter of the lease. -/
def KeepAliveManager.new (now : Nat) (leaseMs : UInt64) : KeepAliveManager where
  interval := (Duration.fromMillis leaseMs.toNat).div 4
  timeout := .fromMillis leaseMs.toNat
  lastRx := now

end Durations
end ZenohRos2
