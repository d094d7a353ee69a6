import Mathlib.Data.List.Chain

/-! Logs of an event that recurs with a period at least.

Times are kept with the latest in front. A new time is compared with the latest
one alone, and the spacing of all and their number follow.
-/

set_option autoImplicit false

namespace Periodic

structure Log where
  /-- When the first period started. -/
  start : Nat
  /-- The latest is in front. -/
  times : List Nat
  deriving DecidableEq, Repr

namespace Log
variable {log : Log} {period now : Nat}

def latest (log : Log) : Nat := log.times.headD log.start

def record (log : Log) (now : Nat) : Log := { log with times := now :: log.times }

/-- A period at least from each time to the next, and from the start to the first. -/
def Spaced (period : Nat) (log : Log) : Prop :=
  (log.times ++ [log.start]).IsChain fun later earlier => earlier + period ≤ later

theorem spaced_nil (start period : Nat) : Spaced period ⟨start, []⟩ :=
  List.IsChain.singleton _

theorem Spaced.record (spaced : log.Spaced period) (due : log.latest + period ≤ now) :
    (log.record now).Spaced period := by
  unfold Spaced latest Log.record at *
  cases times : log.times with
  | nil =>
    rw [times] at due
    exact .cons_cons due (.singleton _)
  | cons last rest =>
    rw [times] at due spaced
    exact .cons_cons due spaced

theorem Spaced.first (spaced : log.Spaced period) {time : Nat} (found : log.times.getLast? = some time) :
    log.start + period ≤ time :=
  (List.isChain_append.mp spaced).2.2 time found log.start rfl

theorem Spaced.apart (spaced : log.Spaced period) :
    log.times.IsChain fun later earlier => earlier + period ≤ later :=
  (List.isChain_append.mp spaced).1

theorem Spaced.length_mul_le (spaced : log.Spaced period) :
    log.start + log.times.length * period ≤ log.latest := by
  obtain ⟨start, times⟩ := log
  induction times with
  | nil => exact Nat.le_of_eq (by simp [latest])
  | cons time rest ih =>
    have below : start + rest.length * period ≤ (Log.mk start rest).latest := ih (List.IsChain.tail spaced)
    have due : (Log.mk start rest).latest + period ≤ time := by
      cases rest with
      | nil => exact spaced.first rfl
      | cons last rest => exact (List.isChain_cons_cons.mp spaced).1
    change start + (rest.length + 1) * period ≤ time
    rw [Nat.add_mul, Nat.one_mul]
    omega

theorem Spaced.length_le (spaced : log.Spaced period) (positive : 0 < period) (past : log.latest ≤ now) :
    log.times.length ≤ (now - log.start) / period := by
  have passed := spaced.length_mul_le
  rw [Nat.le_div_iff_mul_le positive]
  omega

end Log
end Periodic
