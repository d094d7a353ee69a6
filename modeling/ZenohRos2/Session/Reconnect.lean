import ZenohRos2.Rust.Slice

/-! The backoff between two attempts to connect.

The delay is multiplied first and capped then, and the first delay is not capped
at all. So the waits follow their closed form only for a policy whose first delay
is within the cap, and whose products are within 64 bits.
-/

set_option autoImplicit false

namespace ZenohRos2
open Rust

/-- The profiles of the workspace: `overflow-checks` is on in the one and off in the other. -/
inductive Profile where
  | dev
  | release
  deriving DecidableEq, Repr

namespace Profile
variable {ε : Type}

/-- `a * b`, which wraps where it is not checked. -/
def mul : Profile → UInt64 → UInt64 → Outcome ε UInt64
  | .dev, a, b => u64Mul a b
  | .release, a, b => .ok (a * b)

def increment : Profile → UInt32 → Outcome ε UInt32
  | .dev, count => if count.toNat + 1 < 2 ^ 32 then .ok (count + 1) else .panic .overflow
  | .release, count => .ok (count + 1)

/-- How many waits a counter of 32 bits can take. -/
def Counts (profile : Profile) (waits : Nat) : Prop := profile = .dev → waits < 2 ^ 32

theorem mul_eq {profile : Profile} {a b : UInt64} (fits : a.toNat * b.toNat < 2 ^ 64) :
    (profile.mul a b : Outcome ε UInt64) = .ok (a * b) := by
  cases profile with
  | dev => exact if_pos fits
  | release => rfl

theorem increment_eq {profile : Profile} {waits : Nat} (counts : profile.Counts (waits + 1)) :
    (profile.increment (UInt32.ofNat waits) : Outcome ε UInt32) = .ok (UInt32.ofNat (waits + 1)) := by
  have next : UInt32.ofNat waits + 1 = UInt32.ofNat (waits + 1) := (UInt32.ofNat_add waits 1).symm
  cases profile with
  | dev =>
    have below := counts rfl
    have inside : (UInt32.ofNat waits).toNat + 1 < 2 ^ 32 := by
      rw [UInt32.toNat_ofNat']
      omega
    exact (if_pos inside).trans (congrArg _ next)
  | release => exact congrArg _ next

theorem counts_of_increment {profile : Profile} {waits : Nat} {count : UInt32} (counts : profile.Counts waits)
    (incremented : (profile.increment (UInt32.ofNat waits) : Outcome ε UInt32) = .ok count) :
    profile.Counts (waits + 1) := by
  rintro rfl
  have below := counts rfl
  by_cases inside : (UInt32.ofNat waits).toNat + 1 < 2 ^ 32
  · rwa [UInt32.toNat_ofNat', Nat.mod_eq_of_lt below] at inside
  · have overflows : (increment .dev (UInt32.ofNat waits) : Outcome ε UInt32) = .panic .overflow := if_neg inside
    rw [overflows] at incremented
    cases incremented

end Profile

structure ReconnectPolicy where
  initialDelayMs : UInt64
  maxDelayMs : UInt64
  backoffFactor : UInt32
  /-- No bound if 0. -/
  maxAttempts : UInt32
  currentDelayMs : UInt64
  attemptCount : UInt32
  deriving DecidableEq, Repr

namespace ReconnectPolicy

def new (initialDelayMs maxDelayMs : UInt64) : ReconnectPolicy where
  initialDelayMs := initialDelayMs
  maxDelayMs := maxDelayMs
  backoffFactor := 2
  maxAttempts := 0
  currentDelayMs := initialDelayMs
  attemptCount := 0

def defaultPolicy : ReconnectPolicy := .new 1000 30000

def reset (policy : ReconnectPolicy) : ReconnectPolicy :=
  { policy with currentDelayMs := policy.initialDelayMs, attemptCount := 0 }

/-- The milliseconds that the timer is set to, and the policy behind the wait. -/
def waitAndAdvance (profile : Profile) (policy : ReconnectPolicy) : UInt64 × Outcome Empty ReconnectPolicy :=
  (policy.currentDelayMs, do
    let attemptCount ← profile.increment policy.attemptCount
    let product ← profile.mul policy.currentDelayMs policy.backoffFactor.toUInt64
    .ok { policy with attemptCount, currentDelayMs := min product policy.maxDelayMs })

/-- The policy behind a reset and so many waits. -/
def after (profile : Profile) (policy : ReconnectPolicy) : Nat → Outcome Empty ReconnectPolicy
  | 0 => .ok policy.reset
  | waits + 1 => after profile policy waits >>= fun state => (state.waitAndAdvance profile).2

/-- The delay of the wait behind `waits` others, in milliseconds. -/
def delay (policy : ReconnectPolicy) (waits : Nat) : Nat :=
  min policy.maxDelayMs.toNat (policy.initialDelayMs.toNat * policy.backoffFactor.toNat ^ waits)

/-- Every wait is the power of the factor that its number says, within the cap. -/
structure Backoff (profile : Profile) (policy : ReconnectPolicy) : Prop where
  takesPlace : ∀ waits, profile.Counts waits → ∃ state, policy.after profile waits = .ok state
  lasts : ∀ waits state, policy.after profile waits = .ok state →
    (state.waitAndAdvance profile).1.toNat = policy.delay waits
  capped : ∀ waits state, policy.after profile waits = .ok state →
    (state.waitAndAdvance profile).1 ≤ policy.maxDelayMs
  grows : ∀ waits more state later, policy.after profile waits = .ok state →
    policy.after profile (waits + more) = .ok later →
    (state.waitAndAdvance profile).1 ≤ (later.waitAndAdvance profile).1
  fits : ∀ waits state, policy.after profile waits = .ok state →
    state.currentDelayMs.toNat * state.backoffFactor.toNat < 2 ^ 64

/-- The first delay is within the cap, and no product of a delay within the cap has more than 64 bits, unless the
delay stays as it is. -/
structure Moderate (policy : ReconnectPolicy) : Prop where
  initial : policy.initialDelayMs ≤ policy.maxDelayMs
  products : policy.initialDelayMs = 0 ∨ policy.backoffFactor = 1 ∨
    policy.maxDelayMs.toNat * policy.backoffFactor.toNat < 2 ^ 64

variable {profile : Profile} {policy state : ReconnectPolicy} {waits : Nat}

theorem min_mul_cap {cap delay factor : Nat} (positive : 1 ≤ factor) :
    min cap (min cap delay * factor) = min cap (delay * factor) := by
  rcases Nat.le_total delay cap with within | beyond
  · rw [Nat.min_eq_right within]
  · have product := Nat.mul_le_mul beyond positive
    have capped := Nat.le_mul_of_pos_right cap positive
    rw [Nat.mul_one] at product
    rw [Nat.min_eq_left beyond, Nat.min_eq_left capped, Nat.min_eq_left product]

theorem delay_succ (positive : 1 ≤ policy.backoffFactor.toNat) :
    policy.delay (waits + 1) = min policy.maxDelayMs.toNat (policy.delay waits * policy.backoffFactor.toNat) := by
  unfold delay
  rw [min_mul_cap positive, Nat.pow_succ, Nat.mul_assoc]

theorem delay_le (policy : ReconnectPolicy) (waits : Nat) : policy.delay waits ≤ policy.maxDelayMs.toNat :=
  Nat.min_le_left _ _

theorem delay_mono (positive : 1 ≤ policy.backoffFactor.toNat) (more : Nat) :
    policy.delay waits ≤ policy.delay (waits + more) := by
  have powers := Nat.pow_le_pow_right positive (Nat.le_add_right waits more)
  have products := Nat.mul_le_mul_left policy.initialDelayMs.toNat powers
  unfold delay
  omega

theorem Moderate.delay_mul_lt (moderate : policy.Moderate) (waits : Nat) :
    policy.delay waits * policy.backoffFactor.toNat < 2 ^ 64 := by
  have cap := policy.delay_le waits
  rcases moderate.products with none | same | small
  · have zero : policy.delay waits = 0 := by
      simp [delay, none]
    rw [zero, Nat.zero_mul]
    decide
  · have below := policy.maxDelayMs.toNat_lt
    rw [same, show (1 : UInt32).toNat = 1 from rfl]
    omega
  · exact Nat.lt_of_le_of_lt (Nat.mul_le_mul_right _ cap) small

def expected (policy : ReconnectPolicy) (waits : Nat) : ReconnectPolicy :=
  { policy with currentDelayMs := UInt64.ofNat (policy.delay waits), attemptCount := UInt32.ofNat waits }

theorem delay_toNat (policy : ReconnectPolicy) (waits : Nat) :
    (UInt64.ofNat (policy.delay waits)).toNat = policy.delay waits := by
  rw [UInt64.toNat_ofNat']
  exact Nat.mod_eq_of_lt (Nat.lt_of_le_of_lt (policy.delay_le waits) policy.maxDelayMs.toNat_lt)

theorem Moderate.waitAndAdvance_eq (moderate : policy.Moderate) (positive : 1 ≤ policy.backoffFactor.toNat)
    (counts : profile.Counts (waits + 1)) :
    ((policy.expected waits).waitAndAdvance profile).2 = .ok (policy.expected (waits + 1)) := by
  have fits : (UInt64.ofNat (policy.delay waits)).toNat * policy.backoffFactor.toUInt64.toNat < 2 ^ 64 := by
    rw [policy.delay_toNat, UInt32.toNat_toUInt64]
    exact moderate.delay_mul_lt waits
  have next : min (UInt64.ofNat (policy.delay waits) * policy.backoffFactor.toUInt64) policy.maxDelayMs =
      UInt64.ofNat (policy.delay (waits + 1)) := by
    apply UInt64.toNat_inj.mp
    rw [policy.delay_toNat, delay_succ positive, toNat_min, UInt64.toNat_mul, Nat.mod_eq_of_lt fits,
      policy.delay_toNat, UInt32.toNat_toUInt64, Nat.min_comm]
  unfold waitAndAdvance
  simp only [expected, Profile.increment_eq counts, Profile.mul_eq fits, Outcome.ok_bind, next]

theorem Moderate.expected_zero (moderate : policy.Moderate) : policy.expected 0 = policy.reset := by
  have first : UInt64.ofNat (policy.delay 0) = policy.initialDelayMs := by
    apply UInt64.toNat_inj.mp
    rw [policy.delay_toNat, delay, Nat.pow_zero, Nat.mul_one]
    exact Nat.min_eq_right moderate.initial
  rw [expected, first]
  rfl

theorem Moderate.after_eq (moderate : policy.Moderate) (positive : 1 ≤ policy.backoffFactor.toNat)
    (counts : profile.Counts waits) : policy.after profile waits = .ok (policy.expected waits) := by
  induction waits with
  | zero => rw [moderate.expected_zero, after]
  | succ waits ih =>
    have fewer : profile.Counts waits := fun dev => Nat.lt_of_succ_lt (counts dev)
    rw [after, ih fewer, Outcome.ok_bind]
    exact moderate.waitAndAdvance_eq positive counts

theorem after_frame (found : policy.after profile waits = .ok state) : profile.Counts waits ∧
    state = { policy with currentDelayMs := state.currentDelayMs, attemptCount := UInt32.ofNat waits } := by
  induction waits generalizing state with
  | zero =>
    cases found
    exact ⟨fun _ => by decide, rfl⟩
  | succ waits ih =>
    obtain ⟨before, earlier, advanced⟩ := Outcome.bind_eq_ok.mp found
    obtain ⟨counted, same⟩ := ih earlier
    obtain ⟨count, incremented, rest⟩ := Outcome.bind_eq_ok.mp advanced
    obtain ⟨product, -, next⟩ := Outcome.bind_eq_ok.mp rest
    cases next
    rw [same] at incremented
    have counts := Profile.counts_of_increment counted incremented
    rw [Profile.increment_eq counts] at incremented
    cases incremented
    rw [same]
    exact ⟨counts, rfl⟩

theorem Moderate.backoff (moderate : policy.Moderate) (positive : 1 ≤ policy.backoffFactor.toNat)
    (profile : Profile) : Backoff profile policy := by
  have reached {waits : Nat} {state : ReconnectPolicy} (found : policy.after profile waits = .ok state) :
      state = policy.expected waits := by
    rw [moderate.after_eq positive (after_frame found).1] at found
    exact (Outcome.ok.inj found).symm
  constructor
  · exact fun waits counts => ⟨_, moderate.after_eq positive counts⟩
  · intro waits state found
    rw [reached found]
    exact policy.delay_toNat waits
  · intro waits state found
    rw [reached found, UInt64.le_iff_toNat_le]
    exact Nat.le_trans (Nat.le_of_eq (policy.delay_toNat waits)) (policy.delay_le waits)
  · intro waits more state later found found'
    rw [reached found, reached found', UInt64.le_iff_toNat_le]
    change (UInt64.ofNat (policy.delay waits)).toNat ≤ (UInt64.ofNat (policy.delay (waits + more))).toNat
    rw [policy.delay_toNat, policy.delay_toNat]
    exact delay_mono positive more
  · intro waits state found
    rw [reached found]
    change (UInt64.ofNat (policy.delay waits)).toNat * policy.backoffFactor.toNat < 2 ^ 64
    rw [policy.delay_toNat]
    exact moderate.delay_mul_lt waits

theorem delay_eq_cap (some : policy.initialDelayMs ≠ 0) (doubles : 2 ≤ policy.backoffFactor.toNat) :
    policy.delay 64 = policy.maxDelayMs.toNat := by
  have positive : 0 < policy.initialDelayMs.toNat := UInt64.lt_iff_toNat_lt.mp (UInt64.pos_iff_ne_zero.mpr some)
  have powers : 2 ^ 64 ≤ policy.backoffFactor.toNat ^ 64 := Nat.pow_le_pow_left doubles 64
  have product := Nat.le_mul_of_pos_left (policy.backoffFactor.toNat ^ 64) positive
  have cap := policy.maxDelayMs.toNat_lt
  exact Nat.min_eq_left (by omega)

theorem Backoff.moderate (backoff : Backoff profile policy) (positive : 1 ≤ policy.backoffFactor.toNat) :
    policy.Moderate := by
  constructor
  · have first := backoff.lasts 0 policy.reset rfl
    rw [delay, Nat.pow_zero, Nat.mul_one] at first
    exact UInt64.le_iff_toNat_le.mpr (Nat.le_trans (Nat.le_of_eq first) (Nat.min_le_left _ _))
  · by_cases none : policy.initialDelayMs = 0
    · exact .inl none
    by_cases same : policy.backoffFactor = 1
    · exact .inr (.inl same)
    -- Behind 64 waits the delay is the cap, and is multiplied once more.
    have doubles : 2 ≤ policy.backoffFactor.toNat := by
      have other : policy.backoffFactor.toNat ≠ 1 := fun one => same (UInt32.toNat_inj.mp one)
      omega
    obtain ⟨state, found⟩ := backoff.takesPlace 64 fun _ => by decide
    have capped := (backoff.lasts 64 state found).trans (delay_eq_cap none doubles)
    have fits := backoff.fits 64 state found
    have factor : state.backoffFactor = policy.backoffFactor := by rw [(after_frame found).2]
    rw [factor, show state.currentDelayMs.toNat = _ from capped] at fits
    exact .inr (.inr fits)

end ReconnectPolicy

/-- The waits follow their closed form exactly for the moderate policies. -/
theorem backoff_iff_moderate (profile : Profile) (policy : ReconnectPolicy) (positive : 1 ≤ policy.backoffFactor) :
    policy.Backoff profile ↔ policy.Moderate :=
  have grows : 1 ≤ policy.backoffFactor.toNat := UInt32.le_iff_toNat_le.mp positive
  ⟨fun backoff => backoff.moderate grows, fun moderate => moderate.backoff grows profile⟩

/-- One second, then two, and never more than thirty. -/
theorem backoff_iff_moderate_default : ReconnectPolicy.defaultPolicy.Backoff .dev :=
  (backoff_iff_moderate .dev .defaultPolicy (by decide)).mpr ⟨by decide, .inr (.inr (by decide))⟩

/-- The first wait is longer than the cap, and a product of a delay within the largest cap does not fit: it panics or
wraps to no delay at all. -/
theorem backoff_exceeds_cap :
    (¬∀ (profile : Profile) (policy : ReconnectPolicy), 1 ≤ policy.backoffFactor → policy.Backoff profile) ∧
    ((ReconnectPolicy.new 60000 30000).reset.waitAndAdvance .dev).1 = 60000 ∧
    ((ReconnectPolicy.new 0x8000000000000000 0xFFFFFFFFFFFFFFFF).reset.waitAndAdvance .dev).2 = .panic .overflow ∧
    (ReconnectPolicy.new 0x8000000000000000 0xFFFFFFFFFFFFFFFF).after .release 1 =
      .ok ⟨0x8000000000000000, 0xFFFFFFFFFFFFFFFF, 2, 0, 0, 1⟩ := by
  refine ⟨fun every => ?_, by decide, by decide +kernel, by decide +kernel⟩
  have capped := (every .dev (.new 60000 30000) (by decide)).capped 0 _ rfl
  revert capped
  decide

end ZenohRos2
