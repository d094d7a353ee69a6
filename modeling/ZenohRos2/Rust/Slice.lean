import ZenohRos2.Rust.Outcome

/-! Slices, and integer arithmetic with overflow checks.

A slice is a list, and a position in it is a natural bounded by the pointer
width of the target. No Rust allocation is longer than `isize::MAX` bytes,
which `Addressable` records.
-/

set_option autoImplicit false

namespace Rust

section Access
variable {ε α : Type}

/-- `buf[position]` -/
def index (buf : List α) (position : Nat) : Outcome ε α :=
  if inside : position < buf.length then .ok buf[position] else .panic .outOfBounds

/-- `&buf[start..]` -/
def sliceFrom (buf : List α) (start : Nat) : Outcome ε (List α) :=
  if start ≤ buf.length then .ok (buf.drop start) else .panic .outOfBounds

/-- `&buf[start..stop]` -/
def sliceRange (buf : List α) (start stop : Nat) : Outcome ε (List α) :=
  if start ≤ stop ∧ stop ≤ buf.length then .ok ((buf.take stop).drop start)
  else .panic .outOfBounds

theorem index_eq {buf : List α} {position : Nat} (inside : position < buf.length) :
    (index buf position : Outcome ε α) = .ok buf[position] := dif_pos inside

theorem index_of_drop {buf rest : List α} {position : Nat} {head : α}
    (found : buf.drop position = head :: rest) :
    (index buf position : Outcome ε α) = .ok head := by
  have inside : position < buf.length := by
    have length := congrArg List.length found
    simp only [List.length_drop, List.length_cons] at length
    omega
  rw [index_eq inside]
  rw [List.drop_eq_getElem_cons inside] at found
  rw [(List.cons.inj found).1]

theorem sliceFrom_eq {buf : List α} {start : Nat} (inside : start ≤ buf.length) :
    (sliceFrom buf start : Outcome ε (List α)) = .ok (buf.drop start) := if_pos inside

theorem sliceRange_eq_ok {buf part : List α} {start stop : Nat} :
    (sliceRange buf start stop : Outcome ε (List α)) = .ok part ↔
      (start ≤ stop ∧ stop ≤ buf.length) ∧ (buf.take stop).drop start = part := by
  unfold sliceRange
  split <;> simp [*]

theorem returns_index {buf : List α} {position : Nat} (inside : position < buf.length)
    (post : α → Prop) :
    (index buf position : Outcome ε α).Returns post ↔ post buf[position] := by
  rw [index_eq inside, Outcome.returns_ok]

theorem returns_sliceRange (buf : List α) (start stop : Nat) (post : List α → Prop) :
    (sliceRange buf start stop : Outcome ε (List α)).Returns post ↔
      (start ≤ stop ∧ stop ≤ buf.length) ∧ post ((buf.take stop).drop start) := by
  unfold sliceRange
  split <;> simp [*]

end Access

/-- The compilation target: `usize` is 32 or 64 bits wide. -/
class Target where
  pointerWidth : Nat
  supported : pointerWidth = 32 ∨ pointerWidth = 64

@[reducible] def target32 : Target := ⟨32, .inl rfl⟩
@[reducible] def target64 : Target := ⟨64, .inr rfl⟩

section Usize
variable [Target] {ε α : Type}

def usizeSize : Nat := 2 ^ Target.pointerWidth

def isizeMax : Nat := 2 ^ (Target.pointerWidth - 1) - 1

def Addressable (buf : List α) : Prop := buf.length ≤ isizeMax

instance (buf : List α) : Decidable (Addressable buf) := inferInstanceAs (Decidable (_ ≤ _))

/-- `a + b` with overflow checks. -/
def usizeAdd (a b : Nat) : Outcome ε Nat :=
  if a + b < usizeSize then .ok (a + b) else .panic .overflow

/-- `value as usize` keeps the low bits. -/
def asUsize (value : UInt64) : Nat := value.toNat % usizeSize

theorem usizeSize_eq : usizeSize = 2 * (isizeMax + 1) := by
  rcases Target.supported with width | width <;> simp [usizeSize, isizeMax, width]

theorem usizeSize_le : usizeSize ≤ 2 ^ 64 := by
  rcases Target.supported with width | width <;> simp [usizeSize, width]

theorem le_usizeSize : 2 ^ 32 ≤ usizeSize := by
  rcases Target.supported with width | width <;> simp [usizeSize, width]

theorem le_isizeMax {length : Nat} (short : length < 2 ^ 31) : length ≤ isizeMax := by
  rcases Target.supported with width | width <;> simp only [isizeMax, width] <;> omega

theorem Addressable.of_length_le {buf other : List α} (addressable : Addressable buf)
    (le : other.length ≤ buf.length) : Addressable other :=
  Nat.le_trans le addressable

theorem Addressable.drop {buf : List α} (addressable : Addressable buf) (start : Nat) :
    Addressable (buf.drop start) :=
  addressable.of_length_le (by simp)

-- Two positions in one allocation are at most `isize::MAX` each, so their sum never overflows.
theorem Addressable.lt_usizeSize {buf : List α} (addressable : Addressable buf) {a b : Nat}
    (left : a ≤ buf.length) (right : b ≤ buf.length) : a + b < usizeSize := by
  have bound : buf.length ≤ isizeMax := addressable
  rw [usizeSize_eq]
  omega

theorem usizeAdd_eq {a b : Nat} (fits : a + b < usizeSize) :
    (usizeAdd a b : Outcome ε Nat) = .ok (a + b) := if_pos fits

theorem usizeAdd_eq_ok {a b sum : Nat} :
    (usizeAdd a b : Outcome ε Nat) = .ok sum ↔ a + b < usizeSize ∧ a + b = sum := by
  unfold usizeAdd
  split <;> simp [*]

@[simp] theorem returns_usizeAdd (a b : Nat) (post : Nat → Prop) :
    (usizeAdd a b : Outcome ε Nat).Returns post ↔ a + b < usizeSize ∧ post (a + b) := by
  unfold usizeAdd
  split <;> simp [*]

theorem asUsize_of_lt {value : UInt64} (small : value.toNat < usizeSize) :
    asUsize value = value.toNat := Nat.mod_eq_of_lt small

end Usize

section Fixed
variable {ε : Type}

def u32Add (a b : Nat) : Outcome ε Nat :=
  if a + b < 2 ^ 32 then .ok (a + b) else .panic .overflow

def u8Sub (a b : UInt8) : Outcome ε UInt8 :=
  if b ≤ a then .ok (a - b) else .panic .overflow

/-- `value << shift` on `u64` with overflow checks: bits shifted out are lost
silently, only the shift itself is checked. -/
def u64Shl (value : UInt64) (shift : Nat) : Outcome ε UInt64 :=
  if shift < 64 then .ok (value <<< UInt64.ofNat shift) else .panic .overflow

theorem toNat_max (a b : UInt64) : (max a b).toNat = max a.toNat b.toNat := apply_ite UInt64.toNat _ _ _

theorem toNat_min (a b : UInt64) : (min a b).toNat = min a.toNat b.toNat := apply_ite UInt64.toNat _ _ _

def u64Mul (a b : UInt64) : Outcome ε UInt64 :=
  if a.toNat * b.toNat < 2 ^ 64 then .ok (a * b) else .panic .overflow

@[simp] theorem returns_u64Mul (a b : UInt64) (post : UInt64 → Prop) :
    (u64Mul a b : Outcome ε UInt64).Returns post ↔ a.toNat * b.toNat < 2 ^ 64 ∧ post (a * b) := by
  unfold u64Mul
  by_cases small : a.toNat * b.toNat < 2 ^ 64
  · rw [if_pos small, Outcome.returns_ok]
    exact ⟨fun holds => ⟨small, holds⟩, And.right⟩
  · rw [if_neg small, Outcome.returns_panic]
    exact ⟨False.elim, fun both => small both.1⟩

end Fixed
end Rust
