import Mathlib.Data.List.Nodup
import Mathlib.Data.List.Perm.Subperm
import Mathlib.Data.List.Range
import Mathlib.Data.Nat.ModEq

/-! Numbers that a counter gives out, and that come again when it wraps.

One number is reserved. A ledger has the numbers that were granted, each with how
many had been taken before it; a number that is taken need not be granted.
-/

set_option autoImplicit false

namespace Counter
variable {κ : Type} {size : Nat} {number : Nat → κ} {reserved : κ}

/-- The numbers come again after `size` of them, of which the reserved one is the last. -/
structure Wraps (size : Nat) (number : Nat → κ) (reserved : κ) : Prop where
  again : ∀ {m n : Nat}, number m = number n ↔ m ≡ n [MOD size]
  last : ∀ {n : Nat}, number n = reserved ↔ size ∣ n + 1

abbrev Ledger (κ : Type) := List (Nat × κ)

def Counted (number : Nat → κ) (ledger : Ledger κ) : Prop := ∀ granted ∈ ledger, granted.2 = number granted.1

/-- What is granted is in nobody else's hands, and nothing is when all of it is. -/
structure Proper (size : Nat) (reserved : κ) (ledger : Ledger κ) : Prop where
  free : ∀ granted ∈ ledger, granted.2 ≠ reserved
  distinct : (ledger.map (·.2)).Nodup
  within : ledger.length < size

/-- The next number is not the reserved one, nor one that was granted a number of rounds ago. -/
def FirstTime (size : Nat) (ledger : Ledger κ) (taken : Nat) : Prop :=
  ¬size ∣ taken + 1 ∧ ∀ granted ∈ ledger, ¬granted.1 ≡ taken [MOD size]

theorem not_dvd_succ_iff (positive : 0 < size) (n : Nat) : ¬size ∣ n + 1 ↔ n % size < size - 1 := by
  have bound := Nat.mod_lt n positive
  rw [Nat.dvd_iff_mod_eq_zero, Nat.add_mod]
  by_cases one : size = 1
  · subst one
    simp [Nat.mod_one]
  · rw [Nat.mod_eq_of_lt (show 1 < size by omega)]
    by_cases small : n % size < size - 1
    · rw [Nat.mod_eq_of_lt (by omega)]
      omega
    · rw [show n % size + 1 = size by omega, Nat.mod_self]
      omega

variable {ledger : Ledger κ}

theorem length_lt (positive : 0 < size) (wraps : Wraps size number reserved) (counted : Counted number ledger)
    (free : ∀ granted ∈ ledger, granted.2 ≠ reserved) (distinct : (ledger.map (·.2)).Nodup) :
    ledger.length < size := by
  have places : (ledger.map (·.1 % size)).Nodup := by
    apply List.Pairwise.map _ _ (List.Pairwise.and_mem.mp (List.pairwise_map.mp distinct))
    rintro one other ⟨here, there, differ⟩ same
    rw [counted one here, counted other there] at differ
    exact differ (wraps.again.mpr same)
  have inside : ledger.map (·.1 % size) ⊆ List.range (size - 1) := by
    intro place member
    obtain ⟨granted, here, rfl⟩ := List.mem_map.mp member
    have unreserved := free granted here
    rw [counted granted here, ne_eq, wraps.last, not_dvd_succ_iff positive] at unreserved
    exact List.mem_range.mpr unreserved
  have few := (List.subperm_of_subset places inside).length_le
  rw [List.length_map, List.length_range] at few
  omega

theorem Counted.snoc (counted : Counted number ledger) (taken : Nat) :
    Counted number (ledger ++ [(taken, number taken)]) := by
  intro granted member
  rcases List.mem_append.mp member with before | new
  · exact counted granted before
  · rw [List.mem_singleton.mp new]

theorem Proper.snoc_iff (positive : 0 < size) (wraps : Wraps size number reserved) (counted : Counted number ledger)
    (proper : Proper size reserved ledger) (taken : Nat) :
    Proper size reserved (ledger ++ [(taken, number taken)]) ↔ FirstTime size ledger taken := by
  have earlier : (∀ granted ∈ ledger, granted.2 ≠ number taken) ↔ ∀ granted ∈ ledger, ¬granted.1 ≡ taken [MOD size] :=
    forall₂_congr fun granted member => by rw [counted granted member, ne_eq, wraps.again]
  have distinct_iff : ((ledger ++ [(taken, number taken)]).map (·.2)).Nodup ↔
      ∀ granted ∈ ledger, granted.2 ≠ number taken := by
    rw [List.map_append, List.nodup_append]
    simp only [proper.distinct, List.map_cons, List.map_nil, List.nodup_singleton, true_and, List.mem_map,
      List.mem_singleton, forall_eq, forall_exists_index, and_imp]
    exact ⟨fun all granted member => all _ granted member rfl, fun all _ granted member same => same ▸ all granted member⟩
  constructor
  · intro after
    refine ⟨?_, earlier.mp (distinct_iff.mp after.distinct)⟩
    exact mt wraps.last.mpr (after.free _ (List.mem_append_right _ List.mem_cons_self))
  · rintro ⟨unreserved, apart⟩
    have free : ∀ granted ∈ ledger ++ [(taken, number taken)], granted.2 ≠ reserved := by
      intro granted member
      rcases List.mem_append.mp member with before | new
      · exact proper.free granted before
      · rw [List.mem_singleton.mp new]
        exact mt wraps.last.mp unreserved
    have distinct := distinct_iff.mpr (earlier.mpr apart)
    exact ⟨free, distinct, length_lt positive wraps (counted.snoc taken) free distinct⟩

/-- A `u16` that starts at 1, after some numbers were taken from it. -/
def uint16 (taken : Nat) : UInt16 := UInt16.ofNat (taken + 1)

theorem uint16_succ (taken : Nat) : uint16 (taken + 1) = uint16 taken + 1 := UInt16.ofNat_add (taken + 1) 1

theorem wraps_uint16 : Wraps (2 ^ 16) uint16 0 where
  again {m n} := by
    rw [uint16, uint16, ← UInt16.toNat_inj, UInt16.toNat_ofNat', UInt16.toNat_ofNat']
    exact ⟨Nat.ModEq.add_right_cancel' 1, Nat.ModEq.add_right 1⟩
  last {n} := by
    rw [uint16, ← UInt16.toNat_inj, UInt16.toNat_ofNat', Nat.dvd_iff_mod_eq_zero]
    rfl

end Counter
