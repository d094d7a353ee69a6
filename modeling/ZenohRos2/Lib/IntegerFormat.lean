import Mathlib.Algebra.BigOperators.Ring.List
import Mathlib.Algebra.Ring.Nat

/-! Byte formats of naturals: unsigned LEB128, and fixed-width little endian.

A LEB128 code word holds groups of seven bits, the least significant first. It
is a run of continuation bytes and one last byte below 128, so no word is a
proper prefix of another and a reader finds its end by itself. The writer emits
the shortest word of a number; a reader accepts longer ones too.
-/

set_option autoImplicit false

namespace Leb128

def value : List UInt8 → Nat
  | [] => 0
  | group :: rest => group.toNat % 128 + 128 * value rest

inductive Word : List UInt8 → Prop where
  | last {group : UInt8} (low : group.toNat < 128) : Word [group]
  | more {group : UInt8} {rest : List UInt8} (high : 128 ≤ group.toNat) (word : Word rest) :
      Word (group :: rest)

/-- The shortest word of a number. -/
def encode (n : Nat) : List UInt8 :=
  if n < 128 then [UInt8.ofNat n] else UInt8.ofNat (n % 128 + 128) :: encode (n / 128)

-- `encode` is well-founded and does not unfold by itself: these are its two equations.
theorem encode_of_lt {n : Nat} (low : n < 128) : encode n = [UInt8.ofNat n] := by
  rw [encode, if_pos low]

theorem encode_of_le {n : Nat} (high : 128 ≤ n) :
    encode n = UInt8.ofNat (n % 128 + 128) :: encode (n / 128) := by
  rw [encode, if_neg (by omega)]

theorem Word.length_pos {bytes : List UInt8} (word : Word bytes) : 0 < bytes.length := by
  cases word <;> simp

theorem word_encode (n : Nat) : Word (encode n) := by
  induction n using encode.induct with
  | case1 n low =>
    rw [encode_of_lt low]
    exact .last (by rw [UInt8.toNat_ofNat']; omega)
  | case2 n high ih =>
    rw [encode_of_le (by omega)]
    exact .more (by rw [UInt8.toNat_ofNat']; omega) ih

theorem value_encode (n : Nat) : value (encode n) = n := by
  induction n using encode.induct with
  | case1 n low =>
    rw [encode_of_lt low]
    simp only [value, UInt8.toNat_ofNat']
    omega
  | case2 n high ih =>
    rw [encode_of_le (by omega)]
    simp only [value, UInt8.toNat_ofNat', ih]
    omega

theorem Word.eq_of_append {left right : List UInt8} (one : Word left) (two : Word right)
    {rest tail : List UInt8} (same : left ++ rest = right ++ tail) : left = right ∧ rest = tail := by
  -- Equal first bytes have the same high bit, so both words end at the same byte.
  induction one generalizing right with
  | @last group low =>
    cases two with
    | last _ => simpa using same
    | more high _ =>
      obtain ⟨head, -⟩ := List.cons.inj same
      subst head
      omega
  | @more group bytes high _ ih =>
    cases two with
    | last low =>
      obtain ⟨head, -⟩ := List.cons.inj same
      subst head
      omega
    | more _ word =>
      obtain ⟨head, more⟩ := List.cons.inj same
      obtain ⟨inner, outer⟩ := ih word more
      exact ⟨by rw [head, inner], outer⟩

theorem value_lt (bytes : List UInt8) : value bytes < 128 ^ bytes.length := by
  induction bytes with
  | nil => decide
  | cons group rest ih =>
    rw [value, List.length_cons, Nat.pow_succ]
    have low := Nat.mod_lt group.toNat (show 0 < 128 by decide)
    omega

theorem value_concat (front : List UInt8) (group : UInt8) :
    value (front ++ [group]) = value front + 128 ^ front.length * (group.toNat % 128) := by
  induction front with
  | nil => simp [value]
  | cons first rest ih =>
    simp only [List.cons_append, value, ih, List.length_cons, Nat.pow_succ, Nat.mul_add]
    rw [Nat.mul_comm (128 ^ rest.length) 128, Nat.mul_assoc]
    omega

theorem value_eq_sum (bytes : List UInt8) :
    value bytes = ((List.range bytes.length).map fun i => (bytes.getD i 0).toNat % 128 * 128 ^ i).sum := by
  induction bytes with
  | nil => rfl
  | cons group rest ih =>
    have shifted : (List.range rest.length).map (fun i => (rest.getD i 0).toNat % 128 * 128 ^ (i + 1)) =
        (List.range rest.length).map fun i => 128 * ((rest.getD i 0).toNat % 128 * 128 ^ i) := by
      apply List.map_congr_left
      intro i _
      rw [Nat.pow_succ, ← Nat.mul_assoc, Nat.mul_comm]
    rw [value, ih, List.length_cons, List.range_succ_eq_map, List.map_cons, List.sum_cons, List.map_map]
    change _ = _ + ((List.range rest.length).map fun i => (rest.getD i 0).toNat % 128 * 128 ^ (i + 1)).sum
    rw [shifted, List.sum_map_mul_left]
    simp

theorem word_concat {front : List UInt8} {last : UInt8} :
    Word (front ++ [last]) ↔ (∀ group ∈ front, 128 ≤ group.toNat) ∧ last.toNat < 128 := by
  induction front with
  | nil =>
    constructor
    · intro word
      cases word with
      | last low => exact ⟨by simp, low⟩
      | more _ word => cases word
    · exact fun both => .last both.2
  | cons group rest ih =>
    rw [List.forall_mem_cons, and_assoc, ← ih]
    constructor
    · intro word
      rw [List.cons_append] at word
      generalize tail : rest ++ [last] = bytes at word
      cases word with
      | last _ => simp at tail
      | more high word => exact ⟨high, tail ▸ word⟩
    · exact fun both => .more both.1 both.2

theorem encode_length_le (groups n : Nat) (small : n < 128 ^ (groups + 1)) :
    (encode n).length ≤ groups + 1 := by
  induction groups generalizing n with
  | zero =>
    rw [encode_of_lt (by simpa using small)]
    simp
  | succ groups ih =>
    by_cases low : n < 128
    · rw [encode_of_lt low]
      simp
    · rw [encode_of_le (by omega), List.length_cons]
      have next : n / 128 < 128 ^ (groups + 1) := by
        rw [Nat.div_lt_iff_lt_mul (by decide)]
        rwa [Nat.pow_succ] at small
      exact Nat.succ_le_succ (ih _ next)

theorem encode_length_pos (n : Nat) : 0 < (encode n).length := (word_encode n).length_pos

theorem encode_uint64_length_le (n : UInt64) : (encode n.toNat).length ≤ 10 :=
  encode_length_le 9 _ (Nat.lt_of_lt_of_le n.toNat_lt (by decide))

end Leb128

namespace LittleEndian

def encode : Nat → Nat → List UInt8
  | 0, _ => []
  | count + 1, n => UInt8.ofNat n :: encode count (n / 256)

def value : List UInt8 → Nat
  | [] => 0
  | byte :: rest => byte.toNat + 256 * value rest

@[simp] theorem encode_length (count n : Nat) : (encode count n).length = count := by
  induction count generalizing n with
  | zero => rfl
  | succ count ih => simp [encode, ih]

theorem value_encode (count n : Nat) : value (encode count n) = n % 256 ^ count := by
  induction count generalizing n with
  | zero => simp [encode, value, Nat.mod_one]
  | succ count ih =>
    have split : n % 256 ^ (count + 1) = n % 256 + 256 * (n / 256 % 256 ^ count) := by
      rw [Nat.pow_succ, Nat.mul_comm, Nat.mod_mul]
    simp only [encode, value, ih, UInt8.toNat_ofNat', split]

theorem value_encode_of_lt {count n : Nat} (small : n < 256 ^ count) : value (encode count n) = n := by
  rw [value_encode, Nat.mod_eq_of_lt small]

theorem value_lt (bytes : List UInt8) : value bytes < 256 ^ bytes.length := by
  induction bytes with
  | nil => decide
  | cons byte rest ih =>
    have low := byte.toNat_lt
    rw [value, List.length_cons, Nat.pow_succ]
    omega

theorem encode_value (bytes : List UInt8) : encode bytes.length (value bytes) = bytes := by
  induction bytes with
  | nil => rfl
  | cons byte rest ih =>
    have low := byte.toNat_lt
    have next : (byte.toNat + 256 * value rest) / 256 = value rest := by omega
    have first : UInt8.ofNat (byte.toNat + 256 * value rest) = byte := by
      apply UInt8.toNat_inj.mp
      rw [UInt8.toNat_ofNat']
      omega
    rw [List.length_cons, encode, value, next, first, ih]

end LittleEndian
