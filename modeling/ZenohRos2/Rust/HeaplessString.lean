import Mathlib.Algebra.Group.Nat.Defs
import Std

/-! Strings of fixed capacity: a push that does not fit fails and changes nothing. -/

set_option autoImplicit false

namespace Rust

/-- UTF-8 text of at most `capacity` bytes. -/
@[ext]
structure HeaplessString (capacity : Nat) where
  text : String
  fits : text.utf8ByteSize ≤ capacity
  deriving DecidableEq

namespace HeaplessString
variable {capacity : Nat}

def empty : HeaplessString capacity := ⟨"", Nat.zero_le _⟩

def pushStr (string : HeaplessString capacity) (text : String) : Option (HeaplessString capacity) :=
  if fits : (string.text ++ text).utf8ByteSize ≤ capacity then some ⟨string.text ++ text, fits⟩ else none

def push (string : HeaplessString capacity) (char : Char) : Option (HeaplessString capacity) :=
  string.pushStr (String.singleton char)

/-- The decimal digits of a positive number, filled in from the last one. -/
def digitsLoop : Nat → Nat → List Char
  | 0, _ => []
  | room + 1, value =>
    if 0 < value then digitsLoop room (value / 10) ++ [Char.ofNat ('0'.toNat + value % 10)] else []

/-- The decimal digits of a `u32`, at most ten of them. -/
def pushU32 (string : HeaplessString capacity) (value : UInt32) : Option (HeaplessString capacity) :=
  if value = 0 then string.push '0' else string.pushStr (String.ofList (digitsLoop 10 value.toNat))

/-- The builder pushes these characters: all of them, or it fails. -/
def Appends (build : HeaplessString capacity → Option (HeaplessString capacity)) (chars : List Char) : Prop :=
  ∀ string, build string = string.pushStr (String.ofList chars)

section Builders
variable {build next : HeaplessString capacity → Option (HeaplessString capacity)} {chars more : List Char}

theorem pushStr_append (string : HeaplessString capacity) (first second : String) :
    (string.pushStr first).bind (·.pushStr second) = string.pushStr (first ++ second) := by
  by_cases fits : (string.text ++ first).utf8ByteSize ≤ capacity
  · simp only [pushStr, dif_pos fits, Option.bind_some, String.append_assoc]
  · have full : ¬(string.text ++ (first ++ second)).utf8ByteSize ≤ capacity := by
      rw [String.utf8ByteSize_append] at fits ⊢
      rw [String.utf8ByteSize_append]
      omega
    simp only [pushStr, dif_neg fits, dif_neg full, Option.bind_none]

theorem appends_pushStr (text : String) : @Appends capacity (·.pushStr text) text.toList := by
  intro string
  rw [String.ofList_toList]

theorem appends_push (char : Char) : @Appends capacity (·.push char) [char] := by
  intro string
  change string.pushStr (String.singleton char) = _
  rw [String.singleton_eq_ofList]

theorem appends_some : @Appends capacity some [] := by
  intro string
  obtain ⟨text, fits⟩ := string
  have same : text ++ String.ofList [] = text := String.append_empty
  simp only [pushStr, same, dif_pos fits]

theorem Appends.bind (first : Appends build chars) (second : Appends next more) :
    Appends (fun string => (build string).bind next) (chars ++ more) := by
  intro string
  have whole : next = fun string => string.pushStr (String.ofList more) := funext second
  change (build string).bind next = _
  rw [first, whole, pushStr_append, String.ofList_append]

theorem appends_foldlM {α : Type} {step : HeaplessString capacity → α → Option (HeaplessString capacity)}
    {text : α → List Char} (each : ∀ item, Appends (step · item) (text item)) (items : List α) :
    Appends (items.foldlM step) (items.flatMap text) := by
  induction items with
  | nil => exact appends_some
  | cons item rest ih =>
    rw [List.flatMap_cons]
    exact (each item).bind ih

def decimal (value : UInt32) : List Char := if value = 0 then ['0'] else digitsLoop 10 value.toNat

theorem appends_pushU32 (value : UInt32) : @Appends capacity (·.pushU32 value) (decimal value) := by
  intro string
  unfold pushU32 decimal
  split
  · exact appends_push '0' string
  · rfl

theorem Appends.build_empty (appends : Appends build chars) :
    build empty =
      if fits : (String.ofList chars).utf8ByteSize ≤ capacity then some ⟨String.ofList chars, fits⟩ else none := by
  have same : "" ++ String.ofList chars = String.ofList chars := String.empty_append
  rw [appends]
  simp only [pushStr, empty, same]

theorem toList_of_build {string : HeaplessString capacity}
    (built : (if fits : (String.ofList chars).utf8ByteSize ≤ capacity then
      some (⟨String.ofList chars, fits⟩ : HeaplessString capacity) else none) = some string) :
    string.text.toList = chars := by
  obtain ⟨fits, same⟩ := Option.dite_none_right_eq_some.mp built
  cases same
  exact String.toList_ofList

end Builders

section Decimals

theorem digitChar_eq {digit : Nat} (small : digit < 10) : Char.ofNat ('0'.toNat + digit) = digit.digitChar := by
  match digit with
  | 0 | 1 | 2 | 3 | 4 | 5 | 6 | 7 | 8 | 9 => rfl

theorem digitsLoop_zero (room : Nat) : digitsLoop room 0 = [] := by
  cases room <;> rfl

theorem digitsLoop_eq {room value : Nat} (positive : 0 < value) (fits : value < 10 ^ room) :
    digitsLoop room value = Nat.toDigits 10 value := by
  induction room generalizing value with
  | zero => omega
  | succ room ih =>
    rw [digitsLoop, if_pos positive, digitChar_eq (Nat.mod_lt _ (by decide)), Nat.toDigits_eq_if (by decide)]
    by_cases last : value < 10
    · rw [if_pos last, Nat.div_eq_of_lt last, Nat.mod_eq_of_lt last, digitsLoop_zero, List.nil_append]
    · rw [if_neg last, ih (by omega) (by rw [Nat.pow_succ] at fits; omega)]

theorem decimal_eq (value : UInt32) : decimal value = Nat.toDigits 10 value.toNat := by
  unfold decimal
  by_cases zero : value = 0
  · rw [if_pos zero, zero]
    rfl
  · have positive : 0 < value.toNat := Nat.pos_of_ne_zero fun none => zero (UInt32.toNat_inj.mp none)
    rw [if_neg zero]
    exact digitsLoop_eq positive (Nat.lt_trans value.toNat_lt (by decide))

theorem ofList_decimal (value : UInt32) : String.ofList (decimal value) = Nat.repr value.toNat := by
  rw [decimal_eq, ← Nat.repr_eq_ofList_toDigits]

theorem isDigit_of_mem_decimal {value : UInt32} {c : Char} (member : c ∈ decimal value) : c.isDigit := by
  rw [decimal_eq] at member
  exact Nat.isDigit_of_mem_toDigits (by decide) (by decide) member

theorem length_decimal_le (value : UInt32) : (decimal value).length ≤ 10 := by
  rw [decimal_eq, Nat.length_toDigits_le_iff (by decide) (by decide)]
  exact Nat.lt_of_lt_of_le value.toNat_lt (by decide)

theorem decimal_inj {a b : UInt32} (same : decimal a = decimal b) : a = b := by
  have text := congrArg String.ofList same
  rw [ofList_decimal, ofList_decimal] at text
  exact UInt32.toNat_inj.mp (Nat.repr_injective text)

end Decimals
end HeaplessString
end Rust
