import ZenohRos2.Ros2.Names

/-! The quality of service in a liveliness token.

A field that has the value of the `rmw` baseline is left empty. A reader that
puts the baseline in its place finds the value that was written.
-/

set_option autoImplicit false

namespace ZenohRos2
open Rust HeaplessString

section Reading

/-- An empty field stands for its baseline, any other for its decimal number. -/
def readField (baseline : Nat) (field : List Char) : Option Nat :=
  if field = [] then some baseline else (String.ofList field).toNat?

def Reliability.read : Nat → Option Reliability
  | 1 => some .reliable
  | 2 => some .bestEffort
  | _ => none

def Durability.read : Nat → Option Durability
  | 1 => some .transientLocal
  | 2 => some .volatile
  | _ => none

/-- A history that keeps all has the depth 0. -/
def History.read (kind depth : Nat) : Option History :=
  match kind with
  | 1 => if depth < 2 ^ 32 then some (.keepLast (UInt32.ofNat depth)) else none
  | 2 => if depth = 0 then some .keepAll else none
  | _ => none

/-- The baseline is reliable, volatile, and keeps the last 42. -/
def readQos (text : List Char) : Option Qos :=
  match (text.splitOn ':').map (·.splitOn ',') with
  | [[reliability], [durability], [history, depth], [_, _], [_, _], [_, _, _]] => do
    let reliability ← Reliability.read (← readField 1 reliability)
    let durability ← Durability.read (← readField 2 durability)
    let history ← History.read (← readField 1 history) (← readField 42 depth)
    return ⟨reliability, durability, history⟩
  | _ => none

end Reading

section Building
variable {capacity : Nat}

def unlessBaseline {α : Type} [DecidableEq α] (value baseline : α) (digits : List Char) : List Char :=
  if value ≠ baseline then digits else []

theorem appends_unlessBaseline {α : Type} [DecidableEq α] (value baseline : α) {digits more : List Char}
    {build next : HeaplessString capacity → Option (HeaplessString capacity)} (field : Appends build digits)
    (rest : Appends next more) :
    Appends (fun string => if value ≠ baseline then (build string).bind next else (some string).bind next)
      (unlessBaseline value baseline digits ++ more) := by
  unfold unlessBaseline
  by_cases same : value ≠ baseline
  · simp only [if_pos same]
    exact field.bind rest
  · simp only [if_neg same]
    exact appends_some.bind rest

theorem appends_pushU8 {value : UInt8} (small : value < 10) :
    @Appends capacity (Qos.pushU8 · value) [value.toNat.digitChar] := by
  have below : value.toNat < 10 := small
  have units : (value % 10).toNat = value.toNat := by
    rw [UInt8.toNat_mod]
    exact Nat.mod_eq_of_lt below
  have tens : ¬value ≥ 10 := UInt8.not_le.mpr small
  have hundreds : ¬value ≥ 100 := UInt8.not_le.mpr (UInt8.lt_trans small (by decide))
  intro string
  have digit : Qos.pushU8 string value = string.push (Char.ofNat ('0'.toNat + (value % 10).toNat)) := by
    simp [Qos.pushU8, tens, hundreds]
  change Qos.pushU8 string value = _
  rw [digit, units, digitChar_eq below]
  exact appends_push _ string

theorem Reliability.rmwValue_lt (reliability : Reliability) : reliability.rmwValue < 10 := by
  cases reliability <;> decide

theorem Durability.rmwValue_lt (durability : Durability) : durability.rmwValue < 10 := by
  cases durability <;> decide

theorem History.rmwValue_lt (history : History) : history.rmwValue < 10 := by
  cases history with
  | keepLast depth => exact show (1 : UInt8) < 10 by decide
  | keepAll => decide

namespace Qos

def reliabilityField (qos : Qos) : List Char :=
  unlessBaseline qos.reliability.rmwValue rmwDefaultReliability [qos.reliability.rmwValue.toNat.digitChar]

def durabilityField (qos : Qos) : List Char :=
  unlessBaseline qos.durability.rmwValue rmwDefaultDurability [qos.durability.rmwValue.toNat.digitChar]

def historyField (qos : Qos) : List Char :=
  unlessBaseline qos.history.rmwValue rmwDefaultHistory [qos.history.rmwValue.toNat.digitChar]

def depthField (qos : Qos) : List Char :=
  unlessBaseline qos.history.depth rmwDefaultDepth (decimal qos.history.depth)

def fields (qos : Qos) : List (List Char) :=
  [qos.reliabilityField, qos.durabilityField, qos.historyField ++ ',' :: qos.depthField, [','], [','], [',', ',']]

def chars (qos : Qos) : List Char := [':'].intercalate qos.fields

theorem chars_eq (qos : Qos) : qos.chars =
    qos.reliabilityField ++ ([':'] ++ (qos.durabilityField ++ ([':'] ++ (qos.historyField ++ ([','] ++
    (qos.depthField ++ ([':'] ++ ([','] ++ ([':'] ++ ([','] ++ ([':'] ++ ([','] ++ [','])))))))))))) := by
  simp [chars, fields, List.intercalate]

theorem toRmwQosKeyexpr_eq (qos : Qos) : qos.toRmwQosKeyexpr =
    if fits : (String.ofList qos.chars).utf8ByteSize ≤ maxQosKeyexprLen then some ⟨String.ofList qos.chars, fits⟩
    else none := by
  rw [chars_eq]
  refine Appends.build_empty (appends_unlessBaseline _ rmwDefaultReliability
    (appends_pushU8 qos.reliability.rmwValue_lt) ?_)
  apply (appends_push ':').bind
  apply appends_unlessBaseline _ rmwDefaultDurability (appends_pushU8 qos.durability.rmwValue_lt)
  apply (appends_push ':').bind
  apply appends_unlessBaseline _ rmwDefaultHistory (appends_pushU8 qos.history.rmwValue_lt)
  apply (appends_push ',').bind
  apply appends_unlessBaseline _ rmwDefaultDepth (appends_pushU32 qos.history.depth)
  apply (appends_push ':').bind
  apply (appends_push ',').bind
  apply (appends_push ':').bind
  apply (appends_push ',').bind
  apply (appends_push ':').bind
  exact (appends_push ',').bind (appends_push ',')

end Qos
end Building

section RoundTrip

def Numeric (field : List Char) : Prop := ∀ char ∈ field, char.isDigit

theorem Numeric.notMem {field : List Char} (numeric : Numeric field) {sep : Char} (other : ¬sep.isDigit = true) :
    sep ∉ field := fun member => other (numeric sep member)

theorem numeric_unlessBaseline {α : Type} [DecidableEq α] (value baseline : α) {digits : List Char}
    (numeric : Numeric digits) : Numeric (unlessBaseline value baseline digits) := by
  unfold unlessBaseline
  split
  · exact numeric
  · exact fun _ member => absurd member List.not_mem_nil

theorem numeric_decimal (value : UInt32) : Numeric (decimal value) := fun _ member => isDigit_of_mem_decimal member

theorem digitChar_eq_toDigits {value : UInt8} (small : value < 10) :
    [value.toNat.digitChar] = Nat.toDigits 10 value.toNat := (Nat.toDigits_of_lt_base small).symm

theorem numeric_digitChar {value : UInt8} (small : value < 10) : Numeric [value.toNat.digitChar] := by
  rw [digitChar_eq_toDigits small]
  exact fun _ member => Nat.isDigit_of_mem_toDigits (by decide) (by decide) member

theorem readField_unlessBaseline {α : Type} [DecidableEq α] (value baseline : α) {n default : Nat}
    (same : value = baseline → n = default) :
    readField default (unlessBaseline value baseline (Nat.toDigits 10 n)) = some n := by
  unfold readField unlessBaseline
  by_cases written : value ≠ baseline
  · rw [if_pos written, if_neg Nat.toDigits_ne_nil, ← Nat.repr_eq_ofList_toDigits, Nat.toNat?_repr]
  · simp only [if_neg written, same (Decidable.not_not.mp written), if_true]

theorem Reliability.read_rmwValue (reliability : Reliability) :
    Reliability.read reliability.rmwValue.toNat = some reliability := by
  cases reliability <;> rfl

theorem Durability.read_rmwValue (durability : Durability) :
    Durability.read durability.rmwValue.toNat = some durability := by
  cases durability <;> rfl

theorem History.read_rmwValue (history : History) :
    History.read history.rmwValue.toNat history.depth.toNat = some history := by
  cases history with
  | keepLast depth =>
    change (if depth.toNat < 2 ^ 32 then some (History.keepLast (UInt32.ofNat depth.toNat)) else none) = _
    rw [if_pos depth.toNat_lt, UInt32.ofNat_toNat]
  | keepAll => rfl

namespace Qos

theorem numeric_reliabilityField (qos : Qos) : Numeric qos.reliabilityField :=
  numeric_unlessBaseline _ _ (numeric_digitChar qos.reliability.rmwValue_lt)

theorem numeric_durabilityField (qos : Qos) : Numeric qos.durabilityField :=
  numeric_unlessBaseline _ _ (numeric_digitChar qos.durability.rmwValue_lt)

theorem numeric_historyField (qos : Qos) : Numeric qos.historyField :=
  numeric_unlessBaseline _ _ (numeric_digitChar qos.history.rmwValue_lt)

theorem numeric_depthField (qos : Qos) : Numeric qos.depthField :=
  numeric_unlessBaseline _ _ (numeric_decimal qos.history.depth)

theorem splitOn_chars (qos : Qos) : (qos.chars.splitOn ':').map (·.splitOn ',') =
    [[qos.reliabilityField], [qos.durabilityField], [qos.historyField, qos.depthField],
      [[], []], [[], []], [[], [], []]] := by
  have plain : ∀ field ∈ qos.fields, ':' ∉ field := by
    simp only [fields, List.forall_mem_cons]
    refine ⟨qos.numeric_reliabilityField.notMem (by decide), qos.numeric_durabilityField.notMem (by decide), ?_,
      by decide⟩
    rw [List.mem_append, List.mem_cons, not_or, not_or]
    exact ⟨qos.numeric_historyField.notMem (by decide), by decide, qos.numeric_depthField.notMem (by decide)⟩
  have colons : qos.chars.splitOn ':' = qos.fields := List.splitOn_intercalate ':' plain (List.cons_ne_nil _ _)
  rw [colons, fields, List.map_cons, List.map_cons, List.map_cons,
    List.splitOn_eq_singleton (qos.numeric_reliabilityField.notMem (by decide)),
    List.splitOn_eq_singleton (qos.numeric_durabilityField.notMem (by decide)),
    List.splitOn_append_cons_self_of_not_mem (qos.numeric_historyField.notMem (by decide)),
    List.splitOn_eq_singleton (qos.numeric_depthField.notMem (by decide))]
  rfl

theorem notMem_chars (qos : Qos) {sep : Char} (other : ¬sep.isDigit = true) (colon : sep ≠ ':') (comma : sep ≠ ',') :
    sep ∉ qos.chars := by
  rw [chars_eq]
  simp only [List.mem_append, List.mem_singleton, not_or]
  simp only [qos.numeric_reliabilityField.notMem other, qos.numeric_durabilityField.notMem other,
    qos.numeric_historyField.notMem other, qos.numeric_depthField.notMem other, colon, comma, not_false_iff, and_self]

theorem readQos_chars (qos : Qos) : readQos qos.chars = some qos := by
  have reliability : readField 1 qos.reliabilityField = some qos.reliability.rmwValue.toNat := by
    rw [reliabilityField, digitChar_eq_toDigits qos.reliability.rmwValue_lt]
    exact readField_unlessBaseline _ _ (congrArg UInt8.toNat)
  have durability : readField 2 qos.durabilityField = some qos.durability.rmwValue.toNat := by
    rw [durabilityField, digitChar_eq_toDigits qos.durability.rmwValue_lt]
    exact readField_unlessBaseline _ _ (congrArg UInt8.toNat)
  have history : readField 1 qos.historyField = some qos.history.rmwValue.toNat := by
    rw [historyField, digitChar_eq_toDigits qos.history.rmwValue_lt]
    exact readField_unlessBaseline _ _ (congrArg UInt8.toNat)
  have depth : readField 42 qos.depthField = some qos.history.depth.toNat := by
    rw [depthField, decimal_eq]
    exact readField_unlessBaseline _ _ (congrArg UInt32.toNat)
  unfold readQos
  rw [splitOn_chars]
  simp only [reliability, durability, history, depth, Option.bind_eq_bind, Option.bind_some,
    Reliability.read_rmwValue, Durability.read_rmwValue, History.read_rmwValue]
  rfl

theorem length_unlessBaseline_le {α : Type} [DecidableEq α] (value baseline : α) (digits : List Char) :
    (unlessBaseline value baseline digits).length ≤ digits.length := by
  unfold unlessBaseline
  split
  · exact Nat.le_refl _
  · exact Nat.zero_le _

theorem chars_fit (qos : Qos) : (String.ofList qos.chars).utf8ByteSize ≤ maxQosKeyexprLen := by
  have reliability : qos.reliabilityField.length ≤ 1 := length_unlessBaseline_le _ _ _
  have durability : qos.durabilityField.length ≤ 1 := length_unlessBaseline_le _ _ _
  have history : qos.historyField.length ≤ 1 := length_unlessBaseline_le _ _ _
  have depth : qos.depthField.length ≤ 10 :=
    Nat.le_trans (length_unlessBaseline_le _ _ _) (length_decimal_le qos.history.depth)
  have short : qos.chars.length ≤ 32 := by
    rw [chars_eq]
    simp only [List.length_append, List.length_singleton]
    omega
  calc (String.ofList qos.chars).utf8ByteSize
    _ ≤ 4 * qos.chars.length := utf8ByteSize_le _
    _ ≤ 4 * 32 := Nat.mul_le_mul_left 4 short

theorem toRmwQosKeyexpr_built (qos : Qos) :
    qos.toRmwQosKeyexpr = some ⟨String.ofList qos.chars, qos.chars_fit⟩ := by
  rw [toRmwQosKeyexpr_eq, dif_pos qos.chars_fit]

end Qos

/-- Every quality of service has a field, which is read back, so different ones have different fields. -/
theorem qos_keyexpr_lossless :
    (∀ qos : Qos, ∃ key, qos.toRmwQosKeyexpr = some key ∧ readQos key.text.toList = some qos) ∧
    ∀ a b : Qos, a.toRmwQosKeyexpr = b.toRmwQosKeyexpr → a = b := by
  refine ⟨fun qos => ⟨_, qos.toRmwQosKeyexpr_built, ?_⟩, fun a b same => ?_⟩
  · rw [String.toList_ofList]
    exact qos.readQos_chars
  · rw [a.toRmwQosKeyexpr_built, b.toRmwQosKeyexpr_built] at same
    have texts := congrArg (·.text.toList) (Option.some.inj same)
    simp only [String.toList_ofList] at texts
    have read := a.readQos_chars
    rw [texts, b.readQos_chars] at read
    exact (Option.some.inj read).symm

end RoundTrip
end ZenohRos2
