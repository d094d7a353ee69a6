import Mathlib.Data.List.Chain
import ZenohRos2.Lib.Machine
import ZenohRos2.Sdk.Incoming

/-! Which fragments are joined into a message.

The header of a Fragment carries a sequence number and the channel, but the
assembler sees neither. A reception keeps book of the fragments whose bytes the
assembler holds, and of those that each decoded message was joined from.
-/

set_option autoImplicit false

namespace ZenohRos2
open Rust

/-- The fragment goes on where the other one stopped: same channel, next sequence number. -/
def Fragment.Follows (fragment last : Fragment) : Prop :=
  fragment.reliable = last.reliable ∧ fragment.sn = last.sn + 1

instance (fragment last : Fragment) : Decidable (fragment.Follows last) := inferInstanceAs (Decidable (_ ∧ _))

def Coherent (parts : List Fragment) : Prop := parts.IsChain fun last fragment => fragment.Follows last

instance (parts : List Fragment) : Decidable (Coherent parts) := inferInstanceAs (Decidable (List.IsChain _ _))

structure Reception where
  fragAsm : FragmentAssembler
  /-- The fragments of the message in progress. -/
  parts : List Fragment
  /-- What was decoded out of the assembler, and from which fragments it was joined. -/
  decoded : List (Bytes × List Fragment)

namespace Reception

def new : Reception := ⟨.new, [], []⟩

/-- The fragments in the buffer once another one is put into it. -/
def joined (reception : Reception) (fragment : Fragment) : List Fragment :=
  (if reception.fragAsm.active then reception.parts else []) ++ [fragment]

section Steps
variable [Target]

/-- A call of `dispatch_frame`; the receive loop ends where it fails. -/
def step (node : Node) (reception : Reception) (frame : Bytes) : Option Reception :=
  match dispatchFrame node frame reception.fragAsm with
  | .ok (_, fragAsm) =>
    match incomingFragment frame with
    | none => some { reception with fragAsm := fragAsm }
    | some fragment =>
      match (reception.fragAsm.feed fragmentBufSize fragment.more fragment.payload).1 with
      | .ok (some message) =>
        some ⟨fragAsm, [], reception.decoded ++ [(message, reception.joined fragment)]⟩
      | .ok none => some ⟨fragAsm, reception.joined fragment, reception.decoded⟩
      | _ => some ⟨fragAsm, [], reception.decoded⟩
  | _ => none

/-- The books are right: the bytes in the buffer, and those of each decoded
message, are the payloads of the fragments that stand there. -/
structure Sound (reception : Reception) : Prop where
  held : reception.fragAsm.held = reception.parts.flatMap Fragment.payload
  active : reception.fragAsm.active = !reception.parts.isEmpty
  decoded : ∀ item ∈ reception.decoded, item.1 = item.2.flatMap Fragment.payload

/-- No fragment was joined with one that it does not follow. -/
structure Unspliced (reception : Reception) : Prop where
  inProgress : Coherent reception.parts
  decoded : ∀ item ∈ reception.decoded, item.1 = item.2.flatMap Fragment.payload ∧ Coherent item.2

instance (reception : Reception) : Decidable (Unspliced reception) :=
  decidable_of_iff (Coherent reception.parts ∧
      ∀ item ∈ reception.decoded, item.1 = item.2.flatMap Fragment.payload ∧ Coherent item.2)
    ⟨fun both => ⟨both.1, both.2⟩, fun unspliced => ⟨unspliced.inProgress, unspliced.decoded⟩⟩

/-- A fragment that is put behind others follows the last of them. -/
def OnTrack (reception : Reception) (frame : Bytes) : Prop :=
  ∀ fragment last, incomingFragment frame = some fragment → reception.parts.getLast? = some last →
    reception.fragAsm.held.length + fragment.payload.length ≤ fragmentBufSize → fragment.Follows last

variable {node : Node} {reception next : Reception} {frame : Bytes}

inductive Stepped (reception : Reception) (frame : Bytes) : Reception → Prop where
  | other (incoming : incomingFragment frame = none) : Stepped reception frame reception
  | overflow {fragment : Fragment} (incoming : incomingFragment frame = some fragment)
      (large : fragmentBufSize < reception.fragAsm.held.length + fragment.payload.length) :
      Stepped reception frame ⟨.new, [], reception.decoded⟩
  | more {fragment : Fragment} (incoming : incomingFragment frame = some fragment)
      (fits : reception.fragAsm.held.length + fragment.payload.length ≤ fragmentBufSize) :
      Stepped reception frame
        ⟨⟨reception.fragAsm.held ++ fragment.payload, true⟩, reception.joined fragment, reception.decoded⟩
  | last {fragment : Fragment} (incoming : incomingFragment frame = some fragment)
      (fits : reception.fragAsm.held.length + fragment.payload.length ≤ fragmentBufSize) :
      Stepped reception frame ⟨⟨reception.fragAsm.held ++ fragment.payload, false⟩, [],
        reception.decoded ++ [(reception.fragAsm.held ++ fragment.payload, reception.joined fragment)]⟩

theorem stepped_of_step (step : reception.step node frame = some next) : Stepped reception frame next := by
  unfold Reception.step at step
  split at step
  · rename_i handled fragAsm ran
    have fed := (dispatchWith_ok ran).2
    cases incoming : incomingFragment frame with
    | none =>
      rw [FragmentAssembler.fed, incoming] at fed
      rw [incoming] at step
      cases step
      rw [fed]
      exact .other incoming
    | some fragment =>
      rw [FragmentAssembler.fed, incoming] at fed
      rw [fed, incoming] at step
      simp only [FragmentAssembler.feed_eq] at step
      by_cases large : fragmentBufSize < reception.fragAsm.held.length + fragment.payload.length
      · simp only [if_pos large] at step
        cases step
        exact .overflow incoming large
      · have fits := Nat.le_of_not_gt large
        simp only [if_neg large] at step
        cases flag : fragment.more with
        | true =>
          simp only [flag, if_true] at step
          cases step
          exact .more incoming fits
        | false =>
          simp only [flag, Bool.false_eq_true, if_false] at step
          cases step
          exact .last incoming fits
  · cases step

end Steps

section Books
variable {reception : Reception}

theorem Sound.joined (sound : Sound reception) (fragment : Fragment) :
    reception.joined fragment = reception.parts ++ [fragment] := by
  unfold Reception.joined
  rw [sound.active]
  cases reception.parts with
  | nil => rfl
  | cons part parts => rfl

theorem Sound.joined_payload (sound : Sound reception) (fragment : Fragment) :
    (reception.joined fragment).flatMap Fragment.payload = reception.fragAsm.held ++ fragment.payload := by
  rw [sound.joined, List.flatMap_append, List.flatMap_singleton, sound.held]

theorem coherent_append {parts : List Fragment} (coherent : Coherent parts) (fragment : Fragment) :
    Coherent (parts ++ [fragment]) ↔ ∀ last, parts.getLast? = some last → fragment.Follows last := by
  unfold Coherent at coherent ⊢
  rw [List.isChain_append]
  simp [coherent]

variable [Target] {node : Node} {next : Reception} {frame : Bytes}

theorem Sound.step (sound : Sound reception) (step : reception.step node frame = some next) : Sound next := by
  cases stepped_of_step step with
  | other => exact sound
  | overflow => exact ⟨rfl, rfl, sound.decoded⟩
  | @more fragment =>
    refine ⟨(sound.joined_payload fragment).symm, ?_, sound.decoded⟩
    rw [sound.joined]
    cases reception.parts <;> rfl
  | @last fragment =>
    refine ⟨rfl, rfl, fun item member => ?_⟩
    rcases List.mem_append.mp member with before | new
    · exact sound.decoded item before
    · rw [List.mem_singleton.mp new]
      exact (sound.joined_payload fragment).symm

theorem Unspliced.step_iff (sound : Sound reception) (unspliced : Unspliced reception)
    (step : reception.step node frame = some next) : Unspliced next ↔ OnTrack reception frame := by
  have follows {fragment : Fragment} (incoming : incomingFragment frame = some fragment)
      (fits : reception.fragAsm.held.length + fragment.payload.length ≤ fragmentBufSize) :
      Coherent (reception.joined fragment) ↔ OnTrack reception frame := by
    rw [sound.joined, coherent_append unspliced.inProgress]
    constructor
    · rintro all other last same before -
      obtain rfl := Option.some.inj (incoming.symm.trans same)
      exact all last before
    · intro track last before
      exact track fragment last incoming before fits
  cases stepped_of_step step with
  | other incoming =>
    apply iff_of_true unspliced
    intro fragment last same
    rw [incoming] at same
    cases same
  | overflow incoming large =>
    apply iff_of_true ⟨List.isChain_nil, unspliced.decoded⟩
    intro other last same _ fits
    obtain rfl := Option.some.inj (incoming.symm.trans same)
    exact absurd fits (Nat.not_le.mpr large)
  | @more fragment incoming fits =>
    rw [← follows incoming fits]
    exact ⟨Unspliced.inProgress, fun coherent => ⟨coherent, unspliced.decoded⟩⟩
  | @last fragment incoming fits =>
    rw [← follows incoming fits]
    constructor
    · intro after
      exact (after.decoded _ (List.mem_append_right _ List.mem_cons_self)).2
    · intro coherent
      refine ⟨List.isChain_nil, fun item member => ?_⟩
      rcases List.mem_append.mp member with before | new
      · exact unspliced.decoded item before
      · rw [List.mem_singleton.mp new]
        exact ⟨(sound.joined_payload fragment).symm, coherent⟩

/-- In every run from a new assembler, nothing is ever spliced just when every
fragment that is put behind others follows the last of them. -/
theorem unspliced_iff_onTrack (node : Node) (frames : List Bytes) :
    Machine.Always (step node) Unspliced .new frames ↔ Machine.Meets (step node) OnTrack .new frames :=
  Machine.always_iff_meets Sound Sound.step Unspliced.step_iff ⟨rfl, rfl, by simp [new]⟩
    ⟨List.isChain_nil, by simp [new]⟩

omit [Target] in
/-- The last fragment of a message on one channel is put behind the first one of a message on the other. -/
theorem fragments_spliced :
    letI := target64
    let node := Node.built "robot" "" 0 (ZenohId.fromBytes [7]) 10000 10000
    ¬∀ frames, Machine.Always (step node) Unspliced .new frames := by
  let := target64
  intro node all
  exact absurd (all [[0x66, 5, 0xAA], [0x06, 9, 0xBB]]) (by decide +kernel)

end Books
end Reception
end ZenohRos2
