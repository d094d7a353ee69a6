import ZenohRos2.Sdk.Reassembly

/-! The Put that a received transport message hands over, if any.

It stands at the start of a Frame's body, or of what a Fragment completes. What
is done with it is up to the receive loop, and changes nothing about which Put it is.
-/

set_option autoImplicit false

namespace ZenohRos2
open Rust

section Incoming
variable [Target]

def bodyPut (body : Bytes) : Option IncomingPut :=
  match decodePushPut body with
  | .ok (some (put, _)) => some put
  | _ => none

def incomingFrame (frameBuf : Bytes) : Option Bytes :=
  match frameBuf.head?.map parseTransportMsgKind with
  | some .frame =>
    match decodeFrameHeader frameBuf with
    | .ok (_, _, bodyPos) => if bodyPos ≤ frameBuf.length then some (frameBuf.drop bodyPos) else none
    | _ => none
  | _ => none

def assembled (frameBuf : Bytes) (fragAsm : FragmentAssembler) : Option Bytes :=
  (incomingFragment frameBuf).bind fun fragment =>
    match (fragAsm.feed fragmentBufSize fragment.more fragment.payload).1 with
    | .ok message => message
    | _ => none

def incomingPut (frameBuf : Bytes) (fragAsm : FragmentAssembler) : Option IncomingPut :=
  ((incomingFrame frameBuf).or (assembled frameBuf fragAsm)).bind bodyPut

/-- What a loop does if it handles the Puts that are handed over like this. -/
def Handled.ofPut (handle : IncomingPut → Handled) (put : Option IncomingPut) : Handled := put.elim .nothing handle

variable {handle : IncomingPut → Handled} {frameBuf : Bytes} {fragAsm after : FragmentAssembler} {handled : Handled}

theorem handleBody_ok {body : Bytes} (ran : handleBody handle body = .ok handled) :
    handled = .ofPut handle (bodyPut body) := by
  unfold handleBody ifOk at ran
  unfold bodyPut
  cases decoded : decodePushPut body with
  | ok found =>
    rw [decoded] at ran
    cases found with
    | none => cases ran; rfl
    | some found => cases ran; rfl
  | err error =>
    rw [decoded] at ran
    cases ran
    rfl
  | panic fault =>
    rw [decoded] at ran
    cases ran

theorem handleBody_of_put {body : Bytes} {put : IncomingPut} (found : bodyPut body = some put) :
    handleBody handle body = .ok (handle put) := by
  unfold bodyPut at found
  unfold handleBody
  split at found
  · rename_i pos decoded
    rw [decoded]
    cases found
    rfl
  · cases found

theorem dispatchWith_incomingFrame {body : Bytes} (incoming : incomingFrame frameBuf = some body) :
    dispatchWith handle frameBuf fragAsm = (handleBody handle body >>= fun handled => .ok (handled, fragAsm)) := by
  unfold incomingFrame at incoming
  cases frameBuf with
  | nil => cases incoming
  | cons first rest =>
    simp only [List.head?_cons, Option.map_some] at incoming
    split at incoming
    · rename_i kind
      split at incoming
      · rename_i sn reliable bodyPos header
        split at incoming
        · rename_i inside
          cases incoming
          unfold dispatchWith
          have read : (index (first :: rest) 0 : Outcome Error UInt8) = .ok first := rfl
          rw [if_neg (by simp), read, Outcome.ok_bind, Option.some.inj kind, header]
          simp only [ifOk]
          rw [sliceFrom_eq inside, Outcome.ok_bind]
        · cases incoming
      · cases incoming
    · cases incoming

def FragmentAssembler.fed (fragAsm : FragmentAssembler) (frameBuf : Bytes) : FragmentAssembler :=
  match incomingFragment frameBuf with
  | some fragment => (fragAsm.feed fragmentBufSize fragment.more fragment.payload).2
  | none => fragAsm

theorem dispatchWith_fragment_ok {fragment : Fragment} (incoming : incomingFragment frameBuf = some fragment)
    (ran : dispatchWith handle frameBuf fragAsm = .ok (handled, after)) :
    handled = .ofPut handle ((assembled frameBuf fragAsm).bind bodyPut) ∧ after = fragAsm.fed frameBuf := by
  rw [dispatchWith_fragment handle incoming] at ran
  simp only [assembled, FragmentAssembler.fed, incoming, Option.bind_some]
  generalize fragAsm.feed fragmentBufSize fragment.more fragment.payload = fed at ran ⊢
  obtain ⟨result, next⟩ := fed
  cases result with
  | ok yielded =>
    cases yielded with
    | none =>
      cases ran
      exact ⟨rfl, rfl⟩
    | some message =>
      obtain ⟨answer, body, same⟩ := Outcome.bind_eq_ok.mp ran
      cases same
      exact ⟨handleBody_ok body, rfl⟩
  | err error =>
    cases ran
    exact ⟨rfl, rfl⟩
  | panic fault =>
    cases ran
    exact ⟨rfl, rfl⟩

theorem dispatchWith_frame_ok {first : UInt8} {rest : Bytes} (kind : parseTransportMsgKind first = .frame)
    (ran : dispatchWith handle (first :: rest) fragAsm = .ok (handled, after)) :
    handled = .ofPut handle ((incomingFrame (first :: rest)).bind bodyPut) ∧ after = fragAsm := by
  have read : (index (first :: rest) 0 : Outcome Error UInt8) = .ok first := rfl
  unfold dispatchWith at ran
  rw [if_neg (by simp), read, Outcome.ok_bind, kind] at ran
  obtain ⟨answer, body, same⟩ := Outcome.bind_eq_ok.mp ran
  cases same
  refine ⟨?_, rfl⟩
  simp only [incomingFrame, List.head?_cons, Option.map_some, kind]
  cases header : decodeFrameHeader (first :: rest) with
  | ok result =>
    rw [header] at body
    obtain ⟨behind, slice, ran⟩ := Outcome.bind_eq_ok.mp body
    unfold sliceFrom at slice
    split at slice
    · rename_i inside
      cases slice
      simpa only [if_pos inside, Option.bind_some] using handleBody_ok ran
    · cases slice
  | err error =>
    rw [header] at body
    cases body
    rfl
  | panic fault =>
    rw [header] at body
    cases body

theorem dispatchWith_headless_ok {first : UInt8} {rest : Bytes} (kind : parseTransportMsgKind first = .fragment)
    (headless : incomingFragment (first :: rest) = none)
    (ran : dispatchWith handle (first :: rest) fragAsm = .ok (handled, after)) :
    handled = .nothing ∧ after = fragAsm := by
  have read : (index (first :: rest) 0 : Outcome Error UInt8) = .ok first := rfl
  unfold dispatchWith at ran
  rw [if_neg (by simp), read, Outcome.ok_bind, kind] at ran
  unfold incomingFragment at headless
  simp only [List.head?_cons, Option.map_some, kind] at headless
  cases header : decodeFragmentHeader (first :: rest) with
  | ok result =>
    obtain ⟨sn, reliable, more, bodyPos⟩ := result
    rw [header] at headless ran
    -- The slice behind the header fails, or the frame is a Fragment.
    by_cases inside : bodyPos ≤ (first :: rest).length
    · simp only [if_pos inside] at headless
      cases headless
    · have outside : (sliceFrom (first :: rest) bodyPos : Outcome Error Bytes) = .panic .outOfBounds :=
        if_neg inside
      simp only [ifOk, outside] at ran
      cases ran
  | err error =>
    rw [header] at ran
    cases ran
    exact ⟨rfl, rfl⟩
  | panic fault =>
    rw [header] at ran
    cases ran

theorem dispatchWith_ok (ran : dispatchWith handle frameBuf fragAsm = .ok (handled, after)) :
    handled = .ofPut handle (incomingPut frameBuf fragAsm) ∧ after = fragAsm.fed frameBuf := by
  cases frameBuf with
  | nil =>
    cases ran
    exact ⟨rfl, rfl⟩
  | cons first rest =>
    cases kind : parseTransportMsgKind first with
    | frame =>
      have noFragment : incomingFragment (first :: rest) = none := by
        simp [incomingFragment, kind]
      rw [incomingPut, assembled, FragmentAssembler.fed, noFragment, Option.bind_none, Option.or_none]
      exact dispatchWith_frame_ok kind ran
    | fragment =>
      have notFrame : incomingFrame (first :: rest) = none := by
        simp [incomingFrame, kind]
      cases incoming : incomingFragment (first :: rest) with
      | some fragment =>
        rw [incomingPut, notFrame, Option.none_or]
        exact dispatchWith_fragment_ok incoming ran
      | none =>
        rw [incomingPut, notFrame, assembled, FragmentAssembler.fed, incoming]
        exact dispatchWith_headless_ok kind incoming ran
    | close =>
      unfold dispatchWith at ran
      rw [if_neg (by simp), show (index (first :: rest) 0 : Outcome Error UInt8) = .ok first from rfl,
        Outcome.ok_bind, kind] at ran
      cases ran
    | _ =>
      unfold dispatchWith at ran
      rw [if_neg (by simp), show (index (first :: rest) 0 : Outcome Error UInt8) = .ok first from rfl,
        Outcome.ok_bind, kind] at ran
      cases ran
      simp [incomingPut, incomingFrame, assembled, incomingFragment, FragmentAssembler.fed, kind, Handled.ofPut]

theorem incomingFragment_of_frame {body : Bytes} (incoming : incomingFrame frameBuf = some body) :
    incomingFragment frameBuf = none := by
  unfold incomingFrame at incoming
  split at incoming
  · rename_i kind
    simp [incomingFragment, kind]
  · cases incoming

theorem dispatchWith_of_put {put : IncomingPut} (found : incomingPut frameBuf fragAsm = some put) :
    dispatchWith handle frameBuf fragAsm = .ok (handle put, fragAsm.fed frameBuf) := by
  unfold incomingPut at found
  cases incoming : incomingFrame frameBuf with
  | some body =>
    rw [incoming, Option.some_or, Option.bind_some] at found
    rw [dispatchWith_incomingFrame incoming, handleBody_of_put found, Outcome.ok_bind, FragmentAssembler.fed,
      incomingFragment_of_frame incoming]
  | none =>
    rw [incoming, Option.none_or] at found
    unfold assembled at found
    cases part : incomingFragment frameBuf with
    | none =>
      rw [part] at found
      cases found
    | some fragment =>
      rw [part, Option.bind_some] at found
      rw [dispatchWith_fragment handle part, FragmentAssembler.fed, part]
      simp only
      generalize fragAsm.feed fragmentBufSize fragment.more fragment.payload = fed at found ⊢
      obtain ⟨result, next⟩ := fed
      cases result with
      | ok yielded =>
        cases yielded with
        | none => cases found
        | some message =>
          simp only
          have body : bodyPut message = some put := found
          rw [handleBody_of_put body, Outcome.ok_bind]
      | err error => cases found
      | panic fault => cases found

end Incoming
end ZenohRos2
