import ZenohRos2.Transport.Paths

/-! Chains of extensions, and what their loop takes for one.

A chain is complete if all its bodies are, and if exactly the last of its
extensions says that no more follow. The loop also stops where the buffer ends,
whatever was announced, and it takes a length for what is left of it in a `usize`.
-/

set_option autoImplicit false

namespace ZenohRos2
open Rust

/-- All the bytes are there that an extension with header `ext` declares for its body. -/
inductive CompleteBodyAt (buf : Bytes) (pos : Nat) (ext : UInt8) : Nat → Prop where
  | unit (encoding : extensionEncoding ext = 0) : CompleteBodyAt buf pos ext pos
  | z64 {n stop : Nat} (encoding : extensionEncoding ext = 1) (found : NumberAt buf pos n stop) :
      CompleteBodyAt buf pos ext stop
  | zbuf {n start : Nat} (unit : extensionEncoding ext ≠ 0) (z64 : extensionEncoding ext ≠ 1)
      (found : NumberAt buf pos n start) (inside : start + n ≤ buf.length) : CompleteBodyAt buf pos ext (start + n)

structure CompleteExtensionAt (buf : Bytes) (pos : Nat) (more : Bool) (stop : Nat) : Prop where
  found : ∃ ext, buf[pos]? = some ext ∧ hasFlag ext 0x80 = more ∧ CompleteBodyAt buf (pos + 1) ext stop

/-- A non-empty chain from `pos` to `stop`: all extensions but the last say that more follow. -/
inductive CompleteChainAt (buf : Bytes) : Nat → Nat → Prop where
  | last {pos stop : Nat} (extension : CompleteExtensionAt buf pos false stop) : CompleteChainAt buf pos stop
  | more {pos middle stop : Nat} (extension : CompleteExtensionAt buf pos true middle)
      (rest : CompleteChainAt buf middle stop) : CompleteChainAt buf pos stop

inductive CutOff (buf : Bytes) : Nat → Prop where
  | here {pos : Nat} (outside : buf.length ≤ pos) : CutOff buf pos
  | later {pos middle : Nat} (extension : CompleteExtensionAt buf pos true middle) (rest : CutOff buf middle) :
      CutOff buf pos

variable [Target]

/-- The length of a ZBuf at `place` is not what is left of it in a `usize`. -/
def LengthCut (buf : Bytes) (place : Nat) : Prop :=
  ∃ ext n start, buf[place]? = some ext ∧ extensionEncoding ext ≠ 0 ∧ extensionEncoding ext ≠ 1 ∧
    NumberAt buf (place + 1) n start ∧ asUsize (UInt64.ofNat n) ≠ n

/-- As the loop reads the chain, the buffer ends where an extension is announced. -/
inductive RunsOut (buf : Bytes) : Nat → Prop where
  | here {pos : Nat} (outside : buf.length ≤ pos) : RunsOut buf pos
  | later {pos middle : Nat} (extension : ExtensionAt buf pos true middle) (rest : RunsOut buf middle) :
      RunsOut buf pos

section Readings
variable {buf : Bytes} {pos stop : Nat}

theorem ExtensionBodyAt.unique {ext : UInt8} {stop' : Nat} (one : ExtensionBodyAt buf pos ext stop)
    (two : ExtensionBodyAt buf pos ext stop') : stop = stop' := by
  cases one with
  | unit encoding =>
    cases two with
    | unit _ => rfl
    | z64 other _ => exact absurd (encoding.symm.trans other) (by decide)
    | zbuf other _ _ _ => exact absurd encoding other
  | z64 encoding found =>
    cases two with
    | unit other => exact absurd (other.symm.trans encoding) (by decide)
    | z64 _ found' => exact (found.unique found').2
    | zbuf _ other _ _ => exact absurd encoding other
  | zbuf unit z64 found inside =>
    cases two with
    | unit other => exact absurd other unit
    | z64 other _ => exact absurd other z64
    | zbuf _ _ found' _ =>
      obtain ⟨rfl, rfl⟩ := found.unique found'
      rfl

theorem ExtensionAt.unique {more more' : Bool} {stop' : Nat} (one : ExtensionAt buf pos more stop)
    (two : ExtensionAt buf pos more' stop') : more = more' ∧ stop = stop' := by
  obtain ⟨ext, found, rfl, body⟩ := one
  obtain ⟨ext', found', rfl, body'⟩ := two
  rw [found] at found'
  cases found'
  exact ⟨rfl, body.unique body'⟩

theorem asUsize_of_fits (addressable : Addressable buf) {n : Nat} (fits : n ≤ buf.length) :
    asUsize (UInt64.ofNat n) = n := by
  have size : n + 0 < usizeSize := addressable.lt_usizeSize fits (Nat.zero_le _)
  have small := usizeSize_le
  have declared : (UInt64.ofNat n).toNat = n := by
    rw [UInt64.toNat_ofNat']
    omega
  rw [asUsize_of_lt (by omega), declared]

theorem CompleteExtensionAt.extensionAt (addressable : Addressable buf) {more : Bool}
    (complete : CompleteExtensionAt buf pos more stop) : ExtensionAt buf pos more stop := by
  obtain ⟨ext, found, flag, body⟩ := complete
  refine ⟨ext, found, flag, ?_⟩
  cases body with
  | unit encoding => exact .unit encoding
  | z64 encoding number => exact .z64 encoding number.vbyteAt
  | @zbuf n start unit z64 number inside =>
    have exact_ := asUsize_of_fits addressable (show n ≤ buf.length by omega)
    have body := ExtensionBodyAt.zbuf unit z64 number.vbyteAt (by omega)
    rwa [exact_] at body

theorem ExtensionAt.complete {more : Bool} (extension : ExtensionAt buf pos more stop) (whole : ¬LengthCut buf pos) :
    CompleteExtensionAt buf pos more stop := by
  obtain ⟨ext, found, flag, body⟩ := extension
  refine ⟨ext, found, flag, ?_⟩
  cases body with
  | unit encoding => exact .unit encoding
  | z64 encoding vbyte =>
    obtain ⟨n, number, -⟩ := vbyte.exists_numberAt
    exact .z64 encoding number
  | zbuf unit z64 vbyte inside =>
    obtain ⟨n, number, rfl⟩ := vbyte.exists_numberAt
    have kept : asUsize (UInt64.ofNat n) = n :=
      Classical.byContradiction fun cut => whole ⟨ext, n, _, found, unit, z64, number, cut⟩
    rw [kept] at inside ⊢
    exact .zbuf unit z64 number inside

theorem CompleteExtensionAt.not_lengthCut (addressable : Addressable buf) {more : Bool}
    (complete : CompleteExtensionAt buf pos more stop) : ¬LengthCut buf pos := by
  rintro ⟨ext, n, start, found, unit, z64, number, cut⟩
  obtain ⟨ext', found', -, body⟩ := complete
  rw [found] at found'
  cases found'
  cases body with
  | unit encoding => exact unit encoding
  | z64 encoding _ => exact z64 encoding
  | zbuf _ _ number' inside =>
    obtain ⟨rfl, rfl⟩ := number.unique number'
    exact cut (asUsize_of_fits addressable (by omega))

theorem ChainAt.fits (addressable : Addressable buf) (chain : ChainAt buf pos stop) : ChainFits buf pos := by
  have zbufFits {pos stop : Nat} {more : Bool} (extension : ExtensionAt buf pos more stop) : ZbufFits buf pos := by
    intro ext found unit z64 len start vbyte
    obtain ⟨ext', found', -, body⟩ := extension
    rw [found] at found'
    cases found'
    cases body with
    | unit encoding => exact absurd encoding unit
    | z64 encoding _ => exact absurd encoding z64
    | zbuf _ _ vbyte' inside =>
      obtain ⟨rfl, rfl⟩ := vbyte.unique vbyte'
      have fits := addressable.lt_usizeSize inside (Nat.zero_le _)
      omega
  induction chain with
  | past outside => exact ((chain_outside outside (fun _ => True)).mpr trivial).1
  | last extension =>
    refine chainFits_iff.mpr ⟨zbufFits extension, fun middle other => ?_⟩
    cases (extension.unique other).1
  | more extension _ ih =>
    refine chainFits_iff.mpr ⟨zbufFits extension, fun middle other => ?_⟩
    obtain ⟨-, rfl⟩ := extension.unique other
    exact ih

theorem skipExtensions_eq_ok (addressable : Addressable buf) :
    skipExtensions buf pos = .ok stop ↔ ChainAt buf pos stop := by
  have returns (post : Nat → Prop) :
      (skipExtensions buf pos).Returns post ↔ ChainFits buf pos ∧ ∀ stop, ChainAt buf pos stop → post stop := by
    by_cases inside : pos ≤ buf.length
    · exact returns_skipExtensionsLoop addressable inside (Nat.le_refl _) post
    · have none : buf.length - pos = 0 := by omega
      rw [chain_outside (by omega), skipExtensions, none]
      rfl
  constructor
  · intro ran
    have kept := (returns (fun found => found = stop)).mp (by rw [ran]; exact rfl)
    -- If there were no chain, the result would meet any postcondition.
    obtain ⟨found, chain⟩ : ∃ found, ChainAt buf pos found := by
      apply Classical.byContradiction
      intro none
      have absurd_ := (returns fun _ => False).mpr ⟨kept.1, fun found chain => none ⟨found, chain⟩⟩
      rw [ran] at absurd_
      exact absurd_
    rwa [kept.2 found chain] at chain
  · intro chain
    cases ran : skipExtensions buf pos with
    | ok found =>
      have kept := (returns (fun other => other = found)).mp (by rw [ran]; exact rfl)
      rw [kept.2 stop chain]
    | err error =>
      have none := (returns fun _ => False).mp (by rw [ran]; trivial)
      exact (none.2 stop chain).elim
    | panic fault =>
      have returned := (returns fun _ => True).mpr ⟨chain.fits addressable, fun _ _ => trivial⟩
      rw [ran] at returned
      exact returned.elim

theorem CompleteChainAt.chainAt (addressable : Addressable buf) (complete : CompleteChainAt buf pos stop) :
    ChainAt buf pos stop := by
  induction complete with
  | last extension => exact .last (extension.extensionAt addressable)
  | more extension _ ih => exact .more (extension.extensionAt addressable) ih

theorem CompleteChainAt.not_runsOut (addressable : Addressable buf) (complete : CompleteChainAt buf pos stop) :
    ¬RunsOut buf pos := by
  have none {pos stop : Nat} {more : Bool} (outside : buf.length ≤ pos) : ¬ExtensionAt buf pos more stop :=
    fun extension => by
      have bounds := extension.bounds
      omega
  induction complete with
  | last extension =>
    intro runsOut
    cases runsOut with
    | here outside => exact none outside (extension.extensionAt addressable)
    | later other _ => cases ((extension.extensionAt addressable).unique other).1
  | more extension _ ih =>
    intro runsOut
    cases runsOut with
    | here outside => exact none outside (extension.extensionAt addressable)
    | later other rest =>
      obtain ⟨-, rfl⟩ := (extension.extensionAt addressable).unique other
      exact ih rest

theorem CompleteChainAt.not_lengthCut (addressable : Addressable buf) (complete : CompleteChainAt buf pos stop)
    {place : Nat} (header : HeaderOf buf place pos) : ¬LengthCut buf place := by
  induction complete with
  | last extension =>
    cases header with
    | here => exact extension.not_lengthCut addressable
    | later other _ => cases ((extension.extensionAt addressable).unique other).1
  | more extension _ ih =>
    cases header with
    | here => exact extension.not_lengthCut addressable
    | later other rest =>
      obtain ⟨-, rfl⟩ := (extension.extensionAt addressable).unique other
      exact ih rest

theorem ChainAt.complete (chain : ChainAt buf pos stop) (ends : ¬RunsOut buf pos)
    (whole : ∀ place, HeaderOf buf place pos → ¬LengthCut buf place) : CompleteChainAt buf pos stop := by
  induction chain with
  | past outside => exact absurd (.here outside) ends
  | last extension => exact .last (extension.complete (whole _ .here))
  | more extension _ ih =>
    exact .more (extension.complete (whole _ .here)) (ih (fun runsOut => ends (.later extension runsOut))
      fun place header => whole place (.later extension header))

theorem RunsOut.exists_chainAt (runsOut : RunsOut buf pos) : ∃ stop, ChainAt buf pos stop := by
  induction runsOut with
  | here outside => exact ⟨_, .past outside⟩
  | later extension _ ih =>
    obtain ⟨stop, chain⟩ := ih
    exact ⟨stop, .more extension chain⟩

theorem CutOff.runsOut (addressable : Addressable buf) (cutOff : CutOff buf pos) : RunsOut buf pos := by
  induction cutOff with
  | here outside => exact .here outside
  | later extension _ ih => exact .later (extension.extensionAt addressable) ih

/-- The loop comes to the end of a chain that is announced to the end, and cuts no length on the way. -/
def ReadsWhole (buf : Bytes) (pos : Nat) : Prop :=
  ¬RunsOut buf pos ∧ ∀ stop, ChainAt buf pos stop → ∀ place, HeaderOf buf place pos → ¬LengthCut buf place

theorem forall_chainAt_iff_complete (addressable : Addressable buf) :
    (∀ stop, ChainAt buf pos stop ↔ CompleteChainAt buf pos stop) ↔ ReadsWhole buf pos := by
  constructor
  · intro same
    constructor
    · intro runsOut
      obtain ⟨stop, chain⟩ := runsOut.exists_chainAt
      exact ((same stop).mp chain).not_runsOut addressable runsOut
    · intro stop chain place header
      exact ((same stop).mp chain).not_lengthCut addressable header
  · rintro ⟨ends, whole⟩ stop
    exact ⟨fun chain => chain.complete ends (whole stop chain), fun complete => complete.chainAt addressable⟩

end Readings

/-- The messages with a Z flag of which the chain is all that is left. -/
inductive Flagged where
  | initAck
  | frame
  | fragment
  | responseFinal
  deriving DecidableEq

namespace Flagged

/-- The fields in front of the chain decode, the Z flag is set, and the chain starts at `pos`. -/
def StartsChain (buf : Bytes) (pos : Nat) : Flagged → Prop
  | .initAck => ∃ head cookie, decodeInitAckHead buf = .ok head ∧ head.hasExt = true ∧
    readSlice buf head.pos = .ok (cookie, pos) ∧ cookie.length ≤ cookieCap
  | .frame => ∃ header sn, buf[0]? = some header ∧ messageId header = transportId.frame ∧
    hasFlag header frameFlag.z = true ∧ VbyteAt buf 1 sn pos
  | .fragment => ∃ header sn, buf[0]? = some header ∧ messageId header = transportId.fragment ∧
    hasFlag header fragmentFlag.z = true ∧ VbyteAt buf 1 sn pos
  | .responseFinal => ∃ header requestId, buf[0]? = some header ∧ messageId header = networkId.responseFinal ∧
    hasFlag header responseFinalFlag.z = true ∧ VbyteAt buf 1 requestId pos

/-- The decoder succeeds and has consumed the bytes up to `stop`. -/
def Accepts (buf : Bytes) (stop : Nat) : Flagged → Prop
  | .initAck => ∃ ack, decodeInitAck buf = .ok (ack, stop)
  | .frame => ∃ sn reliable, decodeFrameHeader buf = .ok (sn, reliable, stop)
  | .fragment => ∃ sn reliable more, decodeFragmentHeader buf = .ok (sn, reliable, more, stop)
  | .responseFinal => ∃ requestId, decodeResponse buf = .ok (some (.final requestId, stop))

def Rejects (buf : Bytes) : Flagged → Prop
  | .initAck => ∃ error, decodeInitAck buf = .err error
  | .frame => ∃ error, decodeFrameHeader buf = .err error
  | .fragment => ∃ error, decodeFragmentHeader buf = .err error
  | .responseFinal => ∃ error, decodeResponse buf = .err error

section Decoders
variable {buf : Bytes} {pos : Nat} {header : UInt8} {value : UInt64} (addressable : Addressable buf)
  (first : buf[0]? = some header) (found : VbyteAt buf 1 value pos)

omit [Target] in
theorem first_of_getElem? (first : buf[0]? = some header) :
    ¬buf.isEmpty = true ∧ (index buf 0 : Decode UInt8) = .ok header := by
  cases buf with
  | nil => cases first
  | cons byte rest =>
    cases first
    exact ⟨by simp, rfl⟩

include addressable first found

theorem decodeFrameHeader_flagged (kind : messageId header = transportId.frame)
    (flag : hasFlag header frameFlag.z = true) :
    decodeFrameHeader buf =
      (skipExtensions buf pos >>= fun stop => .ok (value, hasFlag header frameFlag.r, stop)) := by
  obtain ⟨nonempty, read⟩ := first_of_getElem? first
  rw [decodeFrameHeader, if_neg nonempty, read, Outcome.ok_bind, if_neg (not_not_intro kind),
    readVbyte_eq addressable found, Outcome.ok_bind]
  simp only [flag, skipExtensionsIf, if_true]

theorem decodeFragmentHeader_flagged (kind : messageId header = transportId.fragment)
    (flag : hasFlag header fragmentFlag.z = true) :
    decodeFragmentHeader buf = (skipExtensions buf pos >>= fun stop =>
      .ok (value, hasFlag header fragmentFlag.r, hasFlag header fragmentFlag.m, stop)) := by
  obtain ⟨nonempty, read⟩ := first_of_getElem? first
  rw [decodeFragmentHeader, if_neg nonempty, read, Outcome.ok_bind, if_neg (not_not_intro kind),
    readVbyte_eq addressable found, Outcome.ok_bind]
  simp only [flag, skipExtensionsIf, if_true]

theorem decodeResponse_flagged (kind : messageId header = networkId.responseFinal)
    (flag : hasFlag header responseFinalFlag.z = true) :
    decodeResponse buf = (skipExtensions buf pos >>= fun stop => .ok (some (.final value.toUInt32, stop))) := by
  obtain ⟨nonempty, read⟩ := first_of_getElem? first
  rw [decodeResponse, decodeResponseHead, if_neg nonempty, read, Outcome.ok_bind, if_pos kind,
    readVbyte_eq addressable found, Outcome.ok_bind]
  simp only [flag, skipExtensionsIf, if_true]
  cases skipExtensions buf pos <;> rfl

end Decoders

theorem decodeInitAck_flagged {buf cookie : Bytes} {pos : Nat} {head : InitAckHead}
    (front : decodeInitAckHead buf = .ok head) (flag : head.hasExt = true)
    (slice : readSlice buf head.pos = .ok (cookie, pos)) (short : cookie.length ≤ cookieCap) :
    decodeInitAck buf = (skipExtensions buf pos >>= fun stop =>
      .ok (⟨head.version, head.whatami, head.zid, cookie, head.batchSize⟩, stop)) := by
  rw [decodeInitAck, front, Outcome.ok_bind, slice, Outcome.ok_bind]
  simp only [if_neg (Nat.not_lt.mpr short), flag, skipExtensionsIf, if_true]

theorem accepts_iff {buf : Bytes} {pos stop : Nat} (addressable : Addressable buf) (kind : Flagged)
    (starts : kind.StartsChain buf pos) : kind.Accepts buf stop ↔ skipExtensions buf pos = .ok stop := by
  cases kind with
  | initAck =>
    obtain ⟨head, cookie, front, flag, slice, short⟩ := starts
    rw [Accepts, decodeInitAck_flagged front flag slice short]
    cases skipExtensions buf pos <;> simp
  | frame =>
    obtain ⟨header, sn, first, kind, flag, found⟩ := starts
    rw [Accepts, decodeFrameHeader_flagged addressable first found kind flag]
    cases skipExtensions buf pos <;> simp
  | fragment =>
    obtain ⟨header, sn, first, kind, flag, found⟩ := starts
    rw [Accepts, decodeFragmentHeader_flagged addressable first found kind flag]
    cases skipExtensions buf pos <;> simp
  | responseFinal =>
    obtain ⟨header, requestId, first, kind, flag, found⟩ := starts
    rw [Accepts, decodeResponse_flagged addressable first found kind flag]
    cases skipExtensions buf pos <;> simp

theorem not_rejects_of_accepts {buf : Bytes} {stop : Nat} {kind : Flagged} (accepts : kind.Accepts buf stop) :
    ¬kind.Rejects buf := by
  rintro rejects
  cases kind with
  | initAck =>
    obtain ⟨ack, ran⟩ := accepts
    obtain ⟨error, failed⟩ := rejects
    rw [ran] at failed
    cases failed
  | frame =>
    obtain ⟨sn, reliable, ran⟩ := accepts
    obtain ⟨error, failed⟩ := rejects
    rw [ran] at failed
    cases failed
  | fragment =>
    obtain ⟨sn, reliable, more, ran⟩ := accepts
    obtain ⟨error, failed⟩ := rejects
    rw [ran] at failed
    cases failed
  | responseFinal =>
    obtain ⟨requestId, ran⟩ := accepts
    obtain ⟨error, failed⟩ := rejects
    rw [ran] at failed
    cases failed

end Flagged

/-- The loop takes the complete chains and no others, and so do the decoders that skip a chain, if and only if it
does not run out of the buffer and cuts no length of a chain that it accepts. A decoder rejects no chain that is
cut off. -/
theorem chains_exact_iff (buf : Bytes) (addressable : Addressable buf) (pos : Nat) :
    ((∀ stop, skipExtensions buf pos = .ok stop ↔ CompleteChainAt buf pos stop) ↔ ReadsWhole buf pos) ∧
    ∀ kind : Flagged, kind.StartsChain buf pos →
      ((∀ stop, kind.Accepts buf stop ↔ CompleteChainAt buf pos stop) ↔ ReadsWhole buf pos) ∧
      ((CutOff buf pos → kind.Rejects buf) ↔ ¬CutOff buf pos) := by
  have loop : (∀ stop, skipExtensions buf pos = .ok stop ↔ CompleteChainAt buf pos stop) ↔ ReadsWhole buf pos := by
    rw [← forall_chainAt_iff_complete addressable]
    exact forall_congr' fun stop => by rw [skipExtensions_eq_ok addressable]
  refine ⟨loop, fun kind starts => ⟨?_, fun rejected cutOff => ?_, fun whole cutOff => absurd cutOff whole⟩⟩
  · rw [← loop]
    exact forall_congr' fun stop => by rw [kind.accepts_iff addressable starts]
  · obtain ⟨stop, chain⟩ := (cutOff.runsOut addressable).exists_chainAt
    have accepted := (kind.accepts_iff addressable starts).mpr ((skipExtensions_eq_ok addressable).mpr chain)
    exact Flagged.not_rejects_of_accepts accepted (rejected cutOff)

omit [Target] in
/-- A Frame header whose chain is one extension without a body. -/
theorem chains_exact_iff_unit :
    letI := target64
    let buf : Bytes := [0x85, 1, 0x01]
    (∀ stop, skipExtensions buf 2 = .ok stop ↔ CompleteChainAt buf 2 stop) ∧
      ∀ stop, Flagged.frame.Accepts buf stop ↔ CompleteChainAt buf 2 stop := by
  let := target64
  intro buf
  have addressable : Addressable buf := le_isizeMax (by decide)
  have complete : CompleteChainAt buf 2 3 := .last ⟨0x01, rfl, by decide, .unit (by decide)⟩
  have whole : ReadsWhole buf 2 :=
    ⟨complete.not_runsOut addressable, fun _ _ _ header => complete.not_lengthCut addressable header⟩
  have starts : Flagged.frame.StartsChain buf 2 :=
    ⟨0x85, 1, rfl, by decide, by decide, [1], [0x01], rfl, .last (by decide), by decide, rfl, rfl⟩
  obtain ⟨loop, decoders⟩ := chains_exact_iff buf addressable 2
  exact ⟨loop.mpr whole, (decoders .frame starts).1.mpr whole⟩

omit [Target] in
/-- Each decoder accepts a message whose Z flag announces a chain that is not there. -/
theorem chains_cut_accepted :
    letI := target64
    (skipExtensions [] 0 = .ok 0 ∧ ∀ stop, ¬CompleteChainAt [] 0 stop) ∧
      ∀ kind : Flagged, ∃ buf pos, kind.StartsChain buf pos ∧ CutOff buf pos ∧ ¬kind.Rejects buf := by
  let := target64
  refine ⟨⟨rfl, ?_⟩, ?_⟩
  · intro stop complete
    exact complete.not_runsOut (le_isizeMax (by decide)) (.here (Nat.le_refl _))
  · intro kind
    cases kind with
    | initAck =>
      refine ⟨[0xA1, 9, 2, 7, 0], 5, ⟨⟨true, 9, .client, .fromBytes [7], none, 4⟩, [], ?_⟩, .here (by decide), ?_⟩
      · decide +kernel
      · exact Flagged.not_rejects_of_accepts (show Flagged.initAck.Accepts _ 5 from
          ⟨⟨9, .client, .fromBytes [7], [], none⟩, by decide +kernel⟩)
    | frame =>
      refine ⟨[0x85, 1], 2, ?_, .here (by decide), ?_⟩
      · exact ⟨0x85, 1, rfl, by decide, by decide, [1], [], rfl, .last (by decide), by decide, rfl, rfl⟩
      · exact Flagged.not_rejects_of_accepts (show Flagged.frame.Accepts _ 2 from ⟨1, false, by decide +kernel⟩)
    | fragment =>
      refine ⟨[0x86, 1], 2, ?_, .here (by decide), ?_⟩
      · exact ⟨0x86, 1, rfl, by decide, by decide, [1], [], rfl, .last (by decide), by decide, rfl, rfl⟩
      · exact Flagged.not_rejects_of_accepts (show Flagged.fragment.Accepts _ 2 from ⟨1, false, false, by decide +kernel⟩)
    | responseFinal =>
      refine ⟨[0x9a, 1], 2, ?_, .here (by decide), ?_⟩
      · exact ⟨0x9a, 1, rfl, by decide, by decide, [1], [], rfl, .last (by decide), by decide, rfl, rfl⟩
      · exact Flagged.not_rejects_of_accepts (show Flagged.responseFinal.Accepts _ 2 from ⟨1, by decide +kernel⟩)

end ZenohRos2
