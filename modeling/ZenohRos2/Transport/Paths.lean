import ZenohRos2.Transport.Decoding

/-! Postconditions of the readers, in terms of the bytes they stand on.

For each reader there is a predicate on the buffer and the position: what must
hold there for the reader not to panic, and for the values it can return to
meet `next`. The predicates read varints with `VbyteAt` and never run a
decoder. A length read as `u64` is used as `usize`; where the two differ, the
reader goes on with the truncated one.
-/

set_option autoImplicit false

namespace ZenohRos2
open Rust

/-- The two bits of an extension header that say which body follows. -/
def extensionEncoding (ext : UInt8) : UInt8 := (ext >>> 5) &&& 0x03

def VbyteThen (buf : Bytes) (pos : Nat) (next : UInt64 → Nat → Prop) : Prop :=
  ∀ value stop, VbyteAt buf pos value stop → next value stop

def VbyteIfThen (present : Bool) (buf : Bytes) (pos : Nat) (next : Nat → Prop) : Prop :=
  if present then VbyteThen buf pos fun _ stop => next stop else next pos

variable [Target]

/-- Header length and declared length of a slice add up to a `usize`. -/
def SliceFits (buf : Bytes) (pos : Nat) : Prop :=
  VbyteThen buf pos fun len start => start - pos + asUsize len < usizeSize

/-- `next` gets the declared length and the start of the slice. -/
def SliceThen (buf : Bytes) (pos : Nat) (next : UInt64 → Nat → Prop) : Prop :=
  VbyteThen buf pos fun len start => start - pos + asUsize len < usizeSize ∧
    (start + asUsize len ≤ buf.length → next len start)

def sliceBytes (buf : Bytes) (len : UInt64) (start : Nat) : Bytes :=
  (buf.drop start).take (asUsize len)

/-- `next` gets the place where the length of the suffix stands, if there is one. -/
def SuffixThen (present : Bool) (buf : Bytes) (pos : Nat) (next : Option Nat → Nat → Prop) : Prop :=
  if present then SliceThen buf pos fun len start =>
    (fromUtf8 (sliceBytes buf len start)).isSome → next (some pos) (start + asUsize len)
  else next none pos

def TimestampThen (present : Bool) (buf : Bytes) (pos : Nat) (next : Nat → Prop) : Prop :=
  if present then VbyteThen buf pos fun _ middle => VbyteThen buf middle fun size start =>
    start + asUsize size < usizeSize ∧ (start + asUsize size ≤ buf.length → next (start + asUsize size))
  else next pos

/-- The body of an extension with header `ext` reaches from `pos` to `stop`. -/
inductive ExtensionBodyAt (buf : Bytes) (pos : Nat) (ext : UInt8) : Nat → Prop where
  | unit (encoding : extensionEncoding ext = 0) : ExtensionBodyAt buf pos ext pos
  | z64 {value : UInt64} {stop : Nat} (encoding : extensionEncoding ext = 1)
      (found : VbyteAt buf pos value stop) : ExtensionBodyAt buf pos ext stop
  | zbuf {len : UInt64} {start : Nat} (unit : extensionEncoding ext ≠ 0) (z64 : extensionEncoding ext ≠ 1)
      (found : VbyteAt buf pos len start) (inside : start + asUsize len ≤ buf.length) :
      ExtensionBodyAt buf pos ext (start + asUsize len)

/-- An extension reaches from `pos` to `stop`; `more` is the flag in its header. -/
structure ExtensionAt (buf : Bytes) (pos : Nat) (more : Bool) (stop : Nat) : Prop where
  found : ∃ ext, buf[pos]? = some ext ∧ hasFlag ext 0x80 = more ∧ ExtensionBodyAt buf (pos + 1) ext stop

/-- A chain of extensions reaches from `pos` to `stop`. It ends with an
extension without the flag, or where the buffer ends. -/
inductive ChainAt (buf : Bytes) : Nat → Nat → Prop where
  | past {pos : Nat} (outside : buf.length ≤ pos) : ChainAt buf pos pos
  | last {pos stop : Nat} (extension : ExtensionAt buf pos false stop) : ChainAt buf pos stop
  | more {pos middle stop : Nat} (extension : ExtensionAt buf pos true middle)
      (rest : ChainAt buf middle stop) : ChainAt buf pos stop

/-- The header at `place` belongs to the chain that starts at `pos`. -/
inductive HeaderOf (buf : Bytes) (place : Nat) : Nat → Prop where
  | here : HeaderOf buf place place
  | later {pos middle : Nat} (extension : ExtensionAt buf pos true middle)
      (rest : HeaderOf buf place middle) : HeaderOf buf place pos

/-- If the extension at `place` has a ZBuf body, its length can be added. -/
def ZbufFits (buf : Bytes) (place : Nat) : Prop :=
  ∀ ext, buf[place]? = some ext → extensionEncoding ext ≠ 0 → extensionEncoding ext ≠ 1 →
    SliceFits buf (place + 1)

def ChainFits (buf : Bytes) (pos : Nat) : Prop := ∀ place, HeaderOf buf place pos → ZbufFits buf place

def ChainThen (present : Bool) (buf : Bytes) (pos : Nat) (next : Nat → Prop) : Prop :=
  if present then ChainFits buf pos ∧ ∀ stop, ChainAt buf pos stop → next stop else next pos

section Bounds
variable {buf : Bytes} {pos stop : Nat}

theorem ExtensionAt.bounds {more : Bool} (extension : ExtensionAt buf pos more stop) :
    pos < stop ∧ stop ≤ buf.length := by
  obtain ⟨ext, found, -, body⟩ := extension
  have inside : pos < buf.length := (List.getElem?_eq_some_iff.mp found).1
  cases body with
  | unit _ => omega
  | z64 _ vbyte =>
    have bounds := vbyte.bounds
    omega
  | zbuf _ _ vbyte fits =>
    have bounds := vbyte.bounds
    omega

theorem ChainAt.bounds (chain : ChainAt buf pos stop) (inside : pos ≤ buf.length) :
    pos ≤ stop ∧ stop ≤ buf.length := by
  induction chain with
  | past _ => omega
  | last extension =>
    have bounds := extension.bounds
    omega
  | more extension _ ih =>
    have bounds := extension.bounds
    have rest := ih bounds.2
    omega

end Bounds

section Chain
variable {buf : Bytes} {pos : Nat}

theorem extensionAt_iff (within : pos < buf.length) {more : Bool} {stop : Nat} :
    ExtensionAt buf pos more stop ↔
      hasFlag buf[pos] 0x80 = more ∧ ExtensionBodyAt buf (pos + 1) buf[pos] stop := by
  have found : buf[pos]? = some buf[pos] := List.getElem?_eq_getElem within
  constructor
  · rintro ⟨ext, same, flag, body⟩
    rw [found] at same
    cases same
    exact ⟨flag, body⟩
  · rintro ⟨flag, body⟩
    exact ⟨_, found, flag, body⟩

theorem chain_outside (outside : buf.length ≤ pos) (post : Nat → Prop) :
    (ChainFits buf pos ∧ ∀ stop, ChainAt buf pos stop → post stop) ↔ post pos := by
  have none {more : Bool} {stop : Nat} : ¬ExtensionAt buf pos more stop := fun extension => by
    have bounds := extension.bounds
    omega
  refine ⟨fun all => all.2 pos (.past outside), fun holds => ⟨fun place header => ?_, fun stop chain => ?_⟩⟩
  · cases header with
    | here =>
      intro ext found
      have inside := (List.getElem?_eq_some_iff.mp found).1
      omega
    | later extension _ => exact absurd extension none
  · cases chain with
    | past _ => exact holds
    | last extension => exact absurd extension none
    | more extension _ => exact absurd extension none

theorem chainFits_iff : ChainFits buf pos ↔
    ZbufFits buf pos ∧ ∀ middle, ExtensionAt buf pos true middle → ChainFits buf middle := by
  constructor
  · intro fits
    exact ⟨fits pos .here, fun middle extension place header => fits place (.later extension header)⟩
  · rintro ⟨first, rest⟩ place header
    cases header with
    | here => exact first
    | later extension header => exact rest _ extension place header

theorem forall_chainAt (inside : pos < buf.length) (next : Nat → Prop) :
    (∀ stop, ChainAt buf pos stop → next stop) ↔
      (∀ stop, ExtensionAt buf pos false stop → next stop) ∧
      ∀ middle, ExtensionAt buf pos true middle → ∀ stop, ChainAt buf middle stop → next stop := by
  constructor
  · intro all
    exact ⟨fun stop extension => all stop (.last extension),
      fun middle extension stop rest => all stop (.more extension rest)⟩
  · rintro ⟨last, more⟩ stop chain
    cases chain with
    | past outside => omega
    | last extension => exact last stop extension
    | more extension rest => exact more _ extension stop rest

end Chain

section Returns
variable {buf : Bytes} {pos : Nat} (addressable : Addressable buf) (inside : pos ≤ buf.length)
include addressable inside

theorem returns_readVbyte_iff {post : UInt64 × Nat → Prop} {next : UInt64 → Nat → Prop}
    (agree : ∀ value stop, VbyteAt buf pos value stop → (post (value, stop) ↔ next value stop)) :
    (readVbyte buf pos).Returns post ↔ VbyteThen buf pos next := by
  rw [returns_readVbyte addressable inside]
  exact forall₃_congr agree

theorem returns_readSlice_iff {post : Bytes × Nat → Prop} {next : UInt64 → Nat → Prop}
    (agree : ∀ len start, VbyteAt buf pos len start → start + asUsize len ≤ buf.length →
      (post (sliceBytes buf len start, start + asUsize len) ↔ next len start)) :
    (readSlice buf pos).Returns post ↔ SliceThen buf pos next := by
  rw [returns_readSlice addressable inside]
  apply forall₃_congr
  intro len start found
  unfold sliceAfter
  by_cases fits : start - pos + asUsize len < usizeSize
  · rw [if_pos fits]
    by_cases within : start + asUsize len ≤ buf.length
    · rw [if_pos within]
      simpa [fits, within, sliceBytes] using agree len start found within
    · rw [if_neg within]
      simp [fits, within]
  · rw [if_neg fits]
    simp [fits]

theorem returns_skipVbyteIf_iff (present : Bool) {post next : Nat → Prop}
    (agree : ∀ stop, pos ≤ stop → stop ≤ buf.length → (post stop ↔ next stop)) :
    (skipVbyteIf present buf pos).Returns post ↔ VbyteIfThen present buf pos next := by
  cases present with
  | false => exact agree pos (Nat.le_refl _) inside
  | true =>
    refine (Outcome.returns_bind _ _ _).trans (returns_readVbyte_iff addressable inside fun value stop found => ?_)
    have bounds := found.bounds
    exact agree stop (by omega) (by omega)

theorem returns_readSuffix_iff (present : Bool) {post : String × Nat → Prop}
    {next : Option Nat → Nat → Prop}
    (plain : present = false → (post ("", pos) ↔ next none pos))
    (agree : ∀ len start text, present = true → VbyteAt buf pos len start →
      start + asUsize len ≤ buf.length → fromUtf8 (sliceBytes buf len start) = some text →
      (post (text, start + asUsize len) ↔ next (some pos) (start + asUsize len))) :
    (readSuffix present buf pos).Returns post ↔ SuffixThen present buf pos next := by
  cases present with
  | false => exact plain rfl
  | true =>
    refine (Outcome.returns_bind _ _ _).trans
      (returns_readSlice_iff addressable inside fun len start found within => ?_)
    cases decoded : fromUtf8 (sliceBytes buf len start) with
    | none => simp [decoded]
    | some text => simpa [decoded] using agree len start text rfl found within decoded

theorem returns_readTimestamp_iff (present : Bool) {post next : Nat → Prop}
    (agree : ∀ stop, pos ≤ stop → stop ≤ buf.length → (post stop ↔ next stop)) :
    (readTimestamp present buf pos).Returns post ↔ TimestampThen present buf pos next := by
  cases present with
  | false => exact agree pos (Nat.le_refl _) inside
  | true =>
    refine (Outcome.returns_bind _ _ _).trans (returns_readVbyte_iff addressable inside fun time middle first => ?_)
    have left := first.bounds
    refine (Outcome.returns_bind _ _ _).trans
      (returns_readVbyte_iff addressable (by omega) fun size start second => ?_)
    have right := second.bounds
    refine (Outcome.returns_bind _ _ _).trans ((returns_usizeAdd _ _ _).trans (and_congr_right fun _ => ?_))
    by_cases within : start + asUsize size ≤ buf.length
    · rw [if_neg (by omega)]
      simpa [within] using agree (start + asUsize size) (by omega) within
    · rw [if_pos (by omega)]
      simp [within]

omit inside in
theorem returns_skipExtensionBody (within : pos < buf.length) (post : Nat → Prop) :
    (skipExtensionBody buf (pos + 1) buf[pos]).Returns post ↔
      ZbufFits buf pos ∧ ∀ stop, ExtensionBodyAt buf (pos + 1) buf[pos] stop → post stop := by
  have found : buf[pos]? = some buf[pos] := List.getElem?_eq_getElem within
  generalize buf[pos] = ext at found ⊢
  -- The header is fixed, so the condition on every header is one on this header.
  have here : ZbufFits buf pos ↔
      (extensionEncoding ext ≠ 0 → extensionEncoding ext ≠ 1 → SliceFits buf (pos + 1)) := by
    refine ⟨fun fits => fits ext found, fun fits other same => ?_⟩
    rw [found] at same
    cases same
    exact fits
  rw [here, skipExtensionBody]
  change (if extensionEncoding ext = 0 then _ else if extensionEncoding ext = 1 then _ else _ : Decode Nat).Returns post ↔ _
  by_cases unit : extensionEncoding ext = 0
  · rw [if_pos unit, Outcome.returns_ok]
    refine ⟨fun holds => ⟨fun other => absurd unit other, fun stop body => ?_⟩,
      fun all => all.2 _ (.unit unit)⟩
    cases body with
    | unit _ => exact holds
    | z64 z64 _ => exact absurd (unit.symm.trans z64) (by decide)
    | zbuf other _ _ _ => exact absurd unit other
  · rw [if_neg unit]
    by_cases z64 : extensionEncoding ext = 1
    · rw [if_pos z64]
      refine (Outcome.returns_bind _ _ _).trans
        ((returns_readVbyte_iff addressable within fun _ _ _ => Iff.rfl).trans ?_)
      refine ⟨fun holds => ⟨fun _ other => absurd z64 other, fun stop body => ?_⟩,
        fun all value stop at_ => all.2 _ (.z64 z64 at_)⟩
      cases body with
      | unit other => exact absurd other unit
      | z64 _ at_ => exact holds _ _ at_
      | zbuf _ other _ _ => exact absurd z64 other
    · rw [if_neg z64]
      refine (Outcome.returns_bind _ _ _).trans
        ((returns_readSlice_iff addressable within fun _ _ _ _ => Iff.rfl).trans ?_)
      refine ⟨fun holds => ⟨fun _ _ value stop at_ => (holds value stop at_).1, fun stop body => ?_⟩,
        fun all value stop at_ => ⟨all.1 unit z64 value stop at_, fun fits => all.2 _ (.zbuf unit z64 at_ fits)⟩⟩
      cases body with
      | unit other => exact absurd other unit
      | z64 other _ => exact absurd other z64
      | zbuf _ _ at_ fits => exact (holds _ _ at_).2 fits

theorem returns_skipExtensionsLoop {turns : Nat} (enough : buf.length - pos ≤ turns) (post : Nat → Prop) :
    (skipExtensionsLoop turns buf pos).Returns post ↔
      ChainFits buf pos ∧ ∀ stop, ChainAt buf pos stop → post stop := by
  -- An extension takes at least its header, so the turns suffice.
  induction turns generalizing pos with
  | zero => exact (chain_outside (by omega) post).symm
  | succ turns ih =>
    by_cases within : pos < buf.length
    · rw [skipExtensionsLoop, if_pos within, index_eq within, Outcome.ok_bind,
        usizeAdd_eq (addressable.lt_usizeSize (by omega) (by omega)), Outcome.ok_bind, Outcome.returns_bind,
        returns_skipExtensionBody addressable within, chainFits_iff, forall_chainAt within]
      simp only [extensionAt_iff within]
      cases flag : hasFlag buf[pos] 0x80 with
      | false => simp
      | true =>
        have rest (stop : Nat) (body : ExtensionBodyAt buf (pos + 1) buf[pos] stop) :
            (skipExtensionsLoop turns buf stop).Returns post ↔
              ChainFits buf stop ∧ ∀ last, ChainAt buf stop last → post last := by
          have bounds := ExtensionAt.bounds ((extensionAt_iff within).mpr ⟨flag, body⟩)
          exact ih bounds.2 (by omega)
        simp only [if_true, true_and, Bool.true_eq_false, false_and, false_implies, implies_true]
        rw [forall₂_congr rest]
        simp only [forall_and, and_assoc]
    · rw [skipExtensionsLoop, if_neg within]
      exact (chain_outside (by omega) post).symm

theorem returns_skipExtensionsIf_iff (present : Bool) {post next : Nat → Prop}
    (agree : ∀ stop, pos ≤ stop → stop ≤ buf.length → (post stop ↔ next stop)) :
    (skipExtensionsIf present buf pos).Returns post ↔ ChainThen present buf pos next := by
  cases present with
  | false => exact agree pos (Nat.le_refl _) inside
  | true =>
    refine (returns_skipExtensionsLoop addressable inside (Nat.le_refl _) post).trans
      (and_congr_right fun _ => forall₂_congr fun stop chain => ?_)
    have bounds := chain.bounds inside
    exact agree stop bounds.1 bounds.2

end Returns
end ZenohRos2
