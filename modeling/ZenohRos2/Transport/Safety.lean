import ZenohRos2.Transport.Paths

/-! When the decoders are safe on any bytes at all.

A decoder is safe on a buffer if it does not panic, consumes between one byte
and the whole buffer when it returns a value, and returns slices of exactly the
length their header declares. The bounds checks keep every access inside the
buffer; what is left are sums and products of numbers the sender chose, and
lengths that do not fit a `usize`. Each decoder has its exact condition.
-/

set_option autoImplicit false

namespace ZenohRos2
open Rust

def Consumed (buf : Bytes) (count : Nat) : Prop := 1 ≤ count ∧ count ≤ buf.length

/-- The slice has the length that is declared at `pos`. -/
def DeclaredAt (buf : Bytes) (pos : Nat) (data : Bytes) : Prop :=
  ∀ n stop, NumberAt buf pos n stop → data.length = n

def ByteThen (buf : Bytes) (pos : Nat) (next : UInt8 → Prop) : Prop :=
  ∀ byte, buf[pos]? = some byte → next byte

section Steps
variable {α ε : Type} {buf : Bytes} {pos : Nat}

theorem returns_first_iff {early : Outcome ε α} {body : UInt8 → Outcome ε α} {post : α → Prop}
    (holds : early.Returns post) :
    (if buf.isEmpty then early else index buf 0 >>= body).Returns post ↔
      ByteThen buf 0 fun byte => (body byte).Returns post := by
  cases buf with
  | nil => simpa [ByteThen] using holds
  | cons byte rest => simp [ByteThen, index]

theorem returns_byte_iff {early : Outcome ε α} {body : UInt8 → Outcome ε α} {post : α → Prop}
    (holds : early.Returns post) :
    (if pos ≥ buf.length then early else index buf pos >>= body).Returns post ↔
      ByteThen buf pos fun byte => (body byte).Returns post := by
  by_cases within : pos < buf.length
  · rw [if_neg (by omega), index_eq within, Outcome.ok_bind]
    simp [ByteThen, List.getElem?_eq_getElem within]
  · rw [if_pos (by omega)]
    simpa [ByteThen, List.getElem?_eq_none (by omega : buf.length ≤ pos)] using holds

theorem byteThen_congr {next next' : UInt8 → Prop}
    (agree : ∀ byte, pos < buf.length → (next byte ↔ next' byte)) :
    ByteThen buf pos next ↔ ByteThen buf pos next' :=
  forall₂_congr fun byte found => agree byte (List.getElem?_eq_some_iff.mp found).1

theorem byteThen_prior (pos : Nat) (next : UInt8 → Prop) :
    (ByteThen buf pos fun _ => ByteThen buf (pos + 1) next) ↔ ByteThen buf (pos + 1) next := by
  refine ⟨fun all byte found => ?_, fun all _ _ => all⟩
  have inside := (List.getElem?_eq_some_iff.mp found).1
  exact all buf[pos] (List.getElem?_eq_getElem (by omega)) byte found

theorem byteThen_and {left right : UInt8 → Prop} :
    (ByteThen buf pos fun byte => left byte ∧ right byte) ↔ ByteThen buf pos left ∧ ByteThen buf pos right :=
  ⟨fun all => ⟨fun byte found => (all byte found).1, fun byte found => (all byte found).2⟩,
    fun both byte found => ⟨both.1 byte found, both.2 byte found⟩⟩

end Steps

variable [Target]

/-- The length that is declared at `pos` fits a `usize`. -/
def ExactAt (buf : Bytes) (pos : Nat) : Prop := ∀ n stop, NumberAt buf pos n stop → n < usizeSize

section Specification
variable (buf : Bytes)

def DecodeVbyteSafe : Prop := (decodeVbyte buf).Returns fun read => Consumed buf read.2

def DecodeZenohIdSafe : Prop := (decodeZenohId buf).Returns fun read => Consumed buf read.2

def DecodeSliceSafe : Prop :=
  (decodeSlice buf).Returns fun read => Consumed buf read.2 ∧ DeclaredAt buf 0 read.1

def DecodeInitAckSafe : Prop :=
  (decodeInitAck buf).Returns fun read => Consumed buf read.2 ∧
    ∀ head, decodeInitAckHead buf = .ok head → DeclaredAt buf head.pos read.1.cookie

def DecodeOpenAckSafe : Prop := (decodeOpenAck buf).Returns fun read => Consumed buf read.2

def DecodeFrameHeaderSafe : Prop := (decodeFrameHeader buf).Returns fun read => Consumed buf read.2.2

def DecodeFragmentHeaderSafe : Prop :=
  (decodeFragmentHeader buf).Returns fun read => Consumed buf read.2.2.2

/-- The length of a suffix stands behind the varints in front of it. -/
def SuffixDeclared (present : Bool) (pos : Nat) (suffix : String) : Prop :=
  present → DeclaredAt buf pos (utf8 suffix)

def DecodePushPutSafe : Prop :=
  (decodePushPut buf).Returns fun read => ∀ incoming count, read = some (incoming, count) →
    Consumed buf count ∧
    (ByteThen buf 0 fun header => VbyteThen buf 1 fun _ pos =>
      SuffixDeclared buf (hasFlag header pushFlag.n) pos incoming.keySuffix) ∧
    ∀ scope suffix pos, decodePushPutHead buf = .ok (some (scope, suffix, pos)) →
      DeclaredAt buf pos incoming.payload

def DecodeResponseSafe : Prop :=
  (decodeResponse buf).Returns fun read => ∀ response count, read = some (response, count) →
    Consumed buf count ∧ ∀ reply, response = .reply reply →
    (ByteThen buf 0 fun header => VbyteThen buf 1 fun _ middle => VbyteThen buf middle fun _ pos =>
      SuffixDeclared buf (hasFlag header responseFlag.n) pos reply.keySuffix) ∧
    ∀ request scope suffix pos, decodeResponseHead buf = .ok (some (.reply request scope suffix pos)) →
      DeclaredAt buf pos reply.payload

end Specification

section Conditions
variable (buf : Bytes)

def DecodeSliceCondition : Prop := SliceThen buf 0 fun _ _ => ExactAt buf 0

def cookieStart (header flags : UInt8) : Nat :=
  3 + ((flags >>> 4).toNat + 1) + if hasFlag header initFlag.s then 3 else 0

def DecodeInitAckCondition : Prop :=
  ByteThen buf 0 fun header => messageId header = transportId.init → hasFlag header initFlag.a →
  ByteThen buf 2 fun flags => flags &&& 0b11 ≠ 0b11 → cookieStart header flags ≤ buf.length →
  SliceThen buf (cookieStart header flags) fun len start => asUsize len ≤ cookieCap →
  ChainThen (hasFlag header initFlag.z) buf (start + asUsize len) fun _ => ExactAt buf (cookieStart header flags)

def DecodeOpenAckCondition : Prop :=
  ByteThen buf 0 fun header => messageId header = transportId.open_ → hasFlag header openFlag.a →
  VbyteThen buf 1 fun lease _ => hasFlag header openFlag.t → lease.toNat * 1000 < 2 ^ 64

/-- A transport header with a sequence number and, with the Z flag, extensions. -/
def SequencedCondition (id : UInt8) : Prop :=
  ByteThen buf 0 fun header => messageId header = id →
  VbyteThen buf 1 fun _ pos => ChainThen (hasFlag header 0x80) buf pos fun _ => True

def PutThen (pos : Nat) (next : Nat → Prop) : Prop :=
  ByteThen buf pos fun header => messageId header = zenohId.put →
  TimestampThen (hasFlag header putFlag.t) buf (pos + 1) fun pos =>
  VbyteIfThen (hasFlag header putFlag.e) buf pos fun pos =>
  ChainThen (hasFlag header putFlag.z) buf pos next

/-- The payload at `pos` and the suffix keep their declared lengths. -/
def PayloadCondition (suffix : Option Nat) (pos : Nat) : Prop :=
  SliceThen buf pos fun _ _ => (∀ place, suffix = some place → ExactAt buf place) ∧ ExactAt buf pos

def PushPutThen (next : Option Nat → Nat → Prop) : Prop :=
  ByteThen buf 0 fun header => messageId header = networkId.push →
  VbyteThen buf 1 fun _ pos =>
  SuffixThen (hasFlag header pushFlag.n) buf pos fun suffix pos =>
  ChainThen (hasFlag header pushFlag.z) buf pos fun pos =>
  PutThen buf pos fun pos => next suffix pos

def DecodePushPutCondition : Prop := PushPutThen buf (PayloadCondition buf)

def ReplyThen (next : Option Nat → Nat → Prop) : Prop :=
  ByteThen buf 0 fun header => messageId header = networkId.response →
  VbyteThen buf 1 fun _ pos => VbyteThen buf pos fun _ pos =>
  SuffixThen (hasFlag header responseFlag.n) buf pos fun suffix pos =>
  ChainThen (hasFlag header responseFlag.z) buf pos fun pos =>
  ByteThen buf pos fun header => messageId header = zenohId.reply →
  VbyteIfThen (hasFlag header replyFlag.c) buf (pos + 1) fun pos =>
  ChainThen (hasFlag header replyFlag.z) buf pos fun pos =>
  PutThen buf pos fun pos => next suffix pos

def DecodeReplyCondition : Prop := ReplyThen buf (PayloadCondition buf)

def DecodeResponseCondition : Prop :=
  SequencedCondition buf networkId.responseFinal ∧ DecodeReplyCondition buf

end Conditions

section Simple
variable {buf : Bytes}

omit [Target] in
theorem declaredAt_iff {pos n stop : Nat} (number : NumberAt buf pos n stop) (data : Bytes) :
    DeclaredAt buf pos data ↔ data.length = n := by
  refine ⟨fun declared => declared n stop number, fun same m stop' other => ?_⟩
  rwa [← (number.unique other).1]

theorem exactAt_iff {pos n stop : Nat} (number : NumberAt buf pos n stop) : ExactAt buf pos ↔ n < usizeSize := by
  refine ⟨fun exact_ => exact_ n stop number, fun small m stop' other => ?_⟩
  rwa [← (number.unique other).1]

theorem sliceBytes_length {len : UInt64} {start : Nat} (inside : start + asUsize len ≤ buf.length) :
    (sliceBytes buf len start).length = asUsize len := by
  rw [sliceBytes, List.length_take, List.length_drop]
  omega

theorem declaredAt_sliceBytes {pos : Nat} {len : UInt64} {start : Nat} (found : VbyteAt buf pos len start)
    (inside : start + asUsize len ≤ buf.length) :
    DeclaredAt buf pos (sliceBytes buf len start) ↔ ExactAt buf pos := by
  obtain ⟨n, number, rfl⟩ := found.exists_numberAt
  rw [declaredAt_iff number, exactAt_iff number, sliceBytes_length inside]
  have size := usizeSize_le
  have cut : asUsize (UInt64.ofNat n) < usizeSize := Nat.mod_lt _ (Nat.lt_of_lt_of_le (by decide) le_usizeSize)
  constructor
  · intro kept
    omega
  · intro small
    have whole : (UInt64.ofNat n).toNat = n := UInt64.toNat_ofNat_of_lt' (Nat.lt_of_lt_of_le small size)
    rw [asUsize_of_lt (by omega), whole]

theorem decodeVbyte_safe (buf : Bytes) : DecodeVbyteSafe buf := by
  apply ((computes_decodeVbyte buf).returns_iff _).mpr
  intro read found
  have bounds := found.bounds
  exact ⟨by omega, bounds.2⟩

theorem decodeZenohId_safe (buf : Bytes) : DecodeZenohIdSafe buf := by
  apply (returns_first_iff (Outcome.err_returns _ _)).mpr
  intro first found
  have small := first.toNat_lt
  have size := le_usizeSize
  simp only [Outcome.returns_bind, returns_usizeAdd]
  refine ⟨by omega, by omega, (Outcome.returns_guard (Outcome.err_returns _ _)).mpr fun inside => ?_⟩
  simp only [Outcome.returns_bind, returns_sliceRange, Outcome.returns_ok]
  exact ⟨⟨by omega, by omega⟩, by omega, by omega⟩

theorem decodeSlice_safe_iff (buf : Bytes) : DecodeSliceSafe buf ↔ DecodeSliceCondition buf := by
  refine (Outcome.returns_bind _ _ _).trans (((computes_decodeVbyte buf).returns_iff _).trans
    (Prod.forall.trans (forall₃_congr fun len start found => ?_)))
  have bounds := found.bounds
  simp only at bounds
  refine (Outcome.returns_bind _ _ _).trans ((returns_usizeAdd _ _ _).trans (and_congr_right fun _ =>
    (Outcome.returns_guard (Outcome.err_returns _ _)).trans (imp_congr_ctx (by omega) fun inside => ?_)))
  have slice : (buf.take (start + asUsize len)).drop start = sliceBytes buf len start := by
    rw [List.drop_take, Nat.add_sub_cancel_left, sliceBytes]
  simp only [Outcome.returns_bind, returns_sliceRange, Outcome.returns_ok]
  rw [slice, declaredAt_sliceBytes found inside]
  exact ⟨fun all => all.2.2, fun exact_ => ⟨⟨by omega, inside⟩, ⟨by omega, inside⟩, exact_⟩⟩

theorem sequenced_iff (addressable : Addressable buf) (id : UInt8) {α : Type} {early : Decode α}
    (finish : UInt8 → UInt64 → Nat → α) {post : α → Prop} (holds : early.Returns post)
    (consumed : ∀ header sn pos, Consumed buf pos → post (finish header sn pos)) :
    (if buf.isEmpty then early else do
      let header ← index buf 0
      if messageId header ≠ id then .err .invalidEncoding
      else do
        let (sn, pos) ← readVbyte buf 1
        let pos ← skipExtensionsIf (hasFlag header 0x80) buf pos
        .ok (finish header sn pos)).Returns post ↔ SequencedCondition buf id := by
  refine (returns_first_iff holds).trans (byteThen_congr fun header inside => ?_)
  refine (Outcome.returns_guard (Outcome.err_returns _ _)).trans (imp_congr Classical.not_not ?_)
  refine (Outcome.returns_bind _ _ _).trans (returns_readVbyte_iff addressable (by omega) fun sn pos found => ?_)
  have bounds := found.bounds
  refine (Outcome.returns_bind _ _ _).trans
    (returns_skipExtensionsIf_iff addressable bounds.2 _ fun stop left right => ?_)
  exact iff_true_intro (consumed header sn stop ⟨by omega, right⟩)

theorem decodeFrameHeader_safe_iff (addressable : Addressable buf) :
    DecodeFrameHeaderSafe buf ↔ SequencedCondition buf transportId.frame :=
  sequenced_iff addressable _ (fun header sn pos => (sn, hasFlag header frameFlag.r, pos))
    (Outcome.err_returns _ _) fun _ _ _ consumed => consumed

theorem decodeFragmentHeader_safe_iff (addressable : Addressable buf) :
    DecodeFragmentHeaderSafe buf ↔ SequencedCondition buf transportId.fragment :=
  sequenced_iff addressable _
    (fun header sn pos => (sn, hasFlag header fragmentFlag.r, hasFlag header fragmentFlag.m, pos))
    (Outcome.err_returns _ _) fun _ _ _ consumed => consumed

theorem decodeOpenAck_safe_iff (addressable : Addressable buf) :
    DecodeOpenAckSafe buf ↔ DecodeOpenAckCondition buf := by
  refine (returns_first_iff (Outcome.err_returns _ _)).trans (byteThen_congr fun header inside => ?_)
  refine (Outcome.returns_guard (Outcome.err_returns _ _)).trans (imp_congr Classical.not_not ?_)
  refine (Outcome.returns_guard (Outcome.err_returns _ _)).trans (imp_congr (by simp) ?_)
  refine (Outcome.returns_bind _ _ _).trans (returns_readVbyte_iff addressable (by omega) fun lease pos found => ?_)
  have bounds := found.bounds
  have rest (leaseMs : UInt64) : (do
      let (initialSn, pos) ← readVbyte buf pos
      .ok (⟨leaseMs, initialSn⟩, pos) : Decode (OpenAck × Nat)).Returns fun read => Consumed buf read.2 := by
    rw [Outcome.returns_bind, returns_readVbyte addressable bounds.2]
    intro sn stop found'
    have bounds' := found'.bounds
    exact ⟨by omega, bounds'.2⟩
  cases hasFlag header openFlag.t with
  | false => simpa using rest lease
  | true =>
    refine (Outcome.returns_bind _ _ _).trans ((returns_u64Mul _ _ _).trans ?_)
    simpa using fun _ => rest (lease * 1000)

end Simple

section InitAck
variable {buf : Bytes}

omit [Target] in
theorem returns_whatamiFrom2bit (bits : UInt8) {post : WhatAmI → Prop} {next : Prop}
    (agree : ∀ whatami, post whatami ↔ next) :
    (whatamiFrom2bit bits).Returns post ↔ (bits &&& 0b11 ≠ 0b11 → next) := by
  have every : bits &&& 0b11 = 0b00 ∨ bits &&& 0b11 = 0b01 ∨ bits &&& 0b11 = 0b10 ∨ bits &&& 0b11 = 0b11 := by
    revert bits
    apply forall_uint8
    decide +kernel
  rcases every with same | same | same | same <;> simp [whatamiFrom2bit, same, agree]

theorem returns_readBatchSize_iff (addressable : Addressable buf) (present : Bool) {pos : Nat}
    (inside : pos ≤ buf.length) {post : Option UInt16 × Nat → Prop} {next : Nat → Prop}
    (agree : ∀ batchSize stop, stop ≤ buf.length → (post (batchSize, stop) ↔ next stop)) :
    (readBatchSize present buf pos).Returns post ↔
      (pos + (if present then 3 else 0) ≤ buf.length → next (pos + if present then 3 else 0)) := by
  cases present with
  | false => simpa [readBatchSize, inside] using agree none pos inside
  | true =>
    have room : 3 ≤ isizeMax := le_isizeMax (by decide)
    have length : buf.length ≤ isizeMax := addressable
    have size := usizeSize_eq
    refine (Outcome.returns_bind _ _ _).trans ((returns_usizeAdd _ _ _).trans ?_)
    rw [and_iff_right (by omega)]
    refine (Outcome.returns_guard (Outcome.err_returns _ _)).trans (imp_congr_ctx (by simp) fun fits => ?_)
    simp only [if_true] at fits
    have first : pos < buf.length := by omega
    have second : pos + 1 < buf.length := by omega
    have third : pos + 1 + 1 < buf.length := by omega
    simp only [Outcome.returns_bind, returns_usizeAdd, returns_index first, returns_index second,
      returns_index third, Outcome.returns_ok]
    refine (and_iff_right (by omega)).trans ((and_iff_right (by omega)).trans ((and_iff_right (by omega)).trans ?_))
    exact agree _ _ fits

theorem returns_decodeInitAckHead_iff (addressable : Addressable buf) (post : InitAckHead → Prop)
    (next : UInt8 → Nat → Prop)
    (agree : ∀ header head, head.hasExt = hasFlag header initFlag.z → head.pos ≤ buf.length →
      (post head ↔ next header head.pos)) :
    (decodeInitAckHead buf).Returns post ↔
      ByteThen buf 0 fun header => messageId header = transportId.init → hasFlag header initFlag.a →
      ByteThen buf 2 fun flags => flags &&& 0b11 ≠ 0b11 → cookieStart header flags ≤ buf.length →
      next header (cookieStart header flags) := by
  refine (returns_first_iff (Outcome.err_returns _ _)).trans (byteThen_congr fun header inside => ?_)
  refine (Outcome.returns_guard (Outcome.err_returns _ _)).trans (imp_congr Classical.not_not ?_)
  refine (Outcome.returns_guard (Outcome.err_returns _ _)).trans (imp_congr (by simp) ?_)
  refine (returns_byte_iff (Outcome.err_returns _ _)).trans (Iff.trans ?_ (byteThen_prior 1 _))
  apply byteThen_congr
  intro version _
  refine (returns_byte_iff (Outcome.err_returns _ _)).trans (byteThen_congr fun flags _ => ?_)
  refine (Outcome.returns_bind _ _ _).trans (returns_whatamiFrom2bit _ fun whatami => ?_)
  have size := le_usizeSize
  have small := (flags >>> 4).toNat_lt
  simp only [Outcome.returns_bind, returns_usizeAdd]
  refine (and_iff_right (by omega)).trans ((and_iff_right (by omega)).trans ?_)
  by_cases fits : 3 + ((flags >>> 4).toNat + 1) ≤ buf.length
  · rw [if_neg (by omega)]
    simp only [Outcome.returns_bind, returns_sliceRange]
    apply (and_iff_right ⟨by omega, fits⟩).trans
    exact returns_readBatchSize_iff addressable _ fits fun batchSize stop within => agree _ _ rfl within
  · rw [if_pos (by omega)]
    apply iff_of_true trivial
    intro beyond
    unfold cookieStart at beyond
    omega

theorem decodeInitAck_safe_iff (addressable : Addressable buf) :
    DecodeInitAckSafe buf ↔ DecodeInitAckCondition buf := by
  apply (Outcome.returns_bind _ _ _).trans
  have located (head : InitAckHead) (same : decodeInitAckHead buf = .ok head) (data : Bytes) :
      (∀ other, decodeInitAckHead buf = .ok other → DeclaredAt buf other.pos data) ↔
        DeclaredAt buf head.pos data :=
    ⟨fun all => all head same, fun declared other found => Outcome.ok.inj (same.symm.trans found) ▸ declared⟩
  have inside := (returns_decodeInitAckHead_iff addressable (fun head => head.pos ≤ buf.length)
    (fun _ pos => pos ≤ buf.length) fun _ _ _ _ => Iff.rfl).mpr fun _ _ _ _ _ _ _ fits => fits
  refine Iff.trans ?_ (returns_decodeInitAckHead_iff addressable
    (fun head => SliceThen buf head.pos fun len start => asUsize len ≤ cookieCap →
      ChainThen head.hasExt buf (start + asUsize len) fun _ => ExactAt buf head.pos)
    (fun header pos => SliceThen buf pos fun len start => asUsize len ≤ cookieCap →
      ChainThen (hasFlag header initFlag.z) buf (start + asUsize len) fun _ => ExactAt buf pos)
    fun header head flag _ => by rw [flag])
  apply Outcome.returns_congr
  intro head same
  have within : head.pos ≤ buf.length := inside.of_ok same
  simp only [located head same]
  refine (Outcome.returns_bind _ _ _).trans
    (returns_readSlice_iff addressable within fun len start found fits => ?_)
  have bounds := found.bounds
  have length : (sliceBytes buf len start).length = asUsize len := sliceBytes_length fits
  simp only [length]
  refine (Outcome.returns_guard (Outcome.err_returns _ _)).trans (imp_congr (by omega) ?_)
  refine (Outcome.returns_bind _ _ _).trans
    (returns_skipExtensionsIf_iff addressable fits _ fun stop left right => ?_)
  rw [Outcome.returns_ok]
  simp only [declaredAt_sliceBytes found fits]
  exact and_iff_right ⟨by omega, right⟩

end InitAck

section Messages
variable {buf : Bytes}

/-- The suffix of a wire expression at `pos`, with the place of its length. -/
inductive SuffixAt (buf : Bytes) (pos : Nat) : Bool → String → Option Nat → Prop where
  | absent : SuffixAt buf pos false "" none
  | present {text : String} {len : UInt64} {start : Nat} (found : VbyteAt buf pos len start)
      (inside : start + asUsize len ≤ buf.length) (decoded : fromUtf8 (sliceBytes buf len start) = some text) :
      SuffixAt buf pos true text (some pos)

theorem SuffixAt.declared_iff {pos : Nat} {flag : Bool} {suffix : String} {declared : Option Nat}
    (at_ : SuffixAt buf pos flag suffix declared) :
    SuffixDeclared buf flag pos suffix ↔ ∀ place, declared = some place → ExactAt buf place := by
  cases at_ with
  | absent => simp [SuffixDeclared]
  | present found inside decoded =>
    simp only [SuffixDeclared, utf8_of_fromUtf8 decoded, declaredAt_sliceBytes found inside]
    simp

theorem returns_put_iff (addressable : Addressable buf) (pos : Nat) {α : Type} (finish : Nat → α)
    {post : Option α → Prop} {next : Nat → Prop} (holds : post none)
    (agree : ∀ stop, stop ≤ buf.length → (post (some (finish stop)) ↔ next stop)) :
    (if pos ≥ buf.length then .err .invalidEncoding else do
      let putHeader ← index buf pos
      let pos ← usizeAdd pos 1
      if messageId putHeader ≠ zenohId.put then .ok none
      else do
        let pos ← readTimestamp (hasFlag putHeader putFlag.t) buf pos
        let pos ← skipVbyteIf (hasFlag putHeader putFlag.e) buf pos
        let pos ← skipExtensionsIf (hasFlag putHeader putFlag.z) buf pos
        .ok (some (finish pos)) : Decode (Option α)).Returns post ↔ PutThen buf pos next := by
  refine (returns_byte_iff (Outcome.err_returns _ _)).trans (byteThen_congr fun header inside => ?_)
  rw [usizeAdd_eq (addressable.lt_usizeSize (by omega) (by omega)), Outcome.ok_bind]
  refine (Outcome.returns_guard ((Outcome.returns_ok _ _).mpr holds)).trans (imp_congr Classical.not_not ?_)
  refine (Outcome.returns_bind _ _ _).trans
    (returns_readTimestamp_iff addressable inside _ fun time _ right => ?_)
  refine (Outcome.returns_bind _ _ _).trans
    (returns_skipVbyteIf_iff addressable right _ fun encoding _ right => ?_)
  refine (Outcome.returns_bind _ _ _).trans
    (returns_skipExtensionsIf_iff addressable right _ fun stop _ right => ?_)
  exact agree stop right

theorem returns_decodePushPutHead_iff (addressable : Addressable buf)
    (post : Option (UInt64 × String × Nat) → Prop) (next : Option Nat → Nat → Prop) (holds : post none)
    (agree : ∀ header scope middle suffix declared pos, buf[0]? = some header → VbyteAt buf 1 scope middle →
      SuffixAt buf middle (hasFlag header pushFlag.n) suffix declared → pos ≤ buf.length →
      (post (some (scope, suffix, pos)) ↔ next declared pos)) :
    (decodePushPutHead buf).Returns post ↔ PushPutThen buf next := by
  refine (returns_first_iff ((Outcome.returns_ok _ _).mpr holds)).trans (forall₂_congr fun header first => ?_)
  have inside : 1 ≤ buf.length := (List.getElem?_eq_some_iff.mp first).1
  refine (Outcome.returns_guard ((Outcome.returns_ok _ _).mpr holds)).trans (imp_congr Classical.not_not ?_)
  refine (Outcome.returns_bind _ _ _).trans (returns_readVbyte_iff addressable inside fun scope middle found => ?_)
  have bounds := found.bounds
  have rest (suffix : String) (declared : Option Nat) (pos : Nat) (within : pos ≤ buf.length)
      (at_ : SuffixAt buf middle (hasFlag header pushFlag.n) suffix declared) :=
    (Outcome.returns_bind _ _ _).trans (returns_skipExtensionsIf_iff addressable within
      (hasFlag header pushFlag.z) fun stop _ _ => returns_put_iff addressable stop
        (fun pos => (scope, suffix, pos)) holds fun _ right => agree _ _ _ _ _ _ first found at_ right)
  refine (Outcome.returns_bind _ _ _).trans
    (returns_readSuffix_iff addressable bounds.2 _ (fun absent => ?_) fun len start text present at_ fits decoded => ?_)
  · exact rest "" none middle bounds.2 (absent ▸ .absent)
  · exact rest text (some _) _ fits (present ▸ .present at_ fits decoded)

theorem returns_payload_iff (addressable : Addressable buf) {pos : Nat} (inside : pos ≤ buf.length)
    {stated : Prop} {declared : Option Nat} (suffix : stated ↔ ∀ place, declared = some place → ExactAt buf place) :
    ((readSlice buf pos).Returns fun read => Consumed buf read.2 ∧ stated ∧ DeclaredAt buf pos read.1) ↔
      PayloadCondition buf declared pos := by
  apply returns_readSlice_iff addressable inside
  intro len start found fits
  have bounds := found.bounds
  rw [declaredAt_sliceBytes found fits, suffix]
  exact and_iff_right ⟨by omega, fits⟩

theorem decodePushPut_safe_iff (addressable : Addressable buf) :
    DecodePushPutSafe buf ↔ DecodePushPutCondition buf := by
  apply (Outcome.returns_bind _ _ _).trans
  refine (Outcome.returns_congr fun read same => ?_).trans (returns_decodePushPutHead_iff addressable
    (fun read => ∀ scope suffix pos, read = some (scope, suffix, pos) →
      (readSlice buf pos).Returns fun slice => Consumed buf slice.2 ∧
        (ByteThen buf 0 fun header => VbyteThen buf 1 fun _ middle =>
          SuffixDeclared buf (hasFlag header pushFlag.n) middle suffix) ∧ DeclaredAt buf pos slice.1)
    (PayloadCondition buf) (fun _ _ _ none => nomatch none) ?_)
  · cases read with
    | none => simp
    | some head =>
      obtain ⟨scope, suffix, pos⟩ := head
      -- The head that the slice belongs to is the one the decoder has found.
      have located (data : Bytes) :
          (∀ scope suffix pos, decodePushPutHead buf = .ok (some (scope, suffix, pos)) →
            DeclaredAt buf pos data) ↔ DeclaredAt buf pos data := by
        refine ⟨fun all => all _ _ _ same, fun declared scope' suffix' pos' other => ?_⟩
        cases same.symm.trans other
        exact declared
      simp [located]
  · intro header scope middle suffix declared pos first found at_ inside
    -- The varints in front of the suffix are unique, so they lead to the suffix that was read.
    have stated : (ByteThen buf 0 fun header => VbyteThen buf 1 fun _ middle =>
        SuffixDeclared buf (hasFlag header pushFlag.n) middle suffix) ↔
        ∀ place, declared = some place → ExactAt buf place := by
      rw [← at_.declared_iff]
      refine ⟨fun all => all header first scope middle found, fun holds header' first' scope' middle' found' => ?_⟩
      cases first.symm.trans first'
      obtain ⟨rfl, rfl⟩ := found.unique found'
      exact holds
    rw [← returns_payload_iff addressable inside stated]
    simp

theorem returns_reply_iff (addressable : Addressable buf) (pos : Nat) {α : Type} (finish : Nat → α)
    {post : Option α → Prop} {next : Nat → Prop} (holds : post none)
    (agree : ∀ stop, stop ≤ buf.length → (post (some (finish stop)) ↔ next stop)) :
    (if pos ≥ buf.length then .err .invalidEncoding else do
      let replyHeader ← index buf pos
      let pos ← usizeAdd pos 1
      if messageId replyHeader ≠ zenohId.reply then .ok none
      else do
        let pos ← skipVbyteIf (hasFlag replyHeader replyFlag.c) buf pos
        let pos ← skipExtensionsIf (hasFlag replyHeader replyFlag.z) buf pos
        if pos ≥ buf.length then .err .invalidEncoding
        else do
          let putHeader ← index buf pos
          let pos ← usizeAdd pos 1
          if messageId putHeader ≠ zenohId.put then .ok none
          else do
            let pos ← readTimestamp (hasFlag putHeader putFlag.t) buf pos
            let pos ← skipVbyteIf (hasFlag putHeader putFlag.e) buf pos
            let pos ← skipExtensionsIf (hasFlag putHeader putFlag.z) buf pos
            .ok (some (finish pos)) : Decode (Option α)).Returns post ↔
      ByteThen buf pos fun header => messageId header = zenohId.reply →
      VbyteIfThen (hasFlag header replyFlag.c) buf (pos + 1) fun pos =>
      ChainThen (hasFlag header replyFlag.z) buf pos fun pos => PutThen buf pos next := by
  refine (returns_byte_iff (Outcome.err_returns _ _)).trans (byteThen_congr fun header inside => ?_)
  rw [usizeAdd_eq (addressable.lt_usizeSize (by omega) (by omega)), Outcome.ok_bind]
  refine (Outcome.returns_guard ((Outcome.returns_ok _ _).mpr holds)).trans (imp_congr Classical.not_not ?_)
  refine (Outcome.returns_bind _ _ _).trans
    (returns_skipVbyteIf_iff addressable inside _ fun consolidation _ right => ?_)
  refine (Outcome.returns_bind _ _ _).trans
    (returns_skipExtensionsIf_iff addressable right _ fun stop _ right => ?_)
  exact returns_put_iff addressable stop finish holds agree

theorem returns_decodeResponseHead_iff (addressable : Addressable buf)
    (post : Option ResponseHead → Prop) (next : Option Nat → Nat → Prop) (holds : post none)
    (final : ∀ request pos, Consumed buf pos → post (some (.final request pos)))
    (agree : ∀ header request first scope middle suffix declared pos, buf[0]? = some header →
      VbyteAt buf 1 request first → VbyteAt buf first scope middle →
      SuffixAt buf middle (hasFlag header responseFlag.n) suffix declared → pos ≤ buf.length →
      (post (some (.reply request.toUInt32 scope suffix pos)) ↔ next declared pos)) :
    (decodeResponseHead buf).Returns post ↔
      SequencedCondition buf networkId.responseFinal ∧ ReplyThen buf next := by
  have early : (Outcome.ok none : Decode (Option ResponseHead)).Returns post :=
    (Outcome.returns_ok _ _).mpr holds
  refine (returns_first_iff early).trans (Iff.trans (forall₂_congr fun header first => ?_) byteThen_and)
  have inside : 1 ≤ buf.length := (List.getElem?_eq_some_iff.mp first).1
  dsimp only
  -- The two kinds of response exclude each other, so each half of the condition is about one branch.
  by_cases last : messageId header = networkId.responseFinal
  · have other : messageId header ≠ networkId.response := by rw [last]; decide
    rw [if_pos last, and_iff_left fun same => absurd same other, forall_prop_of_true last]
    refine (Outcome.returns_bind _ _ _).trans (returns_readVbyte_iff addressable inside fun request pos found => ?_)
    have bounds := found.bounds
    refine (Outcome.returns_bind _ _ _).trans
      (returns_skipExtensionsIf_iff addressable bounds.2 _ fun stop left right => ?_)
    exact iff_true_intro (final _ stop ⟨by omega, right⟩)
  · rw [if_neg last, and_iff_right fun same => absurd same last]
    refine (Outcome.returns_guard early).trans (imp_congr Classical.not_not ?_)
    refine (Outcome.returns_bind _ _ _).trans (returns_readVbyte_iff addressable inside fun request second found => ?_)
    have bounds := found.bounds
    refine (Outcome.returns_bind _ _ _).trans
      (returns_readVbyte_iff addressable bounds.2 fun scope middle found' => ?_)
    have bounds' := found'.bounds
    have rest (suffix : String) (declared : Option Nat) (pos : Nat) (within : pos ≤ buf.length)
        (at_ : SuffixAt buf middle (hasFlag header responseFlag.n) suffix declared) :=
      (Outcome.returns_bind _ _ _).trans (returns_skipExtensionsIf_iff addressable within
        (hasFlag header responseFlag.z) fun stop _ right =>
          returns_reply_iff addressable stop (fun pos => .reply request.toUInt32 scope suffix pos) holds
            fun _ right => agree _ _ _ _ _ _ _ _ first found found' at_ right)
    refine (Outcome.returns_bind _ _ _).trans (returns_readSuffix_iff addressable bounds'.2 _
      (fun absent => ?_) fun len start text present at_ fits decoded => ?_)
    · exact rest "" none middle bounds'.2 (absent ▸ .absent)
    · exact rest text (some _) _ fits (present ▸ .present at_ fits decoded)

theorem decodeResponse_safe_iff (addressable : Addressable buf) :
    DecodeResponseSafe buf ↔ DecodeResponseCondition buf := by
  apply (Outcome.returns_bind _ _ _).trans
  refine (Outcome.returns_congr fun read same => ?_).trans (returns_decodeResponseHead_iff addressable
    (fun read => ∀ head, read = some head → match head with
      | .final _ pos => Consumed buf pos
      | .reply _ _ suffix pos => (readSlice buf pos).Returns fun slice => Consumed buf slice.2 ∧
          (ByteThen buf 0 fun header => VbyteThen buf 1 fun _ middle => VbyteThen buf middle fun _ pos =>
            SuffixDeclared buf (hasFlag header responseFlag.n) pos suffix) ∧ DeclaredAt buf pos slice.1)
    (PayloadCondition buf) (fun _ none => nomatch none) ?_ ?_)
  · cases read with
    | none => simp
    | some head =>
      cases head with
      | final request pos => simp
      | reply request scope suffix pos =>
        have located (data : Bytes) :
            (∀ request scope suffix pos,
              decodeResponseHead buf = .ok (some (.reply request scope suffix pos)) →
              DeclaredAt buf pos data) ↔ DeclaredAt buf pos data := by
          refine ⟨fun all => all _ _ _ _ same, fun declared _ _ _ _ other => ?_⟩
          cases same.symm.trans other
          exact declared
        simp [located]
  · intro request pos consumed head same
    cases same
    exact consumed
  · intro header request first scope middle suffix declared pos found one two at_ inside
    -- The statement reads the fields in front of the suffix again, and comes to the same place.
    have stated : (ByteThen buf 0 fun header => VbyteThen buf 1 fun _ middle => VbyteThen buf middle fun _ pos =>
        SuffixDeclared buf (hasFlag header responseFlag.n) pos suffix) ↔
        ∀ place, declared = some place → ExactAt buf place := by
      rw [← at_.declared_iff]
      refine ⟨fun all => all header found request first one scope middle two,
        fun holds header' found' request' first' one' scope' middle' two' => ?_⟩
      cases found.symm.trans found'
      obtain ⟨rfl, rfl⟩ := one.unique one'
      obtain ⟨rfl, rfl⟩ := two.unique two'
      exact holds
    rw [← returns_payload_iff addressable inside stated]
    simp

end Messages

/-- Each decoder is safe exactly on the buffers that meet its condition: along
the fields in front of it, no sum of a header length or a position with a
declared length leaves `usize`, the lengths of the returned slices fit a
`usize`, and a lease in seconds times 1000 fits a `u64`. -/
theorem decoders_safe_iff (buf : Bytes) (addressable : Addressable buf) :
    DecodeVbyteSafe buf ∧ DecodeZenohIdSafe buf ∧
    (DecodeSliceSafe buf ↔ DecodeSliceCondition buf) ∧
    (DecodeInitAckSafe buf ↔ DecodeInitAckCondition buf) ∧
    (DecodeOpenAckSafe buf ↔ DecodeOpenAckCondition buf) ∧
    (DecodeFrameHeaderSafe buf ↔ SequencedCondition buf transportId.frame) ∧
    (DecodeFragmentHeaderSafe buf ↔ SequencedCondition buf transportId.fragment) ∧
    (DecodePushPutSafe buf ↔ DecodePushPutCondition buf) ∧
    (DecodeResponseSafe buf ↔ DecodeResponseCondition buf) :=
  ⟨decodeVbyte_safe buf, decodeZenohId_safe buf, decodeSlice_safe_iff buf, decodeInitAck_safe_iff addressable,
    decodeOpenAck_safe_iff addressable, decodeFrameHeader_safe_iff addressable,
    decodeFragmentHeader_safe_iff addressable, decodePushPut_safe_iff addressable,
    decodeResponse_safe_iff addressable⟩

omit [Target] in
/-- A lease of ten seconds is accepted; a slice of nearly `u64::MAX` bytes is not. -/
theorem decoders_safe_iff_small :
    letI := target64
    DecodeOpenAckCondition [0x62, 10, 1] ∧
      ¬DecodeSliceCondition [0xFF, 0xFF, 0xFF, 0xFF, 0xFF, 0xFF, 0xFF, 0xFF, 0xFF, 0x01] := by
  let := target64
  obtain ⟨-, -, -, -, openAck, -, -, -, -⟩ := decoders_safe_iff [0x62, 10, 1] (le_isizeMax (by decide))
  obtain ⟨-, -, slice, -, -, -, -, -, -⟩ := decoders_safe_iff
    [0xFF, 0xFF, 0xFF, 0xFF, 0xFF, 0xFF, 0xFF, 0xFF, 0xFF, 0x01] (le_isizeMax (by decide))
  refine ⟨openAck.mp ?_, fun condition => ?_⟩
  · have same : decodeOpenAck [0x62, 10, 1] = .ok (⟨10000, 1⟩, 3) := by decide +kernel
    rw [DecodeOpenAckSafe, same]
    exact ⟨by decide, by decide⟩
  · have same : decodeSlice [0xFF, 0xFF, 0xFF, 0xFF, 0xFF, 0xFF, 0xFF, 0xFF, 0xFF, 0x01] =
        .panic .overflow := by decide +kernel
    have safe := slice.mpr condition
    rw [DecodeSliceSafe, same] at safe
    exact safe

omit [Target] in
/-- A length of `u64::MAX` overflows `hdr + len` where `usize` has 64 bits, and one of
2^64 is cut to 0. Where it has 32, a length of 2^32 + 1 is cut to 1. -/
theorem decodeSlice_not_safe :
    ¬(∀ (target : Target) (buf : Bytes), @Addressable target _ buf → @DecodeSliceSafe target buf) ∧
    @decodeSlice target64 [0xFF, 0xFF, 0xFF, 0xFF, 0xFF, 0xFF, 0xFF, 0xFF, 0xFF, 0x01] = .panic .overflow ∧
    @decodeSlice target64 [0x80, 0x80, 0x80, 0x80, 0x80, 0x80, 0x80, 0x80, 0x80, 0x02] = .ok ([], 10) ∧
    @decodeSlice target32 [0x81, 0x80, 0x80, 0x80, 0x10, 0xAA] = .ok ([0xAA], 6) := by
  have overflow : @decodeSlice target64 [0xFF, 0xFF, 0xFF, 0xFF, 0xFF, 0xFF, 0xFF, 0xFF, 0xFF, 0x01] =
      .panic .overflow := by decide +kernel
  refine ⟨fun safe => ?_, overflow, by decide +kernel, by decide +kernel⟩
  have returned := safe target64 [0xFF, 0xFF, 0xFF, 0xFF, 0xFF, 0xFF, 0xFF, 0xFF, 0xFF, 0x01] (by decide +kernel)
  unfold DecodeSliceSafe at returned
  rw [overflow] at returned
  exact returned

end ZenohRos2
