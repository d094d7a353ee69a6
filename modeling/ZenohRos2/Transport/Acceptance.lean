import ZenohRos2.Rust.Grammar
import ZenohRos2.Transport.Agreement
import ZenohRos2.Transport.Chains

/-! What the decoders take for a message.

The grammar of a Push with a Put and of a Response with a Reply, with all that is
let through: numbers in more groups than they need, any bits above the message id
that are not looked at, bodies of extensions of any kind. The end of the buffer
stands for the end of a chain of extensions, but behind these chains something
else has to follow, so here a chain is complete.
-/

set_option autoImplicit false

namespace ZenohRos2
open Rust

section Words

/-- At most ten groups; of the tenth one bit is kept. -/
def vbyteWord (value : UInt64) : Grammar UInt8 :=
  ⟨fun _ word => Leb128.Word word ∧ word.length ≤ 10 ∧ value = UInt64.ofNat (Leb128.value word)⟩

/-- A header with the id of the message, and what its other bits announce. -/
def tagged (id : UInt8) (rest : UInt8 → Grammar UInt8) : Grammar UInt8 :=
  .union fun header => .given (messageId header = id) (.exactly [header] ++ rest header)

variable [Target]

/-- The length counts as far as it fits a `usize`. -/
def sliceWord (data : Bytes) : Grammar UInt8 :=
  .union fun len => .given (asUsize len = data.length) (vbyteWord len ++ .exactly data)

def extensionBodyWord (ext : UInt8) : Grammar UInt8 :=
  if extensionEncoding ext = 0 then .nothing
  else if extensionEncoding ext = 1 then .union vbyteWord
  else .union sliceWord

def extensionWord (more : Bool) : Grammar UInt8 :=
  .union fun ext => .given (hasFlag ext 0x80 = more) (.exactly [ext] ++ extensionBodyWord ext)

def extensionsWord : Grammar UInt8 := .chain (extensionWord true) (extensionWord false)

def suffixWord (present : Bool) (suffix : String) : Grammar UInt8 :=
  if present then sliceWord (utf8 suffix) else .given (suffix = "") .nothing

/-- A Put up to its payload, which comes last. -/
def putWord (payload : Bytes) : Grammar UInt8 := tagged zenohId.put fun header =>
  .onlyIf (hasFlag header putFlag.t) (.union vbyteWord ++ .union sliceWord) ++
    (.onlyIf (hasFlag header putFlag.e) (.union vbyteWord) ++
      (.onlyIf (hasFlag header putFlag.z) extensionsWord ++ sliceWord payload))

def pushPutWord (put : IncomingPut) : Grammar UInt8 := tagged networkId.push fun header =>
  vbyteWord put.scope ++ (suffixWord (hasFlag header pushFlag.n) put.keySuffix ++
    (.onlyIf (hasFlag header pushFlag.z) extensionsWord ++ putWord put.payload))

def replyBodyWord (payload : Bytes) : Grammar UInt8 := tagged zenohId.reply fun header =>
  .onlyIf (hasFlag header replyFlag.c) (.union vbyteWord) ++
    (.onlyIf (hasFlag header replyFlag.z) extensionsWord ++ putWord payload)

/-- Of the request id the low half is kept. -/
def replyWord (reply : IncomingReply) : Grammar UInt8 := tagged networkId.response fun header =>
  .union (fun requestId => .given (requestId.toUInt32 = reply.requestId) (vbyteWord requestId)) ++
    (vbyteWord reply.scope ++ (suffixWord (hasFlag header responseFlag.n) reply.keySuffix ++
      (.onlyIf (hasFlag header responseFlag.z) extensionsWord ++ replyBodyWord reply.payload)))

end Words

section Places
variable {buf : Bytes} {pos stop : Nat}

theorem at_vbyteWord {value : UInt64} : (vbyteWord value).At buf pos stop ↔ VbyteAt buf pos value stop := by
  constructor
  · rintro ⟨ordered, inside, word, short, number⟩
    have size : ((buf.take stop).drop pos).length = stop - pos := Grammar.length_drop_take inside
    refine ⟨_, buf.drop stop, ?_, word, short, number, by omega⟩
    rw [← List.take_append_drop stop buf, List.drop_append_of_le_length (by simp; omega), List.take_append_drop]
  · intro found
    have bounds := found.bounds
    obtain ⟨bytes, rest, same, word, short, number, rfl⟩ := found
    have front : (buf.take (pos + bytes.length)).drop pos = bytes := by
      rw [← List.take_drop, same, List.take_left]
    exact ⟨by omega, bounds.2, by rw [front]; exact ⟨word, short, number⟩⟩

theorem at_tagged {id : UInt8} {rest : UInt8 → Grammar UInt8} : (tagged id rest).At buf pos stop ↔
    ∃ header, buf[pos]? = some header ∧ messageId header = id ∧ (rest header).At buf (pos + 1) stop := by
  simp only [tagged, Grammar.at_union, Grammar.at_given, Grammar.at_cons]
  exact exists_congr fun header => and_left_comm

variable [Target]

theorem at_sliceWord {data : Bytes} : (sliceWord data).At buf pos stop ↔
    ∃ len start, VbyteAt buf pos len start ∧ start + asUsize len ≤ buf.length ∧
      data = (buf.drop start).take (asUsize len) ∧ stop = start + asUsize len := by
  simp only [sliceWord, Grammar.at_union, Grammar.at_given, Grammar.at_append, Grammar.at_exactly, at_vbyteWord]
  refine exists_congr fun len => ?_
  constructor
  · rintro ⟨size, start, found, rfl, inside, same⟩
    rw [size]
    exact ⟨start, found, inside, same.symm, rfl⟩
  · rintro ⟨start, found, inside, rfl, rfl⟩
    have size : ((buf.drop start).take (asUsize len)).length = asUsize len := by
      rw [List.length_take, List.length_drop]
      omega
    exact ⟨size.symm, start, found, by rw [size], inside, by rw [size]⟩

theorem at_extensionBodyWord {ext : UInt8} (inside : pos ≤ buf.length) :
    (extensionBodyWord ext).At buf pos stop ↔ ExtensionBodyAt buf pos ext stop := by
  unfold extensionBodyWord
  by_cases unit : extensionEncoding ext = 0
  · rw [if_pos unit, Grammar.at_nothing]
    constructor
    · rintro ⟨rfl, -⟩
      exact .unit unit
    · intro body
      cases body with
      | unit _ => exact ⟨rfl, inside⟩
      | z64 other _ => exact absurd (unit.symm.trans other) (by decide)
      | zbuf other _ _ _ => exact absurd unit other
  · rw [if_neg unit]
    by_cases z64 : extensionEncoding ext = 1
    · rw [if_pos z64, Grammar.at_union]
      constructor
      · rintro ⟨value, found⟩
        exact .z64 z64 (at_vbyteWord.mp found)
      · intro body
        cases body with
        | unit other => exact absurd other unit
        | z64 _ found => exact ⟨_, at_vbyteWord.mpr found⟩
        | zbuf _ other _ _ => exact absurd z64 other
    · rw [if_neg z64, Grammar.at_union]
      constructor
      · rintro ⟨data, found⟩
        obtain ⟨len, start, number, within, -, rfl⟩ := at_sliceWord.mp found
        exact .zbuf unit z64 number within
      · intro body
        cases body with
        | unit other => exact absurd other unit
        | z64 other _ => exact absurd other z64
        | zbuf _ _ found within => exact ⟨_, at_sliceWord.mpr ⟨_, _, found, within, rfl, rfl⟩⟩

theorem at_extensionWord {more : Bool} : (extensionWord more).At buf pos stop ↔ ExtensionAt buf pos more stop := by
  simp only [extensionWord, Grammar.at_union, Grammar.at_given, Grammar.at_cons]
  constructor
  · rintro ⟨ext, flag, first, body⟩
    exact ⟨ext, first, flag, (at_extensionBodyWord (List.getElem?_eq_some_iff.mp first).1).mp body⟩
  · rintro ⟨ext, first, flag, body⟩
    exact ⟨ext, flag, first, (at_extensionBodyWord (List.getElem?_eq_some_iff.mp first).1).mpr body⟩

theorem at_extensionsWord (more : stop < buf.length) : extensionsWord.At buf pos stop ↔ ChainAt buf pos stop := by
  constructor
  · intro found
    exact Grammar.at_chain (fun pos => ChainAt buf pos stop)
      (fun pos last => .last (at_extensionWord.mp last))
      (fun pos middle one rest => .more (at_extensionWord.mp one) rest) found
  · intro chain
    induction chain with
    | past outside => omega
    | last extension => exact Grammar.at_chain_last (at_extensionWord.mpr extension)
    | more extension _ ih => exact Grammar.at_chain_more (at_extensionWord.mpr extension) (ih more)

end Places

section Readers
variable [Target] {buf : Bytes} {pos stop : Nat} (addressable : Addressable buf)
include addressable

theorem readVbyte_eq_ok {value : UInt64} :
    readVbyte buf pos = .ok (value, stop) ↔ (vbyteWord value).At buf pos stop := by
  rw [at_vbyteWord]
  by_cases inside : pos ≤ buf.length
  · have computes := computes_readVbyte addressable inside
    exact ⟨fun ran => computes.holds ran, computes.found (value, stop)⟩
  · rw [readVbyte, sliceFrom, if_neg inside]
    refine iff_of_false (by simp) fun found => ?_
    have bounds := found.bounds
    omega

theorem readSlice_eq_ok {data : Bytes} : readSlice buf pos = .ok (data, stop) ↔ (sliceWord data).At buf pos stop := by
  rw [at_sliceWord]
  constructor
  · intro ran
    have inside : pos ≤ buf.length := by
      apply Classical.byContradiction
      intro outside
      rw [readSlice, sliceFrom, if_neg outside] at ran
      cases ran
    -- Where no length stands, nothing is returned.
    obtain ⟨len, start, found⟩ : ∃ len start, VbyteAt buf pos len start := by
      apply Classical.byContradiction
      intro none
      have nothing := (returns_readSlice addressable inside fun _ => False).mpr
        fun len start found => absurd ⟨len, start, found⟩ none
      exact nothing.of_ok ran
    rw [readSlice_eq addressable found, sliceAfter] at ran
    split at ran
    · split at ran
      · rename_i within
        cases ran
        exact ⟨len, start, found, within, rfl, rfl⟩
      · cases ran
    · cases ran
  · rintro ⟨len, start, found, within, rfl, rfl⟩
    have fits := addressable.lt_usizeSize within (Nat.zero_le _)
    rw [readSlice_eq addressable found, sliceAfter, if_pos (by omega), if_pos within]

variable (inside : pos ≤ buf.length)
include inside

theorem readSuffix_eq_ok {present : Bool} {suffix : String} :
    readSuffix present buf pos = .ok (suffix, stop) ↔ (suffixWord present suffix).At buf pos stop := by
  cases present with
  | false =>
    change Outcome.ok ("", pos) = .ok (suffix, stop) ↔ (Grammar.given (suffix = "") .nothing).At buf pos stop
    rw [Grammar.at_given, Grammar.at_nothing, Outcome.ok.injEq, Prod.mk.injEq]
    exact ⟨fun ⟨text, place⟩ => ⟨text.symm, place.symm, inside⟩, fun ⟨text, place, _⟩ => ⟨text.symm, place.symm⟩⟩
  | true =>
    change (readSlice buf pos >>= fun read => _) = _ ↔ (sliceWord (utf8 suffix)).At buf pos stop
    rw [Outcome.bind_eq_ok, ← readSlice_eq_ok addressable]
    constructor
    · rintro ⟨⟨bytes, middle⟩, ran, same⟩
      simp only at same
      split at same
      · rename_i text decoded
        cases same
        rwa [utf8_of_fromUtf8 decoded]
      · cases same
    · intro ran
      exact ⟨_, ran, by simp only [fromUtf8_utf8]⟩

theorem skipVbyteIf_eq_ok {present : Bool} :
    skipVbyteIf present buf pos = .ok stop ↔ (Grammar.onlyIf present (.union vbyteWord)).At buf pos stop := by
  rw [Grammar.at_onlyIf]
  cases present with
  | false =>
    change Outcome.ok pos = .ok stop ↔ stop = pos ∧ pos ≤ buf.length
    simp [inside, eq_comm]
  | true =>
    change (readVbyte buf pos >>= fun read => Outcome.ok read.2) = _ ↔ (Grammar.union vbyteWord).At buf pos stop
    rw [Outcome.bind_eq_ok, Grammar.at_union]
    constructor
    · rintro ⟨⟨value, middle⟩, ran, same⟩
      cases same
      exact ⟨value, (readVbyte_eq_ok addressable).mp ran⟩
    · rintro ⟨value, found⟩
      exact ⟨_, (readVbyte_eq_ok addressable).mpr found, rfl⟩

theorem readTimestamp_eq_ok {present : Bool} : readTimestamp present buf pos = .ok stop ↔
    (Grammar.onlyIf present (.union vbyteWord ++ .union sliceWord)).At buf pos stop := by
  rw [Grammar.at_onlyIf]
  cases present with
  | false =>
    change Outcome.ok pos = .ok stop ↔ stop = pos ∧ pos ≤ buf.length
    simp [inside, eq_comm]
  | true =>
    change (readVbyte buf pos >>= fun time => readVbyte buf time.2 >>= fun size => usizeAdd size.2 (asUsize size.1) >>=
      fun stop => if stop > buf.length then .err .invalidEncoding else .ok stop) = _ ↔
      (Grammar.union vbyteWord ++ .union sliceWord).At buf pos stop
    simp only [Outcome.bind_eq_ok, usizeAdd_eq_ok, Grammar.at_append, Grammar.at_union, at_sliceWord]
    constructor
    · rintro ⟨⟨time, middle⟩, first, ⟨size, start⟩, second, _, ⟨-, rfl⟩, same⟩
      have found := (readVbyte_eq_ok addressable).mp first
      have place := at_vbyteWord.mp ((readVbyte_eq_ok addressable).mp second)
      split at same
      · cases same
      · rename_i within
        cases same
        exact ⟨middle, ⟨time, found⟩, _, size, start, place, by simp only at within; omega, rfl, rfl⟩
    · rintro ⟨middle, ⟨time, found⟩, _, size, start, place, within, rfl, rfl⟩
      refine ⟨_, (readVbyte_eq_ok addressable).mpr found, _,
        (readVbyte_eq_ok addressable).mpr (at_vbyteWord.mpr place), _, ⟨?_, rfl⟩, if_neg (Nat.not_lt.mpr within)⟩
      exact addressable.lt_usizeSize (b := 0) within (Nat.zero_le _)

theorem skipExtensionsIf_then {present : Bool} {next : Grammar UInt8} (nonempty : ∀ pos, ¬next.Word pos []) :
    (∃ middle, skipExtensionsIf present buf pos = .ok middle ∧ next.At buf middle stop) ↔
      (.onlyIf present extensionsWord ++ next).At buf pos stop := by
  rw [Grammar.at_append]
  refine exists_congr fun middle => and_congr_left fun found => ?_
  have more : middle < buf.length := by
    have ordered := found.ordered
    have within := found.inside
    apply Classical.byContradiction
    intro outside
    have word := found.word
    rw [List.drop_eq_nil_of_le (by simp; omega)] at word
    exact nonempty middle word
  rw [Grammar.at_onlyIf]
  cases present with
  | false =>
    change Outcome.ok pos = .ok middle ↔ middle = pos ∧ pos ≤ buf.length
    simp [inside, eq_comm]
  | true =>
    change skipExtensions buf pos = .ok middle ↔ extensionsWord.At buf pos middle
    rw [skipExtensions_eq_ok addressable, at_extensionsWord more]

end Readers

section Messages
variable [Target] {buf : Bytes} {pos stop : Nat}

theorem header_eq_ok {α : Type} (addressable : Addressable buf) {id : UInt8} {early : Decode (Option α)} {value : α}
    (fails : early ≠ .ok (some value)) (body : UInt8 → Nat → Decode (Option α)) :
    (if pos ≥ buf.length then early
      else index buf pos >>= fun header => usizeAdd pos 1 >>= fun pos =>
        if messageId header ≠ id then .ok none else body header pos) = .ok (some value) ↔
      ∃ header, buf[pos]? = some header ∧ messageId header = id ∧ body header (pos + 1) = .ok (some value) := by
  by_cases outside : pos ≥ buf.length
  · rw [if_pos outside, List.getElem?_eq_none outside]
    exact iff_of_false fails (by simp)
  · have within : pos < buf.length := by omega
    rw [if_neg outside, index_eq within, Outcome.ok_bind, List.getElem?_eq_getElem within,
      usizeAdd_eq (addressable.lt_usizeSize (by omega) (by omega)), Outcome.ok_bind]
    by_cases other : messageId buf[pos] = id
    · rw [if_neg (not_not_intro other)]
      simp [other]
    · rw [if_pos other]
      simp [other]

theorem sliceWord_nonempty {data : Bytes} (pos : Nat) : ¬(sliceWord data).Word pos [] := by
  rintro ⟨len, -, first, second, none, ⟨word, -, -⟩, -⟩
  have length := word.length_pos
  rw [(List.append_eq_nil_iff.mp none.symm).1] at length
  exact Nat.lt_irrefl 0 length

omit [Target] in
theorem tagged_nonempty {id : UInt8} {rest : UInt8 → Grammar UInt8} (pos : Nat) : ¬(tagged id rest).Word pos [] := by
  rintro ⟨header, -, _, _, none, rfl, -⟩
  cases none

theorem readPut_iff {payload : Bytes} : readPut buf pos = .ok (some (payload, stop)) ↔
    ∃ start, readPutHead buf pos = .ok (some start) ∧ readSlice buf start = .ok (payload, stop) := by
  unfold readPut
  rw [Outcome.bind_eq_ok]
  constructor
  · rintro ⟨head, ran, same⟩
    cases head with
    | none => cases same
    | some start =>
      obtain ⟨⟨data, last⟩, read, same⟩ := Outcome.bind_eq_ok.mp same
      cases same
      exact ⟨start, ran, read⟩
  · rintro ⟨start, ran, read⟩
    exact ⟨_, ran, by simp only [read, Outcome.ok_bind]⟩

theorem readPut_eq_ok (addressable : Addressable buf) {payload : Bytes} :
    readPut buf pos = .ok (some (payload, stop)) ↔ (putWord payload).At buf pos stop := by
  rw [readPut_iff, putWord, at_tagged]
  unfold readPutHead
  constructor
  · rintro ⟨start, ran, read⟩
    obtain ⟨header, first, kind, ran⟩ := (header_eq_ok addressable (by simp) _).mp ran
    obtain ⟨one, stamped, ran⟩ := Outcome.bind_eq_ok.mp ran
    obtain ⟨two, skipped, ran⟩ := Outcome.bind_eq_ok.mp ran
    obtain ⟨three, chained, same⟩ := Outcome.bind_eq_ok.mp ran
    cases same
    have found := (readTimestamp_eq_ok addressable (List.getElem?_eq_some_iff.mp first).1).mp stamped
    have found' := (skipVbyteIf_eq_ok addressable found.inside).mp skipped
    refine ⟨header, first, kind, Grammar.at_append.mpr ⟨one, found, Grammar.at_append.mpr ⟨two, found', ?_⟩⟩⟩
    exact (skipExtensionsIf_then addressable found'.inside sliceWord_nonempty).mp
      ⟨start, chained, (readSlice_eq_ok addressable).mp read⟩
  · rintro ⟨header, first, kind, found⟩
    obtain ⟨one, stamped, found⟩ := Grammar.at_append.mp found
    obtain ⟨two, skipped, found⟩ := Grammar.at_append.mp found
    obtain ⟨start, chained, last⟩ := (skipExtensionsIf_then addressable skipped.inside sliceWord_nonempty).mpr found
    refine ⟨start, (header_eq_ok addressable (by simp) _).mpr ⟨header, first, kind, ?_⟩,
      (readSlice_eq_ok addressable).mpr last⟩
    rw [(readTimestamp_eq_ok addressable (List.getElem?_eq_some_iff.mp first).1).mpr stamped, Outcome.ok_bind,
      (skipVbyteIf_eq_ok addressable stamped.inside).mpr skipped, Outcome.ok_bind, chained, Outcome.ok_bind]

omit [Target] in
theorem first_eq_ok {α : Type} {body : UInt8 → Decode (Option α)} {value : α} :
    (if buf.isEmpty then .ok none else index buf 0 >>= body) = .ok (some value) ↔
      ∃ header, buf[0]? = some header ∧ body header = .ok (some value) := by
  cases buf with
  | nil => exact iff_of_false (by simp) (by simp)
  | cons first rest =>
    rw [if_neg (by simp), index_eq (by simp), Outcome.ok_bind]
    simp

theorem decodePushPutHead_eq_ok {scope : UInt64} {suffix : String} {start : Nat} :
    decodePushPutHead buf = .ok (some (scope, suffix, start)) ↔
      ∃ header, buf[0]? = some header ∧ messageId header = networkId.push ∧ ∃ one, readVbyte buf 1 = .ok (scope, one) ∧
        ∃ two, readSuffix (hasFlag header pushFlag.n) buf one = .ok (suffix, two) ∧
        ∃ three, skipExtensionsIf (hasFlag header pushFlag.z) buf two = .ok three ∧
          readPutHead buf three = .ok (some start) := by
  unfold decodePushPutHead
  rw [first_eq_ok]
  refine exists_congr fun header => and_congr_right fun _ => ?_
  by_cases kind : messageId header = networkId.push
  · rw [if_neg (not_not_intro kind), and_iff_right kind]
    simp only [readPutHead_map, Outcome.bind_eq_ok]
    constructor
    · rintro ⟨⟨_, one⟩, read, ⟨_, two⟩, named, three, chained, head, put, same⟩
      obtain ⟨_, rfl, same⟩ := Option.map_eq_some_iff.mp (Outcome.ok.inj same)
      cases same
      exact ⟨one, read, two, named, three, chained, put⟩
    · rintro ⟨one, read, two, named, three, chained, put⟩
      exact ⟨_, read, _, named, three, chained, _, put, rfl⟩
  · rw [if_pos kind]
    exact iff_of_false (by simp) fun found => kind found.1

theorem decodePushPut_eq_ok (addressable : Addressable buf) {put : IncomingPut} :
    decodePushPut buf = .ok (some (put, stop)) ↔ (pushPutWord put).At buf 0 stop := by
  obtain ⟨scope, suffix, payload⟩ := put
  have whole : decodePushPut buf = .ok (some (⟨scope, suffix, payload⟩, stop)) ↔ ∃ start,
      decodePushPutHead buf = .ok (some (scope, suffix, start)) ∧ readSlice buf start = .ok (payload, stop) := by
    unfold decodePushPut
    rw [Outcome.bind_eq_ok]
    constructor
    · rintro ⟨head, ran, same⟩
      cases head with
      | none => cases same
      | some head =>
        obtain ⟨⟨data, last⟩, read, same⟩ := Outcome.bind_eq_ok.mp same
        cases same
        exact ⟨_, ran, read⟩
    · rintro ⟨start, ran, read⟩
      exact ⟨_, ran, by simp only [read, Outcome.ok_bind]⟩
  rw [whole, pushPutWord, at_tagged]
  constructor
  · rintro ⟨start, ran, read⟩
    obtain ⟨header, first, kind, one, numbered, two, named, three, chained, put⟩ := decodePushPutHead_eq_ok.mp ran
    have found := (readVbyte_eq_ok addressable).mp numbered
    have found' := (readSuffix_eq_ok addressable found.inside).mp named
    refine ⟨header, first, kind, Grammar.at_append.mpr ⟨one, found, Grammar.at_append.mpr ⟨two, found', ?_⟩⟩⟩
    exact (skipExtensionsIf_then addressable found'.inside tagged_nonempty).mp
      ⟨three, chained, (readPut_eq_ok addressable).mp (readPut_iff.mpr ⟨start, put, read⟩)⟩
  · rintro ⟨header, first, kind, found⟩
    obtain ⟨one, numbered, found⟩ := Grammar.at_append.mp found
    obtain ⟨two, named, found⟩ := Grammar.at_append.mp found
    obtain ⟨three, chained, last⟩ := (skipExtensionsIf_then addressable named.inside tagged_nonempty).mpr found
    obtain ⟨start, put, read⟩ := readPut_iff.mp ((readPut_eq_ok addressable).mpr last)
    exact ⟨start, decodePushPutHead_eq_ok.mpr ⟨header, first, kind, one, (readVbyte_eq_ok addressable).mpr numbered,
      two, (readSuffix_eq_ok addressable numbered.inside).mpr named, three, chained, put⟩, read⟩

theorem decodeResponseHead_eq_ok (addressable : Addressable buf) {requestId : UInt32} {scope : UInt64} {suffix : String}
    {start : Nat} : decodeResponseHead buf = .ok (some (.reply requestId scope suffix start)) ↔
      ∃ header, buf[0]? = some header ∧ messageId header = networkId.response ∧
        ∃ id front, readVbyte buf 1 = .ok (id, front) ∧ id.toUInt32 = requestId ∧
        ∃ one, readVbyte buf front = .ok (scope, one) ∧
        ∃ two, readSuffix (hasFlag header responseFlag.n) buf one = .ok (suffix, two) ∧
        ∃ three, skipExtensionsIf (hasFlag header responseFlag.z) buf two = .ok three ∧
        ∃ replyHeader, buf[three]? = some replyHeader ∧ messageId replyHeader = zenohId.reply ∧
        ∃ four, skipVbyteIf (hasFlag replyHeader replyFlag.c) buf (three + 1) = .ok four ∧
        ∃ five, skipExtensionsIf (hasFlag replyHeader replyFlag.z) buf four = .ok five ∧
          readPutHead buf five = .ok (some start) := by
  unfold decodeResponseHead
  rw [first_eq_ok]
  refine exists_congr fun header => and_congr_right fun _ => ?_
  -- A ResponseFinal decodes too, but to another head.
  by_cases final : messageId header = networkId.responseFinal
  · rw [if_pos final, final]
    refine iff_of_false ?_ fun found => absurd found.1 (by decide)
    simp [Outcome.bind_eq_ok]
  rw [if_neg final]
  by_cases kind : messageId header = networkId.response
  · rw [if_neg (not_not_intro kind), and_iff_right kind]
    simp only [readPutHead_map, Outcome.bind_eq_ok]
    constructor
    · rintro ⟨⟨id, front⟩, first, ⟨_, one⟩, read, ⟨_, two⟩, named, three, chained, ran⟩
      obtain ⟨replyHeader, second, answers, ran⟩ := (header_eq_ok addressable (by simp) _).mp ran
      obtain ⟨four, skipped, ran⟩ := Outcome.bind_eq_ok.mp ran
      obtain ⟨five, chained', ran⟩ := Outcome.bind_eq_ok.mp ran
      obtain ⟨head, put, same⟩ := Outcome.bind_eq_ok.mp ran
      obtain ⟨_, rfl, same⟩ := Option.map_eq_some_iff.mp (Outcome.ok.inj same)
      cases same
      exact ⟨id, front, first, rfl, one, read, two, named, three, chained, replyHeader, second, answers, four, skipped,
        five, chained', put⟩
    · rintro ⟨id, front, first, rfl, one, read, two, named, three, chained, replyHeader, second, answers, four, skipped,
        five, chained', put⟩
      refine ⟨_, first, _, read, _, named, three, chained,
        (header_eq_ok addressable (by simp) _).mpr ⟨replyHeader, second, answers, ?_⟩⟩
      rw [skipped, Outcome.ok_bind, chained', Outcome.ok_bind, put]
      rfl
  · rw [if_pos kind]
    exact iff_of_false (by simp) fun found => kind found.1

theorem decodeResponse_eq_ok (addressable : Addressable buf) {reply : IncomingReply} :
    decodeResponse buf = .ok (some (.reply reply, stop)) ↔ (replyWord reply).At buf 0 stop := by
  obtain ⟨requestId, scope, suffix, payload⟩ := reply
  have whole : decodeResponse buf = .ok (some (.reply ⟨requestId, scope, suffix, payload⟩, stop)) ↔ ∃ start,
      decodeResponseHead buf = .ok (some (.reply requestId scope suffix start)) ∧
        readSlice buf start = .ok (payload, stop) := by
    unfold decodeResponse
    rw [Outcome.bind_eq_ok]
    constructor
    · rintro ⟨head, ran, same⟩
      cases head with
      | none => cases same
      | some head =>
        cases head with
        | final _ _ => cases same
        | reply _ _ _ _ =>
          obtain ⟨⟨data, last⟩, read, same⟩ := Outcome.bind_eq_ok.mp same
          cases same
          exact ⟨_, ran, read⟩
    · rintro ⟨start, ran, read⟩
      exact ⟨_, ran, by simp only [read, Outcome.ok_bind]⟩
  -- The reads of the head against the parts of the word, from the front.
  rw [whole, replyWord, at_tagged]
  constructor
  · rintro ⟨start, ran, read⟩
    obtain ⟨header, first, kind, id, front, numbered, low, one, numbered', two, named, three, chained, replyHeader, second,
      answers, four, skipped, five, chained', put⟩ := (decodeResponseHead_eq_ok addressable).mp ran
    have zeroth := (readVbyte_eq_ok addressable).mp numbered
    have found := (readVbyte_eq_ok addressable).mp numbered'
    have found' := (readSuffix_eq_ok addressable found.inside).mp named
    have inner := (skipVbyteIf_eq_ok addressable (List.getElem?_eq_some_iff.mp second).1).mp skipped
    have last := (skipExtensionsIf_then addressable inner.inside tagged_nonempty).mp
      ⟨five, chained', (readPut_eq_ok addressable).mp (readPut_iff.mpr ⟨start, put, read⟩)⟩
    have replied : (replyBodyWord payload).At buf three stop :=
      at_tagged.mpr ⟨replyHeader, second, answers, Grammar.at_append.mpr ⟨four, inner, last⟩⟩
    have rest := (skipExtensionsIf_then addressable found'.inside tagged_nonempty).mp ⟨three, chained, replied⟩
    exact ⟨header, first, kind, Grammar.at_append.mpr ⟨front,
      Grammar.at_union.mpr ⟨id, Grammar.at_given.mpr ⟨low, zeroth⟩⟩,
      Grammar.at_append.mpr ⟨one, found, Grammar.at_append.mpr ⟨two, found', rest⟩⟩⟩⟩
  · rintro ⟨header, first, kind, found⟩
    obtain ⟨front, zeroth, found⟩ := Grammar.at_append.mp found
    obtain ⟨id, zeroth⟩ := Grammar.at_union.mp zeroth
    obtain ⟨low, zeroth⟩ := Grammar.at_given.mp zeroth
    obtain ⟨one, numbered, found⟩ := Grammar.at_append.mp found
    obtain ⟨two, named, found⟩ := Grammar.at_append.mp found
    obtain ⟨three, chained, found⟩ := (skipExtensionsIf_then addressable named.inside tagged_nonempty).mpr found
    obtain ⟨replyHeader, second, answers, found⟩ := at_tagged.mp found
    obtain ⟨four, skipped, found⟩ := Grammar.at_append.mp found
    obtain ⟨five, chained', last⟩ := (skipExtensionsIf_then addressable skipped.inside tagged_nonempty).mpr found
    obtain ⟨start, put, read⟩ := readPut_iff.mp ((readPut_eq_ok addressable).mpr last)
    refine ⟨start, (decodeResponseHead_eq_ok addressable).mpr ⟨header, first, kind, id, front,
      (readVbyte_eq_ok addressable).mpr zeroth, low, one, (readVbyte_eq_ok addressable).mpr numbered, two,
      (readSuffix_eq_ok addressable numbered.inside).mpr named, three, chained, replyHeader, second, answers, four,
      (skipVbyteIf_eq_ok addressable (List.getElem?_eq_some_iff.mp second).1).mpr skipped, five, chained', put⟩, read⟩

/-- A Put, and a Reply, is decoded just where a word of the grammar stands, whatever bytes it is made of. -/
theorem messages_accepted_iff (addressable : Addressable buf) :
    (∀ put n, decodePushPut buf = .ok (some (put, n)) ↔ n ≤ buf.length ∧ (pushPutWord put).Word 0 (buf.take n)) ∧
    ∀ reply n, decodeResponse buf = .ok (some (.reply reply, n)) ↔
      n ≤ buf.length ∧ (replyWord reply).Word 0 (buf.take n) := by
  constructor
  · intro put n
    rw [decodePushPut_eq_ok addressable, Grammar.at_zero]
  · intro reply n
    rw [decodeResponse_eq_ok addressable, Grammar.at_zero]

omit [Target] in
/-- The scope takes two groups, and the unit extension behind it one byte. -/
theorem messages_accepted_iff_loose :
    letI := target64
    let buf : Bytes := [0xBD, 0x80, 0x00, 2, 97, 98, 0x05, 0x01, 1, 7]
    decodePushPut buf = .ok (some (⟨0, "ab", [7]⟩, 10)) ∧ (pushPutWord ⟨0, "ab", [7]⟩).Word 0 buf := by
  let := target64
  intro buf
  have decoded : decodePushPut buf = .ok (some (⟨0, "ab", [7]⟩, 10)) := by decide +kernel
  exact ⟨decoded, (((messages_accepted_iff (le_isizeMax (by decide))).1 _ _).mp decoded).2⟩

/-- A message is decoded by its own bytes alone: in front of anything else, and not before they are complete. -/
theorem messages_self_delimiting (addressable : Addressable buf) {n : Nat} :
    (∀ put, decodePushPut buf = .ok (some (put, n)) →
      (∀ rest, Addressable (buf.take n ++ rest) → decodePushPut (buf.take n ++ rest) = .ok (some (put, n))) ∧
        ∀ m < n, ∀ other k, decodePushPut (buf.take m) ≠ .ok (some (other, k))) ∧
    ∀ reply, decodeResponse buf = .ok (some (.reply reply, n)) →
      (∀ rest, Addressable (buf.take n ++ rest) →
        decodeResponse (buf.take n ++ rest) = .ok (some (.reply reply, n))) ∧
        ∀ m < n, ∀ other k, decodeResponse (buf.take m) ≠ .ok (some (.reply other, k)) := by
  constructor
  · intro put decoded
    refine self_delimiting (fun buf put n => decodePushPut buf = .ok (some (put, n)))
      (fun _ held _ _ => decodePushPut_eq_ok held) ?_ addressable decoded
    intro buf put n other k one two
    cases one.symm.trans two
    rfl
  · intro reply decoded
    refine self_delimiting (fun buf reply n => decodeResponse buf = .ok (some (.reply reply, n)))
      (fun _ held _ _ => decodeResponse_eq_ok held) ?_ addressable decoded
    intro buf reply n other k one two
    cases one.symm.trans two
    rfl

omit [Target] in
theorem messages_self_delimiting_plain :
    letI := target64
    let buf : Bytes := [0x3D, 0, 2, 97, 98, 0x01, 1, 7, 9, 9]
    decodePushPut buf = .ok (some (⟨0, "ab", [7]⟩, 8)) ∧
      ∀ m < 8, ∀ other k, decodePushPut (buf.take m) ≠ .ok (some (other, k)) := by
  let := target64
  intro buf
  have decoded : decodePushPut buf = .ok (some (⟨0, "ab", [7]⟩, 8)) := by decide +kernel
  exact ⟨decoded, ((messages_self_delimiting (le_isizeMax (by decide))).1 _ decoded).2⟩

end Messages
end ZenohRos2
