import ZenohRos2.Transport.Response

/-! The two copies of the Put parser.

What a reader returns depends on the bytes from its position on, so two
buffers that go on alike are read alike, and the positions stay apart by the
same distance. The size of a timestamp's id is the exception: it is added to
the position itself, before anything is compared.
-/

set_option autoImplicit false

namespace ZenohRos2
open Rust

/-- The two buffers go on alike, `ahead` bytes later in the second one. -/
structure Aligned (one two : Bytes) (ahead pos pos' : Nat) : Prop where
  inside : pos ≤ one.length
  later : pos' = pos + ahead
  length : two.length = one.length + ahead
  same : one.drop pos = two.drop pos'

theorem VbyteAt.of_drop_eq {one two : Bytes} {pos pos' n : Nat} {value : UInt64} (same : one.drop pos = two.drop pos')
    (found : VbyteAt one pos value (pos + n)) : VbyteAt two pos' value (pos' + n) := by
  rw [← VbyteAt.drop_iff] at found ⊢
  rwa [← same]

namespace Aligned
variable {one two : Bytes} {ahead pos pos' : Nat}

theorem add (aligned : Aligned one two ahead pos pos') {n : Nat} (inside : pos + n ≤ one.length) :
    Aligned one two ahead (pos + n) (pos' + n) := by
  obtain ⟨_, later, length, same⟩ := aligned
  refine ⟨inside, by omega, length, ?_⟩
  rw [← List.drop_drop, same, List.drop_drop]

theorem inside' (aligned : Aligned one two ahead pos pos') : pos' ≤ two.length := by
  obtain ⟨inside, later, length, -⟩ := aligned
  omega

variable [Target] (left : Addressable one) (right : Addressable two) (aligned : Aligned one two ahead pos pos')
include aligned

omit [Target] in
theorem index (within : pos < one.length) :
    Outcome.Related (· = ·) (Rust.index one pos : Decode UInt8) (Rust.index two pos') := by
  obtain ⟨head, rest, found⟩ := List.exists_cons_of_ne_nil (List.ne_nil_of_length_pos (l := one.drop pos)
    (by rw [List.length_drop]; omega))
  rw [index_of_drop found, index_of_drop (aligned.same.symm.trans found)]
  exact .ok rfl

include left right

theorem advance {α : Type} {data : α} {n : Nat} (fits : n ≤ one.length - pos) :
    Outcome.Related (fun (read read' : α × Nat) => read.1 = read'.1 ∧ Aligned one two ahead read.2 read'.2)
      (usizeAdd pos n >>= fun pos => (.ok (data, pos) : Decode (α × Nat)))
      (usizeAdd pos' n >>= fun pos => .ok (data, pos)) := by
  obtain ⟨inside, later, length, -⟩ := id aligned
  rw [usizeAdd_eq (left.lt_usizeSize inside (by omega)), Outcome.ok_bind,
    usizeAdd_eq (right.lt_usizeSize (show pos' ≤ two.length by omega) (by omega)), Outcome.ok_bind]
  exact .ok ⟨rfl, aligned.add (by omega)⟩

theorem readVbyte : Outcome.Related (fun (read read' : UInt64 × Nat) =>
    read.1 = read'.1 ∧ Aligned one two ahead read.2 read'.2) (readVbyte one pos) (readVbyte two pos') := by
  rw [ZenohRos2.readVbyte, ZenohRos2.readVbyte, sliceFrom_eq aligned.inside, sliceFrom_eq aligned.inside', Outcome.ok_bind,
    Outcome.ok_bind, ← aligned.same]
  cases decoded : decodeVbyte (one.drop pos) with
  | ok read =>
    have bounds := ((computes_decodeVbyte (one.drop pos)).holds decoded).bounds
    rw [List.length_drop] at bounds
    exact aligned.advance left right bounds.2
  | err error => exact .err error
  | panic fault => exact .panic fault

omit aligned left right in
theorem decodeSlice_le {buf data : Bytes} {stop : Nat} (decoded : decodeSlice buf = .ok (data, stop)) :
    stop ≤ buf.length := by
  rw [decodeSlice] at decoded
  obtain ⟨⟨len, hdr⟩, -, decoded⟩ := Outcome.bind_eq_ok.mp decoded
  obtain ⟨stop', -, decoded⟩ := Outcome.bind_eq_ok.mp decoded
  split at decoded
  · cases decoded
  · obtain ⟨bytes, -, same⟩ := Outcome.bind_eq_ok.mp decoded
    cases same
    omega

theorem readSlice : Outcome.Related (fun (read read' : Bytes × Nat) =>
    read.1 = read'.1 ∧ Aligned one two ahead read.2 read'.2) (readSlice one pos) (readSlice two pos') := by
  rw [ZenohRos2.readSlice, ZenohRos2.readSlice, sliceFrom_eq aligned.inside, sliceFrom_eq aligned.inside', Outcome.ok_bind,
    Outcome.ok_bind, ← aligned.same]
  cases decoded : decodeSlice (one.drop pos) with
  | ok read =>
    have bound := decodeSlice_le decoded
    rw [List.length_drop] at bound
    exact aligned.advance left right bound
  | err error => exact .err error
  | panic fault => exact .panic fault

theorem skipVbyteIf (present : Bool) : Outcome.Related (Aligned one two ahead) (skipVbyteIf present one pos)
    (skipVbyteIf present two pos') := by
  cases present with
  | false => exact .ok aligned
  | true => exact (aligned.readVbyte left right).bind fun _ _ read => .ok read.2

theorem skipExtensionBody (ext : UInt8) : Outcome.Related (Aligned one two ahead) (skipExtensionBody one pos ext)
    (skipExtensionBody two pos' ext) :=
  .ite Iff.rfl (fun _ => .ok aligned) fun _ => .ite Iff.rfl
    (fun _ => (aligned.readVbyte left right).bind fun _ _ read => .ok read.2)
    fun _ => (aligned.readSlice left right).bind fun _ _ read => .ok read.2

theorem usizeAdd_one (within : pos < one.length) :
    Outcome.Related (Aligned one two ahead) (usizeAdd pos 1 : Decode Nat) (usizeAdd pos' 1) := by
  obtain ⟨inside, later, length, -⟩ := id aligned
  rw [usizeAdd_eq (left.lt_usizeSize inside (by omega)),
    usizeAdd_eq (right.lt_usizeSize (show pos' ≤ two.length by omega) (by omega))]
  exact .ok (aligned.add (by omega))

theorem skipExtensionsLoop (turns : Nat) : Outcome.Related (Aligned one two ahead) (skipExtensionsLoop turns one pos)
    (skipExtensionsLoop turns two pos') := by
  induction turns generalizing pos pos' with
  | zero => exact .ok aligned
  | succ turns ih =>
    obtain ⟨-, later, length, -⟩ := id aligned
    refine .ite (by omega) (fun within => ?_) fun _ => .ok aligned
    refine (aligned.index within).bind fun ext _ same => ?_
    subst same
    refine (aligned.usizeAdd_one left right within).bind fun body body' here => ?_
    refine (here.skipExtensionBody left right ext).bind fun next next' there => ?_
    exact .ite Iff.rfl (fun _ => ih there) fun _ => .ok there

theorem skipExtensionsIf (present : Bool) : Outcome.Related (Aligned one two ahead) (skipExtensionsIf present one pos)
    (skipExtensionsIf present two pos') := by
  cases present with
  | false => exact .ok aligned
  | true =>
    obtain ⟨-, later, length, -⟩ := id aligned
    have turns : two.length - pos' = one.length - pos := by omega
    simp only [ZenohRos2.skipExtensionsIf, if_true, skipExtensions, turns]
    exact aligned.skipExtensionsLoop left right _

theorem readTimestamp (present : Bool) (small : present = true → ∀ time middle size start, VbyteAt one pos time middle →
    VbyteAt one middle size start → size.toNat < 2 ^ 31) :
    Outcome.Related (Aligned one two ahead) (readTimestamp present one pos) (readTimestamp present two pos') := by
  cases present with
  | false => exact .ok aligned
  | true =>
    refine (aligned.readVbyte left right).found.bind fun ⟨time, middle⟩ ⟨time', middle'⟩ ⟨first, _, here⟩ => ?_
    refine (here.readVbyte left right).found.bind fun ⟨size, start⟩ ⟨size', start'⟩ ⟨second, same, there⟩ => ?_
    have bound := small rfl _ _ _ _ ((computes_readVbyte left aligned.inside).holds first)
      ((computes_readVbyte left here.inside).holds second)
    simp only at same there bound
    subst same
    obtain ⟨inside, later, length, -⟩ := id there
    have reach : one.length ≤ isizeMax ∧ two.length ≤ isizeMax := ⟨left, right⟩
    have least := le_usizeSize
    have width := usizeSize_eq
    have declared : asUsize size = size.toNat := asUsize_of_lt (by omega)
    simp only [declared]
    rw [usizeAdd_eq (by omega), Outcome.ok_bind, usizeAdd_eq (by omega), Outcome.ok_bind]
    exact .ite (by omega) (fun _ => .err _) fun within => .ok (there.add (by omega))

end Aligned

section Put
variable [Target]

def readPutHead (buf : Bytes) (pos : Nat) : Decode (Option Nat) :=
  if pos ≥ buf.length then .err .invalidEncoding
  else do
    let putHeader ← index buf pos
    let pos ← usizeAdd pos 1
    if messageId putHeader ≠ zenohId.put then .ok none
    else do
      let pos ← readTimestamp (hasFlag putHeader putFlag.t) buf pos
      let pos ← skipVbyteIf (hasFlag putHeader putFlag.e) buf pos
      let pos ← skipExtensionsIf (hasFlag putHeader putFlag.z) buf pos
      .ok (some pos)

/-- The Put with its payload, which both decoders read behind headers of their own. -/
def readPut (buf : Bytes) (pos : Nat) : Decode (Option (Bytes × Nat)) := do
  match ← readPutHead buf pos with
  | none => .ok none
  | some pos => do
    let (payload, pos) ← readSlice buf pos
    .ok (some (payload, pos))

/-- If a Put with a timestamp starts at `pos`, the size of the timestamp's id is below 2³¹. -/
def SmallTimestampAt (buf : Bytes) (pos : Nat) : Prop :=
  ∀ header, buf[pos]? = some header → messageId header = zenohId.put → hasFlag header putFlag.t = true →
    ∀ time middle size start, VbyteAt buf (pos + 1) time middle → VbyteAt buf middle size start → size.toNat < 2 ^ 31

theorem Aligned.readPutHead {one two : Bytes} {ahead pos pos' : Nat} (left : Addressable one) (right : Addressable two)
    (aligned : Aligned one two ahead pos pos') (small : SmallTimestampAt one pos) :
    Outcome.Related (Option.Rel (Aligned one two ahead)) (readPutHead one pos) (readPutHead two pos') := by
  obtain ⟨-, later, length, -⟩ := id aligned
  refine .ite (by omega) (fun _ => .err _) fun within => ?_
  have here : pos < one.length := by omega
  refine (aligned.index here).found.bind fun header header' ⟨first, same⟩ => ?_
  subst same
  rw [index_eq here] at first
  refine (aligned.usizeAdd_one left right here).found.bind fun start start' ⟨next, body⟩ => ?_
  obtain ⟨-, rfl⟩ := usizeAdd_eq_ok.mp next
  refine .ite Iff.rfl (fun _ => .ok .none) fun put => ?_
  have kind : messageId header = zenohId.put := Classical.not_not.mp put
  have found : one[pos]? = some header := by
    rw [List.getElem?_eq_getElem here]
    cases first
    rfl
  refine (body.readTimestamp left right _ fun flag => small header found kind flag).bind fun _ _ body => ?_
  refine (body.skipVbyteIf left right _).bind fun _ _ body => ?_
  exact (body.skipExtensionsIf left right _).bind fun _ _ body => .ok (.some body)

theorem Aligned.readPut {one two : Bytes} {ahead pos pos' : Nat} (left : Addressable one) (right : Addressable two)
    (aligned : Aligned one two ahead pos pos') (small : SmallTimestampAt one pos) :
    Outcome.Related (fun put put' => put' = put.map fun (payload, stop) => (payload, stop + ahead))
      (readPut one pos) (readPut two pos') := by
  refine (aligned.readPutHead left right small).bind fun head head' heads => ?_
  cases heads with
  | none => exact .ok rfl
  | some body =>
    refine (body.readSlice left right).bind fun ⟨payload, stop⟩ ⟨payload', stop'⟩ ⟨same, last⟩ => .ok ?_
    simp only at same last
    simp only [same, last.later, Option.map_some]

theorem readPutHead_map {α : Type} (kept : Nat → α) (buf : Bytes) (pos : Nat) :
    (if pos ≥ buf.length then .err .invalidEncoding
      else do
        let putHeader ← index buf pos
        let pos ← usizeAdd pos 1
        if messageId putHeader ≠ zenohId.put then .ok none
        else do
          let pos ← readTimestamp (hasFlag putHeader putFlag.t) buf pos
          let pos ← skipVbyteIf (hasFlag putHeader putFlag.e) buf pos
          let pos ← skipExtensionsIf (hasFlag putHeader putFlag.z) buf pos
          .ok (some (kept pos)) : Decode (Option α)) =
      readPutHead buf pos >>= fun head => .ok (head.map kept) := by
  rw [readPutHead]
  by_cases outside : pos ≥ buf.length
  · rw [if_pos outside, if_pos outside]
    rfl
  · rw [if_neg outside, if_neg outside]
    simp only [bind_assoc]
    refine bind_congr fun putHeader => bind_congr fun pos => ?_
    by_cases other : messageId putHeader ≠ zenohId.put
    · rw [if_pos other, if_pos other]
      rfl
    · rw [if_neg other, if_neg other]
      simp only [bind_assoc]
      rfl

/-- The wire expression of both messages: a scope and a suffix. -/
def wireExprBytes (scope : UInt64) (suffix : String) : Bytes := vbyte scope ++ lengthPrefixed (utf8 suffix)

def pushBytes (scope : UInt64) (suffix : String) (p : Bytes) : Bytes :=
  [networkId.push ||| pushFlag.n] ++ (wireExprBytes scope suffix ++ p)

def responseBytes (requestId scope : UInt64) (suffix : String) (p : Bytes) : Bytes :=
  [networkId.response ||| responseFlag.n] ++ (vbyte requestId ++ (wireExprBytes scope suffix ++ ([zenohId.reply] ++ p)))

variable {p : Bytes} {requestId scope : UInt64} {suffix : String}

omit [Target] in
theorem wireExprBytes_eq : wireExprBytes scope suffix = vbyte scope ++ PushPut.suffixBytes (some suffix) := rfl

theorem decodePushPut_pushBytes (addressable : Addressable (pushBytes scope suffix p)) :
    decodePushPut (pushBytes scope suffix p) =
      readPut (pushBytes scope suffix p) (1 + (wireExprBytes scope suffix).length) >>= fun put =>
        .ok (put.map fun (payload, stop) => (⟨scope, suffix, payload⟩, stop)) := by
  generalize same : pushBytes scope suffix p = buf at addressable ⊢
  have whole : PartAt buf 0 ([networkId.push ||| pushFlag.n] ++ (vbyte scope ++
      (PushPut.suffixBytes (some suffix) ++ p))) :=
    ⟨[], by rw [← same, pushBytes, wireExprBytes_eq, List.append_nil, List.append_assoc, List.drop_zero]⟩
  obtain ⟨header, part⟩ := PartAt.append_iff.mp whole
  obtain ⟨scopeAt, part⟩ := PartAt.append_iff.mp part
  obtain ⟨suffixAt, -⟩ := PartAt.append_iff.mp part
  simp only [List.length_singleton, Nat.zero_add] at scopeAt suffixAt
  have nonempty : ¬buf.isEmpty = true := by simp [← same, pushBytes]
  have kind : messageId (networkId.push ||| pushFlag.n) = networkId.push := by decide
  have named : hasFlag (networkId.push ||| pushFlag.n) pushFlag.n = (some suffix).isSome :=
    (by decide : hasFlag (networkId.push ||| pushFlag.n) pushFlag.n = true)
  have plain : hasFlag (networkId.push ||| pushFlag.n) pushFlag.z = false := by decide
  rw [decodePushPut, decodePushPutHead, if_neg nonempty, index_of_part header, Outcome.ok_bind,
    if_neg (not_not_intro kind), readVbyte_of_part addressable scopeAt, Outcome.ok_bind]
  simp only [named, plain]
  rw [readSuffix_of_part addressable suffixAt, Outcome.ok_bind, wireExprBytes_eq, List.length_append, ← Nat.add_assoc]
  rw [show skipExtensionsIf false buf _ = .ok _ from rfl, Outcome.ok_bind]
  rw [readPutHead_map fun pos => (scope, (some suffix).getD "", pos)]
  simp only [readPut, bind_assoc]
  refine bind_congr fun head => ?_
  cases head with
  | none => rfl
  | some pos =>
    simp only [Option.map_some, Outcome.ok_bind, bind_assoc]
    rfl

theorem decodeResponse_responseBytes (addressable : Addressable (responseBytes requestId scope suffix p)) :
    decodeResponse (responseBytes requestId scope suffix p) =
      readPut (responseBytes requestId scope suffix p)
        (1 + (vbyte requestId).length + (wireExprBytes scope suffix).length + 1) >>= fun put =>
          .ok (put.map fun (payload, stop) => (.reply ⟨requestId.toUInt32, scope, suffix, payload⟩, stop)) := by
  -- The bytes are walked part by part, up to the Put.
  generalize same : responseBytes requestId scope suffix p = buf at addressable ⊢
  have whole : PartAt buf 0 ([networkId.response ||| responseFlag.n] ++ (vbyte requestId ++ (vbyte scope ++
      (PushPut.suffixBytes (some suffix) ++ ([zenohId.reply] ++ p))))) :=
    ⟨[], by rw [← same, responseBytes, wireExprBytes_eq, List.append_nil, List.append_assoc, List.drop_zero]⟩
  obtain ⟨header, part⟩ := PartAt.append_iff.mp whole
  obtain ⟨id, part⟩ := PartAt.append_iff.mp part
  obtain ⟨scopeAt, part⟩ := PartAt.append_iff.mp part
  obtain ⟨suffixAt, part⟩ := PartAt.append_iff.mp part
  obtain ⟨here, reply, next⟩ := header_of_part addressable part
  simp only [List.length_singleton, Nat.zero_add] at id scopeAt suffixAt here reply next
  have nonempty : ¬buf.isEmpty = true := by simp [← same, responseBytes]
  have final : messageId (networkId.response ||| responseFlag.n) ≠ networkId.responseFinal := by decide
  have kind : messageId (networkId.response ||| responseFlag.n) = networkId.response := by decide
  have named : hasFlag (networkId.response ||| responseFlag.n) responseFlag.n = (some suffix).isSome :=
    (by decide : hasFlag (networkId.response ||| responseFlag.n) responseFlag.n = true)
  have plain : hasFlag (networkId.response ||| responseFlag.n) responseFlag.z = false := by decide
  have answered : messageId zenohId.reply = zenohId.reply := by decide
  have bare : hasFlag zenohId.reply replyFlag.c = false ∧ hasFlag zenohId.reply replyFlag.z = false := by decide
  rw [decodeResponse, decodeResponseHead, if_neg nonempty, index_of_part header, Outcome.ok_bind, if_neg final,
    if_neg (not_not_intro kind), readVbyte_of_part addressable id, Outcome.ok_bind]
  simp only
  rw [readVbyte_of_part addressable scopeAt, Outcome.ok_bind]
  simp only [named, plain]
  rw [readSuffix_of_part addressable suffixAt, Outcome.ok_bind, wireExprBytes_eq, List.length_append, ← Nat.add_assoc]
  rw [show skipExtensionsIf false buf _ = .ok _ from rfl, Outcome.ok_bind, if_neg here, reply, Outcome.ok_bind, next,
    Outcome.ok_bind, if_neg (not_not_intro answered), bare.1, bare.2, show skipVbyteIf false buf _ = .ok _ from rfl,
    Outcome.ok_bind, show skipExtensionsIf false buf _ = .ok _ from rfl, Outcome.ok_bind]
  rw [readPutHead_map (ResponseHead.reply requestId.toUInt32 scope ((some suffix).getD ""))]
  simp only [readPut, bind_assoc]
  refine bind_congr fun head => ?_
  cases head with
  | none => rfl
  | some pos =>
    simp only [Option.map_some, Outcome.ok_bind, bind_assoc]
    rfl

omit [Target] in
theorem SmallTimestampAt.of_drop_eq {one two : Bytes} {pos pos' : Nat} (same : one.drop pos = two.drop pos')
    (small : SmallTimestampAt two pos') : SmallTimestampAt one pos := by
  intro header found put stamped time middle size start first second
  have after (n : Nat) : one.drop (pos + n) = two.drop (pos' + n) := by
    rw [← List.drop_drop, same, List.drop_drop]
  have left := first.bounds
  have right := second.bounds
  obtain ⟨n, rfl⟩ := Nat.exists_eq_add_of_le (Nat.le_of_lt left.1)
  obtain ⟨m, rfl⟩ := Nat.exists_eq_add_of_le (Nat.le_of_lt right.1)
  refine small header ?_ put stamped time (pos' + 1 + n) size (pos' + 1 + n + m) (first.of_drop_eq (after 1)) ?_
  · rw [← Nat.add_zero pos, ← List.getElem?_drop, same, List.getElem?_drop, Nat.add_zero] at found
    exact found
  · exact second.of_drop_eq (by rw [Nat.add_assoc, Nat.add_assoc]; exact after (1 + n))

section Positions
variable (requestId scope : UInt64) (suffix : String) (p : Bytes)

omit [Target] in
theorem responseBytes_length : (responseBytes requestId scope suffix p).length =
    (pushBytes scope suffix p).length + (1 + (vbyte requestId).length) := by
  simp only [responseBytes, pushBytes, List.length_append, List.length_singleton]
  omega

omit [Target] in
theorem drop_pushBytes : (pushBytes scope suffix p).drop (1 + (wireExprBytes scope suffix).length) = p := by
  rw [pushBytes, ← List.append_assoc, List.drop_left' (by rw [List.length_append, List.length_singleton])]

omit [Target] in
theorem drop_responseBytes : (responseBytes requestId scope suffix p).drop
    (1 + (vbyte requestId).length + (wireExprBytes scope suffix).length + 1) = p := by
  rw [responseBytes, ← List.append_assoc, ← List.append_assoc, ← List.append_assoc]
  exact List.drop_left' (by simp only [List.length_append, List.length_singleton])

omit [Target] in
theorem aligned_messages : Aligned (pushBytes scope suffix p) (responseBytes requestId scope suffix p)
    (1 + (vbyte requestId).length) (1 + (wireExprBytes scope suffix).length)
    (1 + (vbyte requestId).length + (wireExprBytes scope suffix).length + 1) := by
  refine ⟨?_, by omega, responseBytes_length requestId scope suffix p,
    (drop_pushBytes scope suffix p).trans (drop_responseBytes requestId scope suffix p).symm⟩
  rw [pushBytes, List.length_append, List.length_append, List.length_singleton]
  omega

end Positions

/-- On a Push and on a Response with a bare Reply, whose wire expressions are the same and which go on with the same
bytes, the two decoders find the same Put or fail alike. -/
theorem decodeResponse_agrees_decodePushPut (requestId scope : UInt64) (suffix : String) (p : Bytes)
    (addressable : Addressable (responseBytes requestId scope suffix p)) (small : SmallTimestampAt p 0) :
    let push := decodePushPut (pushBytes scope suffix p)
    let response := decodeResponse (responseBytes requestId scope suffix p)
    (∀ put n, push = .ok (some (put, n)) ↔ put.scope = scope ∧ put.keySuffix = suffix ∧
      response = .ok (some (.reply ⟨requestId.toUInt32, scope, suffix, put.payload⟩, n + 1 + (vbyte requestId).length))) ∧
    (push = .ok none ↔ response = .ok none) ∧
    ((∃ error, push = .err error) ↔ ∃ error, response = .err error) ∧
    ((∃ fault, push = .panic fault) ↔ ∃ fault, response = .panic fault) := by
  intro push response
  have room : Addressable (pushBytes scope suffix p) := addressable.of_length_le (by
    rw [responseBytes_length]
    omega)
  have stamped : SmallTimestampAt (pushBytes scope suffix p) (1 + (wireExprBytes scope suffix).length) :=
    small.of_drop_eq ((drop_pushBytes ..).trans List.drop_zero.symm)
  -- Both decoders come to the same `readPut`, at aligned positions.
  have puts := (aligned_messages requestId scope suffix p).readPut room addressable stamped
  have one : push = _ := decodePushPut_pushBytes room
  have two : response = _ := decodeResponse_responseBytes addressable
  rw [one, two]
  generalize readPut (pushBytes scope suffix p) _ = left at puts ⊢
  generalize readPut (responseBytes requestId scope suffix p) _ = right at puts ⊢
  cases puts with
  | @ok put put' related =>
    subst related
    cases put with
    | none => simp
    | some read =>
      simp only [Option.map_some, Outcome.ok_bind, Outcome.ok.injEq, Option.some.injEq, Prod.mk.injEq]
      refine ⟨fun ⟨putScope, keySuffix, payload⟩ n => ?_, by simp, by simp, by simp⟩
      constructor
      · rintro ⟨same, rfl⟩
        cases same
        exact ⟨rfl, rfl, rfl, by omega⟩
      · rintro ⟨rfl, rfl, same, stop⟩
        cases same
        exact ⟨rfl, by omega⟩
  | err error => simp
  | panic fault => simp

omit [Target] in
/-- A Put with a timestamp, and one more byte behind its payload. -/
theorem decodeResponse_agrees_decodePushPut_stamped :
    letI := target64
    let p : Bytes := [0x21, 5, 1, 9, 2, 6, 7, 0xFF]
    decodePushPut (pushBytes 0 "a" p) = .ok (some (⟨0, "a", [6, 7]⟩, 11)) ∧
      decodeResponse (responseBytes 300 0 "a" p) = .ok (some (.reply ⟨300, 0, "a", [6, 7]⟩, 14)) := by
  let := target64
  intro p
  have small : SmallTimestampAt p 0 := by
    intro header _ _ _ time middle size start first second
    have one : VbyteAt p 1 5 2 := ⟨[5], _, rfl, .last (by decide), by decide, rfl, rfl⟩
    have two : VbyteAt p 2 1 3 := ⟨[1], _, rfl, .last (by decide), by decide, rfl, rfl⟩
    obtain ⟨-, rfl⟩ := one.unique first
    obtain ⟨rfl, -⟩ := two.unique second
    decide
  have addressable : Addressable (responseBytes 300 0 "a" p) := le_isizeMax (by decide +kernel)
  have push : decodePushPut (pushBytes 0 "a" p) = .ok (some (⟨0, "a", [6, 7]⟩, 11)) := by decide +kernel
  have agree := (decodeResponse_agrees_decodePushPut 300 0 "a" p addressable small).1 ⟨0, "a", [6, 7]⟩ 11
  have stop : 11 + 1 + (vbyte 300).length = 14 := by decide +kernel
  rw [stop] at agree
  exact ⟨push, (agree.mp push).2.2⟩

end Put
end ZenohRos2
