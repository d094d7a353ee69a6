import ZenohRos2.Transport.PushPut

/-! Declarations and requests, read back.

The crate sends these messages and reads none of them: the readers here are its
wire grammar, put together from the readers that its decoders are made of.
-/

set_option autoImplicit false

namespace ZenohRos2
open Rust

inductive Declaration where
  | keyexpr (keyId : UInt16) (keyExpr : String)
  | subscriberMapped (subId : UInt32) (keyId : UInt16)
  | token (tokenId : UInt32) (keyExpr : String)
  | tokenMapped (tokenId : UInt32) (keyId : UInt16)

namespace Declaration

def id : Declaration → UInt64
  | keyexpr keyId _ => keyId.toUInt64
  | subscriberMapped subId _ => subId.toUInt64
  | token tokenId _ => tokenId.toUInt64
  | tokenMapped tokenId _ => tokenId.toUInt64

def scope : Declaration → UInt64
  | keyexpr _ _ => 0
  | subscriberMapped _ keyId => keyId.toUInt64
  | token _ _ => 0
  | tokenMapped _ keyId => keyId.toUInt64

def keyExpr : Declaration → String
  | keyexpr _ keyExpr => keyExpr
  | subscriberMapped _ _ => ""
  | token _ keyExpr => keyExpr
  | tokenMapped _ _ => ""

/-- An empty key expression is not sent. -/
def suffix (declaration : Declaration) : Option String :=
  if declaration.keyExpr.isEmpty then none else some declaration.keyExpr

def headerByte : Declaration → UInt8
  | keyexpr _ keyExpr => declareId.dKeyexpr ||| flagIf (!keyExpr.isEmpty) declareKeyexprFlag.n
  | subscriberMapped _ _ => declareId.dSubscriber ||| declareSubscriberFlag.m
  | token _ keyExpr => declareId.dToken ||| flagIf (!keyExpr.isEmpty) declareTokenFlag.n
  | tokenMapped _ _ => declareId.dToken ||| declareTokenFlag.m

def bytes (declaration : Declaration) : Bytes :=
  [networkId.declare] ++ ([declaration.headerByte] ++ (vbyte declaration.id ++ (vbyte declaration.scope ++
    PushPut.suffixBytes declaration.suffix)))

def encoder [Target] : Declaration → WireEncoder
  | keyexpr keyId keyExpr => encodeDeclareKeyexpr keyId keyExpr
  | subscriberMapped subId keyId => encodeDeclareSubscriberMapped subId keyId
  | token tokenId keyExpr => encodeDeclareToken tokenId keyExpr
  | tokenMapped tokenId keyId => encodeDeclareTokenMapped tokenId keyId

theorem getD_suffix (declaration : Declaration) : declaration.suffix.getD "" = declaration.keyExpr := by
  unfold suffix
  split
  · rename_i empty
    exact (String.isEmpty_iff.mp empty).symm
  · rfl

theorem hasFlag_headerByte (declaration : Declaration) :
    hasFlag declaration.headerByte declareKeyexprFlag.n = declaration.suffix.isSome := by
  have flagged (kind : UInt8) (member : kind ∈ [declareId.dKeyexpr, declareId.dToken]) (empty : Bool) (text : String) :
      hasFlag (kind ||| flagIf (!empty) 0x20) 0x20 = (if empty = true then none else some text).isSome := by
    revert kind
    cases empty <;> simp only [if_true, Bool.false_eq_true, if_false, Option.isSome] <;> decide +kernel
  cases declaration with
  | keyexpr keyId keyExpr => exact flagged _ (by simp) _ _
  | subscriberMapped subId keyId =>
    exact (by decide : hasFlag (declareId.dSubscriber ||| declareSubscriberFlag.m) declareKeyexprFlag.n = false)
  | token tokenId keyExpr => exact flagged _ (by simp) _ _
  | tokenMapped tokenId keyId =>
    exact (by decide : hasFlag (declareId.dToken ||| declareTokenFlag.m) declareKeyexprFlag.n = false)

theorem suffixBytes_suffix (declaration : Declaration) :
    PushPut.suffixBytes declaration.suffix =
      if !declaration.keyExpr.isEmpty then lengthPrefixed (utf8 declaration.keyExpr) else [] := by
  unfold suffix
  cases declaration.keyExpr.isEmpty <;> rfl

theorem encodes_encoder [Target] {declaration : Declaration} (key : Addressable (utf8 declaration.keyExpr)) :
    Encodes TransportError.frameTooLarge declaration.encoder declaration.bytes := by
  rw [bytes, suffixBytes_suffix]
  cases declaration with
  | keyexpr keyId keyExpr => exact encodes_encodeDeclareKeyexpr keyId key
  | subscriberMapped subId keyId =>
    have mapped := encodes_encodeDeclareSubscriberMapped subId keyId
    rw [declareSubscriberMappedBytes, ← List.append_nil (vbyte keyId.toUInt64)] at mapped
    exact mapped
  | token tokenId keyExpr => exact encodes_encodeDeclareToken tokenId key
  | tokenMapped tokenId keyId =>
    have mapped := encodes_encodeMapped (declareId.dToken ||| declareTokenFlag.m) tokenId keyId
    rw [mappedBytes, ← List.append_nil (vbyte keyId.toUInt64)] at mapped
    exact mapped

end Declaration

structure DeclaredFields where
  header : UInt8
  kind : UInt8
  id : UInt64
  scope : UInt64
  keyExpr : String
  deriving DecidableEq

/-- What stands in a request with a query, and where the extensions of the query start. -/
structure Requested where
  header : UInt8
  requestId : UInt64
  scope : UInt64
  keyExpr : String
  queryHeader : UInt8
  extensions : Nat
  deriving DecidableEq

section Readers
variable [Target]

/-- The N flag is the same bit in all declarations. -/
def readDeclaration (buf : Bytes) : Decode (DeclaredFields × Nat) := do
  let header ← index buf 0
  let kind ← index buf 1
  let (id, pos) ← readVbyte buf 2
  let (scope, pos) ← readVbyte buf pos
  let (keyExpr, pos) ← readSuffix (hasFlag kind declareKeyexprFlag.n) buf pos
  .ok (⟨header, kind, id, scope, keyExpr⟩, pos)

def readRequest (buf : Bytes) : Decode (Requested × Nat) := do
  let header ← index buf 0
  let (requestId, pos) ← readVbyte buf 1
  let (scope, pos) ← readVbyte buf pos
  let (keyExpr, pos) ← readSuffix (hasFlag header requestFlag.n) buf pos
  let pos ← skipExtensionsIf (hasFlag header requestFlag.z) buf pos
  let queryHeader ← index buf pos
  let extensions ← usizeAdd pos 1
  let pos ← skipExtensionsIf (hasFlag queryHeader queryFlag.z) buf extensions
  .ok (⟨header, requestId, scope, keyExpr, queryHeader, extensions⟩, pos)

theorem readDeclaration_of_part {declaration : Declaration} {buf : Bytes} (addressable : Addressable buf)
    (part : PartAt buf 0 declaration.bytes) :
    readDeclaration buf = .ok (⟨networkId.declare, declaration.headerByte, declaration.id, declaration.scope,
      declaration.keyExpr⟩, declaration.bytes.length) := by
  obtain ⟨header, part⟩ := PartAt.append_iff.mp part
  obtain ⟨kind, part⟩ := PartAt.append_iff.mp part
  obtain ⟨id, part⟩ := PartAt.append_iff.mp part
  obtain ⟨scope, suffix⟩ := PartAt.append_iff.mp part
  simp only [List.length_singleton, Nat.zero_add] at kind id scope suffix
  rw [readDeclaration, index_of_part header, Outcome.ok_bind, index_of_part kind, Outcome.ok_bind,
    readVbyte_of_part addressable id, Outcome.ok_bind]
  simp only
  rw [readVbyte_of_part addressable scope, Outcome.ok_bind]
  simp only [declaration.hasFlag_headerByte]
  rw [readSuffix_of_part addressable suffix, Outcome.ok_bind, declaration.getD_suffix]
  simp only [Declaration.bytes, List.length_append, List.length_singleton, ← Nat.add_assoc]

end Readers

section Request

/-- The encoding, which is the default one, and the payload; then the attachment. -/
def queryExtensions (payload : Bytes) (seqNum timestampNs : Int64) (gid : ZenohId) : List Extension :=
  [⟨⟨3, by decide⟩, .zbuf (0 :: payload)⟩, ⟨⟨5, by decide⟩, .zbuf (attachment seqNum timestampNs gid)⟩]

def targetExtensions : List Extension := [⟨⟨4, by decide⟩, .z64 queryTarget.allComplete⟩]

def requestHeader : UInt8 := networkId.request ||| requestFlag.n ||| requestFlag.z

def queryHeader : UInt8 := zenohId.query ||| queryFlag.z

theorem requestQueryBytes_eq (requestId : UInt32) (keyExpr : String) (payload : Bytes) (seqNum timestampNs : Int64)
    (gid : ZenohId) :
    requestQueryBytes requestId keyExpr payload seqNum timestampNs gid =
      [requestHeader] ++ (vbyte requestId.toUInt64 ++ (vbyte 0 ++ (PushPut.suffixBytes (some keyExpr) ++
        (Extension.chain targetExtensions ++ ([queryHeader] ++
          Extension.chain (queryExtensions payload seqNum timestampNs gid)))))) := by
  have zero : vbyte 0 = [0] := by
    rw [vbyte, Leb128.encode_of_lt (by decide)]
    rfl
  have bodyHeader (data : Bytes) : Extension.headerByte ⟨⟨3, by decide⟩, .zbuf data⟩ true = queryBodyExtHeader :=
    (by decide : UInt8.ofNat 3 ||| ((2 : UInt8) <<< 5) ||| flagIf true 0x80 = queryBodyExtHeader)
  have attachmentHeader (data : Bytes) :
      Extension.headerByte ⟨⟨5, by decide⟩, .zbuf data⟩ false = queryAttachmentExtHeader :=
    (by decide : UInt8.ofNat 5 ||| ((2 : UInt8) <<< 5) ||| flagIf false 0x80 = queryAttachmentExtHeader)
  have target : Extension.chain targetExtensions = [targetExtHeader] ++ vbyte queryTarget.allComplete := by
    rw [targetExtensions, Extension.chain, Extension.chain, List.append_nil, Extension.bytes, Extension.bodyBytes]
    rfl
  have query : Extension.chain (queryExtensions payload seqNum timestampNs gid) =
      [queryBodyExtHeader] ++ (vbyte (UInt64.ofNat (1 + payload.length)) ++ (vbyte 0 ++ (payload ++
        ([queryAttachmentExtHeader] ++ (vbyte (UInt64.ofNat attachmentLen) ++ attachment seqNum timestampNs gid))))) := by
    simp only [queryExtensions, Extension.chain, List.isEmpty_cons, List.isEmpty_nil, Bool.not_false, Bool.not_true,
      List.append_nil, Extension.bytes, Extension.bodyBytes, bodyHeader, attachmentHeader, lengthPrefixed,
      attachment_length, List.length_cons, Nat.add_comm payload.length, zero, List.append_assoc, List.cons_append,
      List.nil_append]
  rw [target, query, requestQueryBytes]
  simp only [List.append_assoc]
  rfl

variable [Target]

theorem readRequest_of_part {requestId : UInt32} {keyExpr : String} {payload : Bytes} {seqNum timestampNs : Int64}
    {gid : ZenohId} {buf : Bytes} (addressable : Addressable buf)
    (part : PartAt buf 0 (requestQueryBytes requestId keyExpr payload seqNum timestampNs gid)) :
    ∃ start, readRequest buf = .ok (⟨requestHeader, requestId.toUInt64, 0, keyExpr, queryHeader, start⟩,
        (requestQueryBytes requestId keyExpr payload seqNum timestampNs gid).length) ∧
      PartAt buf start (Extension.chain (queryExtensions payload seqNum timestampNs gid)) ∧
      start + (Extension.chain (queryExtensions payload seqNum timestampNs gid)).length =
        (requestQueryBytes requestId keyExpr payload seqNum timestampNs gid).length := by
  rw [requestQueryBytes_eq] at part ⊢
  obtain ⟨header, part⟩ := PartAt.append_iff.mp part
  obtain ⟨id, part⟩ := PartAt.append_iff.mp part
  obtain ⟨scope, part⟩ := PartAt.append_iff.mp part
  obtain ⟨suffix, part⟩ := PartAt.append_iff.mp part
  obtain ⟨target, part⟩ := PartAt.append_iff.mp part
  have room := part.fits (List.cons_ne_nil _ _)
  obtain ⟨query, extensions⟩ := PartAt.append_iff.mp part
  simp only [List.length_append, List.length_singleton, Nat.zero_add] at id scope suffix target query extensions room
  refine ⟨_, ?_, extensions, ?_⟩
  · rw [readRequest, index_of_part header, Outcome.ok_bind, readVbyte_of_part addressable id, Outcome.ok_bind]
    simp only
    rw [readVbyte_of_part addressable scope, Outcome.ok_bind]
    simp only
    have named : hasFlag requestHeader requestFlag.n = (some keyExpr).isSome :=
      (by decide : hasFlag requestHeader requestFlag.n = true)
    rw [named, readSuffix_of_part addressable suffix, Outcome.ok_bind]
    simp only
    have targeted : hasFlag requestHeader requestFlag.z = !targetExtensions.isEmpty := by decide
    have extended : hasFlag queryHeader queryFlag.z = !(queryExtensions payload seqNum timestampNs gid).isEmpty :=
      (by decide : hasFlag queryHeader queryFlag.z = true)
    rw [targeted, skipExtensionsIf_of_part addressable target, Outcome.ok_bind, index_of_part query, Outcome.ok_bind,
      usizeAdd_eq (addressable.lt_usizeSize (by omega) (by omega)), Outcome.ok_bind, extended,
      skipExtensionsIf_of_part addressable extensions, Outcome.ok_bind]
    simp only [Option.getD_some, List.length_append, List.length_singleton, ← Nat.add_assoc]
  · simp only [List.length_append, List.length_singleton, ← Nat.add_assoc]

/-- Whatever follows it, a declaration gives back its ids, scope and key expression, and a request with a query gives
back its request id and key expression. Both end at the reported length. Of the query's two extensions the one holds a
zero and the payload, and the other one 33 bytes: sequence number, timestamp, 16 and the padded id. -/
theorem control_messages_parse_back :
    (∀ (declaration : Declaration) (buf after rest : Bytes) (count : Nat),
      Addressable (utf8 declaration.keyExpr) → Addressable buf → declaration.encoder buf = .ok (count, after) →
      Addressable (after.take count ++ rest) →
      readDeclaration (after.take count ++ rest) = .ok (⟨networkId.declare, declaration.headerByte, declaration.id,
        declaration.scope, declaration.keyExpr⟩, count)) ∧
    (∀ (requestId : UInt32) (keyExpr : String) (payload : Bytes) (seqNum timestampNs : Int64) (gid : ZenohId)
      (buf after rest : Bytes) (count : Nat),
      Addressable (utf8 keyExpr) → Addressable payload → Addressable buf →
      encodeRequestQuery requestId keyExpr payload seqNum timestampNs gid buf = .ok (count, after) →
      Addressable (after.take count ++ rest) →
      ∃ start, readRequest (after.take count ++ rest) =
          .ok (⟨requestHeader, requestId.toUInt64, 0, keyExpr, queryHeader, start⟩, count) ∧
        let data := i64ToLe seqNum ++ (i64ToLe timestampNs ++ ([16] ++ gidBytes gid))
        data.length = 33 ∧
          (after.take count).drop start = Extension.chain [⟨3, .zbuf (0 :: payload)⟩, ⟨5, .zbuf data⟩]) := by
  constructor
  · intro declaration buf after rest count key room success addressable
    have encodes := Declaration.encodes_encoder key
    rw [encodes.take_eq room success] at addressable ⊢
    rw [encodes.count_eq room success]
    exact readDeclaration_of_part addressable ⟨rest, rfl⟩
  · intro requestId keyExpr payload seqNum timestampNs gid buf after rest count key data room success addressable
    have encodes := encodes_encodeRequestQuery requestId seqNum timestampNs gid key data
    rw [encodes.take_eq room success] at addressable ⊢
    rw [encodes.count_eq room success]
    obtain ⟨start, read, ⟨tail, extensions⟩, stop⟩ :=
      readRequest_of_part addressable (show PartAt _ 0 (requestQueryBytes requestId keyExpr payload seqNum timestampNs gid)
        from ⟨rest, rfl⟩)
    refine ⟨start, read, attachment_length seqNum timestampNs gid, ?_⟩
    -- The extensions reach to the end of the message, so nothing else is left of it there.
    have front := congrArg (List.take (Extension.chain (queryExtensions payload seqNum timestampNs gid)).length) extensions
    have remains : (requestQueryBytes requestId keyExpr payload seqNum timestampNs gid).length - start =
        (Extension.chain (queryExtensions payload seqNum timestampNs gid)).length := by omega
    rw [List.drop_append_of_le_length (by omega), List.take_left,
      List.take_left' (List.length_drop.trans remains)] at front
    exact front

omit [Target] in
theorem control_messages_parse_back_token :
    letI := target64
    readDeclaration [0x1e, 0x26, 0xAC, 2, 0, 1, 0x61, 0xFF] = .ok (⟨0x1e, 0x26, 300, 0, "a"⟩, 7) ∧
      ∃ start, readRequest (requestQueryBytes 7 "a" [9] 1 2 (.fromBytes [3]) ++ [0xFF]) =
          .ok (⟨0xBC, 7, 0, "a", 0x83, start⟩, 47) := by
  let := target64
  obtain ⟨declarations, requests⟩ := control_messages_parse_back
  have small {bytes : Bytes} (short : bytes.length < 2 ^ 31) : Addressable bytes := le_isizeMax short
  have key : Addressable (utf8 "a") := small (by decide +kernel)
  have room : Addressable (List.replicate 64 (0 : UInt8)) := small (by decide)
  constructor
  · have bytes : (Declaration.token 300 "a").bytes = [0x1e, 0x26, 0xAC, 2, 0, 1, 0x61] := by decide +kernel
    have encodes := Declaration.encodes_encoder (show Addressable (utf8 (Declaration.token 300 "a").keyExpr) from key)
    have success := encodes.eq_ok room (by rw [bytes]; decide)
    rw [bytes] at success
    exact declarations (.token 300 "a") _ _ [0xFF] 7 key room success (small (by decide))
  · have length : (requestQueryBytes 7 "a" [9] 1 2 (.fromBytes [3])).length = 47 := by decide +kernel
    have data : Addressable ([9] : Bytes) := small (by decide)
    have success := (encodes_encodeRequestQuery 7 1 2 (.fromBytes [3]) key data).eq_ok room (by rw [length]; decide)
    rw [length] at success
    have fits : Addressable ((requestQueryBytes 7 "a" [9] 1 2 (.fromBytes [3]) ++
        (List.replicate 64 (0 : UInt8)).drop 47).take 47 ++ [0xFF]) := small (by simp [length])
    obtain ⟨start, read, -⟩ := requests 7 "a" [9] 1 2 (.fromBytes [3]) _ _ [0xFF] 47 key data room success fits
    rw [List.take_left' length] at read
    exact ⟨start, read⟩

end Request
end ZenohRos2
