import ZenohRos2.Transport.PushPut

/-! The grammar of a Response with a Reply, and of a ResponseFinal.

They are taken apart like a Push with a Put body, whose parts they share. The
decoder keeps the low 32 bits of the request id.
-/

set_option autoImplicit false

namespace ZenohRos2
open Rust

/-- A Response with a Reply whose body is a Put. -/
structure Reply where
  requestId : UInt64
  scope : UInt64
  mapped : Bool
  suffix : Option String
  responseExtensions : List Extension
  consolidation : Option UInt64
  replyExtensions : List Extension
  timestamp : Option (UInt64 × Bytes)
  encoding : Option UInt64
  putExtensions : List Extension
  payload : Bytes
  deriving DecidableEq

structure ResponseFinal where
  requestId : UInt64
  extensions : List Extension
  deriving DecidableEq

namespace Reply

def consolidationBytes (consolidation : Option UInt64) : Bytes := (consolidation.map vbyte).getD []

def responseHeader (reply : Reply) : UInt8 :=
  header networkId.response reply.suffix.isSome reply.mapped (!reply.responseExtensions.isEmpty)

def replyHeader (reply : Reply) : UInt8 :=
  header zenohId.reply reply.consolidation.isSome false (!reply.replyExtensions.isEmpty)

def putHeader (reply : Reply) : UInt8 :=
  header zenohId.put reply.timestamp.isSome reply.encoding.isSome (!reply.putExtensions.isEmpty)

/-- Behind the request id, and in front of the Reply. -/
def expressionBytes (reply : Reply) : Bytes :=
  vbyte reply.scope ++ (PushPut.suffixBytes reply.suffix ++ Extension.chain reply.responseExtensions)

def bodyBytes (reply : Reply) : Bytes :=
  [reply.replyHeader] ++ (consolidationBytes reply.consolidation ++ Extension.chain reply.replyExtensions)

def putBytes (reply : Reply) : Bytes :=
  [reply.putHeader] ++ (PushPut.timestampBytes reply.timestamp ++ (PushPut.encodingBytes reply.encoding ++
    Extension.chain reply.putExtensions))

def bytes (reply : Reply) : Bytes :=
  [reply.responseHeader] ++ (vbyte reply.requestId ++ (reply.expressionBytes ++ (reply.bodyBytes ++
    (reply.putBytes ++ lengthPrefixed reply.payload))))

def incoming (reply : Reply) : IncomingReply :=
  ⟨reply.requestId.toUInt32, reply.scope, reply.suffix.getD "", reply.payload⟩

variable (reply : Reply)

theorem messageId_responseHeader : messageId reply.responseHeader = networkId.response := messageId_header _ _ _ _

theorem hasFlag_responseHeader_n : hasFlag reply.responseHeader responseFlag.n = reply.suffix.isSome :=
  hasFlag_header_bit5 _ _ _ _ (by decide)

theorem hasFlag_responseHeader_z :
    hasFlag reply.responseHeader responseFlag.z = !reply.responseExtensions.isEmpty :=
  hasFlag_header_bit7 _ _ _ _ (by decide)

theorem messageId_replyHeader : messageId reply.replyHeader = zenohId.reply := messageId_header _ _ _ _

theorem hasFlag_replyHeader_c : hasFlag reply.replyHeader replyFlag.c = reply.consolidation.isSome :=
  hasFlag_header_bit5 _ _ _ _ (by decide)

theorem hasFlag_replyHeader_z : hasFlag reply.replyHeader replyFlag.z = !reply.replyExtensions.isEmpty :=
  hasFlag_header_bit7 _ _ _ _ (by decide)

theorem messageId_putHeader : messageId reply.putHeader = zenohId.put := messageId_header _ _ _ _

theorem hasFlag_putHeader_t : hasFlag reply.putHeader putFlag.t = reply.timestamp.isSome :=
  hasFlag_header_bit5 _ _ _ _ (by decide)

theorem hasFlag_putHeader_e : hasFlag reply.putHeader putFlag.e = reply.encoding.isSome :=
  hasFlag_header_bit6 _ _ _ _ (by decide)

theorem hasFlag_putHeader_z : hasFlag reply.putHeader putFlag.z = !reply.putExtensions.isEmpty :=
  hasFlag_header_bit7 _ _ _ _ (by decide)

end Reply

namespace ResponseFinal

def headerByte (final : ResponseFinal) : UInt8 :=
  header networkId.responseFinal false false (!final.extensions.isEmpty)

def bytes (final : ResponseFinal) : Bytes :=
  [final.headerByte] ++ (vbyte final.requestId ++ Extension.chain final.extensions)

variable (final : ResponseFinal)

theorem messageId_headerByte : messageId final.headerByte = networkId.responseFinal := messageId_header _ _ _ _

theorem hasFlag_headerByte_z : hasFlag final.headerByte responseFinalFlag.z = !final.extensions.isEmpty :=
  hasFlag_header_bit7 _ _ _ _ (by decide)

end ResponseFinal

section Decode
variable [Target] {buf : Bytes} {pos : Nat}

theorem skipConsolidation_of_part {consolidation : Option UInt64} (addressable : Addressable buf)
    (part : PartAt buf pos (Reply.consolidationBytes consolidation)) :
    skipVbyteIf consolidation.isSome buf pos = .ok (pos + (Reply.consolidationBytes consolidation).length) := by
  cases consolidation with
  | none => rfl
  | some value =>
    change (readVbyte buf pos >>= _) = _
    rw [readVbyte_of_part addressable part, Outcome.ok_bind]
    rfl

theorem header_of_part {byte : UInt8} {rest : Bytes} (addressable : Addressable buf)
    (part : PartAt buf pos ([byte] ++ rest)) :
    ¬pos ≥ buf.length ∧ (index buf pos : Decode UInt8) = .ok byte ∧
      (usizeAdd pos 1 : Decode Nat) = .ok (pos + 1) := by
  have fits := part.fits (List.cons_ne_nil _ _)
  rw [List.length_append, List.length_singleton] at fits
  exact ⟨by omega, index_of_part (PartAt.append_iff.mp part).1,
    usizeAdd_eq (addressable.lt_usizeSize (by omega) (by omega))⟩

theorem decodeResponse_reply (reply : Reply) (rest : Bytes) (addressable : Addressable (reply.bytes ++ rest)) :
    decodeResponse (reply.bytes ++ rest) = .ok (some (.reply reply.incoming, reply.bytes.length)) := by
  have part : PartAt (reply.bytes ++ rest) 0 reply.bytes := ⟨rest, rfl⟩
  generalize reply.bytes ++ rest = buf at addressable part
  obtain ⟨inside, first, -⟩ := header_of_part addressable part
  obtain ⟨-, part⟩ := PartAt.append_iff.mp part
  obtain ⟨requestId, part⟩ := PartAt.append_iff.mp part
  obtain ⟨expression, part⟩ := PartAt.append_iff.mp part
  obtain ⟨scope, expression⟩ := PartAt.append_iff.mp expression
  obtain ⟨suffix, responseExtensions⟩ := PartAt.append_iff.mp expression
  obtain ⟨body, part⟩ := PartAt.append_iff.mp part
  obtain ⟨here, second, next⟩ := header_of_part addressable body
  obtain ⟨-, body⟩ := PartAt.append_iff.mp body
  obtain ⟨consolidation, replyExtensions⟩ := PartAt.append_iff.mp body
  obtain ⟨put, payload⟩ := PartAt.append_iff.mp part
  obtain ⟨there, third, last⟩ := header_of_part addressable put
  obtain ⟨-, put⟩ := PartAt.append_iff.mp put
  obtain ⟨timestamp, put⟩ := PartAt.append_iff.mp put
  obtain ⟨encoding, putExtensions⟩ := PartAt.append_iff.mp put
  simp only [Reply.expressionBytes, Reply.bodyBytes, Reply.putBytes, List.length_append, List.length_singleton,
    Nat.zero_add, ← Nat.add_assoc] at *
  have nonempty : ¬(buf.isEmpty = true) := by
    rw [List.isEmpty_iff_length_eq_zero]
    omega
  -- The Response up to its extensions.
  rw [decodeResponse, decodeResponseHead, if_neg nonempty, first, Outcome.ok_bind, reply.messageId_responseHeader,
    if_neg (by decide), if_neg (by decide), readVbyte_of_part addressable requestId, Outcome.ok_bind]
  simp only
  rw [readVbyte_of_part addressable scope, Outcome.ok_bind]
  simp only [reply.hasFlag_responseHeader_n, reply.hasFlag_responseHeader_z]
  rw [readSuffix_of_part addressable suffix, Outcome.ok_bind]
  simp only
  rw [skipExtensionsIf_of_part addressable responseExtensions, Outcome.ok_bind, if_neg here, second, Outcome.ok_bind,
    next, Outcome.ok_bind, reply.messageId_replyHeader, if_neg (by decide), reply.hasFlag_replyHeader_c,
    reply.hasFlag_replyHeader_z, skipConsolidation_of_part addressable consolidation, Outcome.ok_bind,
    skipExtensionsIf_of_part addressable replyExtensions, Outcome.ok_bind]
  -- The Put, as in a Push.
  rw [if_neg there, third, Outcome.ok_bind, last, Outcome.ok_bind, reply.messageId_putHeader, if_neg (by decide),
    reply.hasFlag_putHeader_t, reply.hasFlag_putHeader_e, reply.hasFlag_putHeader_z,
    readTimestamp_of_part addressable timestamp, Outcome.ok_bind, skipVbyteIf_of_part addressable encoding,
    Outcome.ok_bind, skipExtensionsIf_of_part addressable putExtensions, Outcome.ok_bind]
  simp only [Outcome.ok_bind]
  rw [readSlice_of_part addressable payload, Outcome.ok_bind]
  simp only [Reply.incoming, Reply.bytes, Reply.expressionBytes, Reply.bodyBytes, Reply.putBytes, List.length_append,
    List.length_singleton, ← Nat.add_assoc]

theorem decodeResponse_final (final : ResponseFinal) (rest : Bytes) (addressable : Addressable (final.bytes ++ rest)) :
    decodeResponse (final.bytes ++ rest) = .ok (some (.final final.requestId.toUInt32, final.bytes.length)) := by
  have part : PartAt (final.bytes ++ rest) 0 final.bytes := ⟨rest, rfl⟩
  generalize final.bytes ++ rest = buf at addressable part
  obtain ⟨inside, first, -⟩ := header_of_part addressable part
  obtain ⟨-, part⟩ := PartAt.append_iff.mp part
  obtain ⟨requestId, extensions⟩ := PartAt.append_iff.mp part
  simp only [List.length_singleton, Nat.zero_add] at requestId extensions
  have nonempty : ¬(buf.isEmpty = true) := by
    rw [List.isEmpty_iff_length_eq_zero]
    omega
  rw [decodeResponse, decodeResponseHead, if_neg nonempty, first, Outcome.ok_bind, if_pos final.messageId_headerByte,
    readVbyte_of_part addressable requestId, Outcome.ok_bind]
  simp only [final.hasFlag_headerByte_z]
  rw [skipExtensionsIf_of_part addressable extensions, Outcome.ok_bind]
  simp only [ResponseFinal.bytes, List.length_append, List.length_singleton, Nat.add_assoc, Outcome.ok_bind]

theorem decodeResponse_other {first : UInt8} {rest : Bytes} (final : messageId first ≠ networkId.responseFinal)
    (response : messageId first ≠ networkId.response) : decodeResponse (first :: rest) = .ok none := by
  have read : (index (first :: rest) 0 : Decode UInt8) = .ok first := rfl
  rw [decodeResponse, decodeResponseHead, if_neg (by simp), read, Outcome.ok_bind, if_neg final, if_pos response]
  rfl

theorem decodePushPut_other {first : UInt8} {rest : Bytes} (other : messageId first ≠ networkId.push) :
    decodePushPut (first :: rest) = .ok none := by
  have read : (index (first :: rest) 0 : Decode UInt8) = .ok first := rfl
  rw [decodePushPut, decodePushPutHead, if_neg (by simp), read, Outcome.ok_bind, if_pos other]
  rfl

end Decode
end ZenohRos2
