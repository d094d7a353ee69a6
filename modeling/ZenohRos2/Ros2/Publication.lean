import ZenohRos2.Ros2.Publisher
import ZenohRos2.Transport.Body

/-! Payloads as messages, and batches of them in a frame. -/

set_option autoImplicit false

namespace ZenohRos2
open Rust

def CdrPayload.message (ke : String) (gid : ZenohId) (payload : CdrPayload) : PushPut :=
  .publication ke payload.data payload.seqNum payload.timestampNs gid

def batchFrame (sn : UInt64) (ke : String) (gid : ZenohId) (flight : List CdrPayload) : Bytes :=
  frameOf ⟨sn, true, []⟩ (flight.map (CdrPayload.message ke gid))

theorem utf8_length (text : String) : (utf8 text).length = text.utf8ByteSize := by
  simp [utf8]

theorem batchFrame_nil (sn : UInt64) (ke : String) (gid : ZenohId) :
    batchFrame sn ke gid [] = frameHeaderBytes sn true := by
  simp [batchFrame, frameOf, FrameHead.bytes_plain]

theorem batchFrame_append (sn : UInt64) (ke : String) (gid : ZenohId) (flight : List CdrPayload)
    (payload : CdrPayload) :
    batchFrame sn ke gid (flight ++ [payload]) =
      batchFrame sn ke gid flight ++ publicationBytes ke payload.data payload.seqNum payload.timestampNs gid := by
  simp [batchFrame, frameOf, CdrPayload.message, PushPut.bytes_publication]

theorem lengthPrefixed_length_le (data : Bytes) (small : data.length < 128 ^ 2) :
    (lengthPrefixed data).length ≤ data.length + 2 := by
  have declared : (UInt64.ofNat data.length).toNat < 128 ^ (1 + 1) := by
    rw [UInt64.toNat_ofNat']
    omega
  have size := vbyte_length_le_of_lt declared
  simp only [lengthPrefixed, List.length_append]
  omega

/-- A message as it was published: the attachment holds its number and its time. -/
def Received.publication (received : Received) : Option CdrPayload :=
  received.attachment.map fun attachment =>
    ⟨received.payload, attachedInt attachment 0, attachedInt attachment 8⟩

def CdrPayload.received (ke : String) (gid : ZenohId) (payload : CdrPayload) : Received :=
  ⟨ke, some (attachment payload.seqNum payload.timestampNs gid), payload.data⟩

theorem CdrPayload.publication_received (ke : String) (gid : ZenohId) (payload : CdrPayload) :
    (payload.received ke gid).publication = some payload := by
  simp only [received, Received.publication, Option.map_some, attachedInt_seqNum, attachedInt_timestampNs]

section Batch
variable [Target]

theorem received_batchFrame {sn : UInt64} {ke : String} {gid : ZenohId} {flight : List CdrPayload}
    (addressable : Addressable (batchFrame sn ke gid flight)) :
    received (batchFrame sn ke gid flight) = flight.map (CdrPayload.received ke gid) := by
  unfold batchFrame at addressable ⊢
  rw [received_frameOf addressable, List.map_map]
  apply List.map_congr_left
  intro payload member
  refine received_publication (addressable.of_length_le ?_)
  -- A message is no longer than the frame that holds it.
  have sent : payload.message ke gid ∈ flight.map (CdrPayload.message ke gid) := List.mem_map_of_mem member
  apply Nat.le_trans (bytes_length_le_flatMap sent)
  rw [frameOf, List.length_append]
  exact Nat.le_add_left _ _

def publications (frame : Bytes) : List CdrPayload := (received frame).filterMap Received.publication

theorem publications_batchFrame {sn : UInt64} {ke : String} {gid : ZenohId} {flight : List CdrPayload}
    (addressable : Addressable (batchFrame sn ke gid flight)) :
    publications (batchFrame sn ke gid flight) = flight := by
  rw [publications, received_batchFrame addressable, List.filterMap_map]
  have same : Received.publication ∘ CdrPayload.received ke gid = some :=
    funext fun payload => payload.publication_received ke gid
  rw [same, List.filterMap_some]

def receivedOn (key : String) (frame : Bytes) : List Received :=
  (received frame).filter fun received => received.keyExpr = key

theorem receivedOn_batchFrame {key : String} {sn : UInt64} {ke : String} {gid : ZenohId} {flight : List CdrPayload}
    (addressable : Addressable (batchFrame sn ke gid flight)) :
    receivedOn key (batchFrame sn ke gid flight) =
      if ke = key then flight.map (CdrPayload.received key gid) else [] := by
  rw [receivedOn, received_batchFrame addressable]
  by_cases mine : ke = key
  · subst mine
    rw [if_pos rfl, List.filter_eq_self]
    intro item member
    obtain ⟨payload, -, rfl⟩ := List.mem_map.mp member
    exact decide_eq_true rfl
  · rw [if_neg mine, List.filter_eq_nil_iff]
    intro item member
    obtain ⟨payload, -, rfl⟩ := List.mem_map.mp member
    rw [CdrPayload.received, decide_eq_true_iff]
    exact mine

end Batch
end ZenohRos2
