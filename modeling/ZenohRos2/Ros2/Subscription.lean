import ZenohRos2.Cdr.RoundTrip

/-! The static subscriptions.

A payload waits in the channel as the bytes that were pushed, cut to the size
of a slot, and is deserialized when it is received.
-/

set_option autoImplicit false

namespace ZenohRos2
open Rust Cdr

structure Message where
  ty : Ty
  value : ty.Val

structure Subscriber where
  msgSize : Nat
  queue : Nat
  channel : List Bytes

namespace Subscriber

def new (msgSize queue : Nat) : Subscriber := ⟨msgSize, queue, []⟩

/-- Longer payloads are cut, and a payload that finds the channel full is dropped. -/
def push (subscriber : Subscriber) (payload : Bytes) : Subscriber :=
  if subscriber.channel.length < subscriber.queue then
    { subscriber with channel := subscriber.channel ++ [payload.take (min payload.length subscriber.msgSize)] }
  else subscriber

def tryRecv (subscriber : Subscriber) : Option (Bytes × Subscriber) :=
  match subscriber.channel with
  | [] => none
  | payload :: rest => some (payload, { subscriber with channel := rest })

def clear (subscriber : Subscriber) : Subscriber := { subscriber with channel := [] }

theorem mem_push {subscriber : Subscriber} {payload raw : Bytes} (member : raw ∈ (subscriber.push payload).channel) :
    raw ∈ subscriber.channel ∨ raw <+: payload := by
  unfold push at member
  split at member
  · rcases List.mem_append.mp member with before | new
    · exact .inl before
    · rw [List.mem_singleton.mp new]
      exact .inr (List.take_prefix _ _)
  · exact .inl member

theorem foldl_push_channel {subscriber : Subscriber} {payloads : List Bytes}
    (fit : ∀ payload ∈ payloads, payload.length ≤ subscriber.msgSize)
    (room : subscriber.channel.length + payloads.length ≤ subscriber.queue) :
    (payloads.foldl push subscriber).channel = subscriber.channel ++ payloads := by
  induction payloads generalizing subscriber with
  | nil => exact (List.append_nil _).symm
  | cons payload payloads ih =>
    rw [List.length_cons] at room
    have small := fit payload List.mem_cons_self
    have pushed : subscriber.push payload = { subscriber with channel := subscriber.channel ++ [payload] } := by
      rw [push, if_pos (by omega), Nat.min_eq_left small, List.take_length]
    have later := @ih { subscriber with channel := subscriber.channel ++ [payload] }
      (fun other member => fit other (List.mem_cons_of_mem _ member))
      (by simp only [List.length_append, List.length_singleton]; omega)
    rw [List.foldl_cons, pushed, later]
    simp

end Subscriber

namespace Subscription
variable [Target]

/-- `deserialize_with_header(&raw.payload).map(|(m, _)| m).map_err(Error::Cdr)` -/
def decoded (ty : Ty) (raw : Bytes) : Outcome Error Message := do
  let (value, _) ← (deserializeWithHeader ty raw).mapErr .cdr
  .ok ⟨ty, value⟩

def tryRecv (ty : Ty) (inner : Subscriber) : Option (Outcome Error Message × Subscriber) :=
  inner.tryRecv.map fun (raw, inner) => (decoded ty raw, inner)

end Subscription

def Message.encoded (message : Message) : Bytes := cdrLeHeader ++ message.ty.body message.value

theorem Subscription.decoded_encoded [Target] {message : Message} (within : message.ty.Within message.value)
    (addressable : Addressable message.encoded) : decoded message.ty message.encoded = .ok message := by
  have read := @deserializeWithHeader_append _ _ _ within [] (by rwa [List.append_nil])
  rw [List.append_nil] at read
  rw [decoded, Message.encoded, read]
  rfl

/-- The whole encoding of a message is received as that message, and every shorter piece of it as an error. -/
theorem Subscription.decoded_of_prefix [Target] {message : Message} {raw : Bytes}
    (within : message.ty.Within message.value) (addressable : Addressable message.encoded)
    (piece : raw <+: message.encoded) :
    decoded message.ty raw = .ok message ∨ ∃ error, decoded message.ty raw = .err (.cdr error) := by
  obtain ⟨missing, whole⟩ := piece
  unfold decoded
  by_cases complete : missing = []
  · subst complete
    rw [List.append_nil] at whole
    subst whole
    have read := @deserializeWithHeader_append _ _ _ within [] (by rwa [List.append_nil])
    rw [List.append_nil] at read
    left
    rw [Message.encoded, read]
    rfl
  · obtain ⟨error, failed⟩ := deserializeWithHeader_truncated within whole.symm complete addressable
    right
    rw [failed]
    exact ⟨error, rfl⟩

end ZenohRos2
