import ZenohRos2.Ros2.KeyExpr

/-! The static publishers.

A publisher outlives the nodes it is registered with: messages wait in its
channel, and one message whose frame could not be written waits in its retry
slot. A call of `send` first stamps its message with the next sequence number
and then waits for room in the channel; with several tasks, stamped messages
may enter in any order.
-/

set_option autoImplicit false

namespace ZenohRos2

def cdrDrainBuf : Nat := 512

def retryCdrCap : Nat := 512

theorem toInt_add_one {number : Int64} (small : number ≠ Int64.maxValue) : (number + 1).toInt = number.toInt + 1 := by
  have bound := number.toInt_lt
  have above := number.le_toInt
  have different : number.toInt ≠ 2 ^ 63 - 1 := fun same => small (Int64.toInt_inj.mp same)
  have one : (1 : Int64).toInt = 1 := rfl
  rw [Int64.toInt_add, one, Int.bmod_eq_of_le (by omega) (by omega)]

structure CdrPayload where
  data : Bytes
  seqNum : Int64
  timestampNs : Int64
  deriving DecidableEq

/-- A payload in the retry slot, whose buffer is shorter than a channel's may be. -/
structure RetryPayload where
  payload : CdrPayload
  fits : payload.data.length ≤ retryCdrCap
  deriving DecidableEq

structure Publisher where
  topic : TopicKeyExpr
  locality : Locality
  cdrCap : Nat
  queue : Nat
  channel : List CdrPayload
  retrySlot : Option RetryPayload
  seqNum : Int64
  /-- Messages of `send` calls that wait for room in the channel. -/
  stamped : List CdrPayload

namespace Publisher

def fresh (topic : TopicKeyExpr) (locality : Locality) (cdrCap queue : Nat) : Publisher :=
  ⟨topic, locality, cdrCap, queue, [], none, 0, []⟩

/-- `send` up to the await on the channel: `data` is the serialized message. A
message longer than the capacity fails to serialize before it is stamped. -/
def stamp (publisher : Publisher) (data : Bytes) (timestampNs : Int64) : Option Publisher :=
  if data.length ≤ publisher.cdrCap then
    some { publisher with
      seqNum := publisher.seqNum + 1
      stamped := publisher.stamped ++ [⟨data, publisher.seqNum, timestampNs⟩] }
  else none

/-- A waiting `send` completes once the channel has room. -/
def enqueue (publisher : Publisher) (waiting : Nat) : Option (CdrPayload × Publisher) :=
  if publisher.channel.length < publisher.queue then
    (publisher.stamped[waiting]?).map fun payload =>
      (payload, { publisher with
        channel := publisher.channel ++ [payload]
        stamped := publisher.stamped.eraseIdx waiting })
  else none

theorem stamp_eq_some {publisher after : Publisher} {data : Bytes} {timestampNs : Int64}
    (stamped : publisher.stamp data timestampNs = some after) :
    after = { publisher with
      seqNum := publisher.seqNum + 1
      stamped := publisher.stamped ++ [⟨data, publisher.seqNum, timestampNs⟩] } := by
  unfold stamp at stamped
  split at stamped
  · exact (Option.some.inj stamped).symm
  · cases stamped

theorem enqueue_eq_some {publisher after : Publisher} {waiting : Nat} {payload : CdrPayload}
    (entered : publisher.enqueue waiting = some (payload, after)) :
    publisher.stamped[waiting]? = some payload ∧
      after = { publisher with
        channel := publisher.channel ++ [payload]
        stamped := publisher.stamped.eraseIdx waiting } := by
  unfold enqueue at entered
  split at entered
  · obtain ⟨found, inside, same⟩ := Option.map_eq_some_iff.mp entered
    cases same
    exact ⟨inside, rfl⟩
  · cases entered

/-- `out_buf[..n].copy_from_slice(&data[..n])` with `n` the shorter of both lengths. -/
def copyInto (outBuf data : Bytes) : Bytes :=
  data.take (min data.length outBuf.length) ++ outBuf.drop (min data.length outBuf.length)

/-- Bytes written, sequence number and timestamp of what was drained. -/
structure Drained where
  n : Nat
  seqNum : Int64
  timestampNs : Int64
  deriving DecidableEq

/-- The retry slot is drained before the channel. -/
def tryDrainInto (publisher : Publisher) (outBuf : Bytes) : Option Drained × Bytes × Publisher :=
  match publisher.retrySlot with
  | some retry =>
    (some ⟨min retry.payload.data.length outBuf.length, retry.payload.seqNum, retry.payload.timestampNs⟩,
      copyInto outBuf retry.payload.data, { publisher with retrySlot := none })
  | none =>
    match publisher.channel with
    | [] => (none, outBuf, publisher)
    | payload :: rest =>
      (some ⟨min payload.data.length outBuf.length, payload.seqNum, payload.timestampNs⟩,
        copyInto outBuf payload.data, { publisher with channel := rest })

/-- A payload that is still in the slot is overwritten. -/
def stashRetry (publisher : Publisher) (data : Bytes) (seqNum timestampNs : Int64) : Publisher :=
  { publisher with
    retrySlot := some ⟨⟨data.take retryCdrCap, seqNum, timestampNs⟩, by
      rw [List.length_take]; exact Nat.min_le_left _ _⟩ }

end Publisher

/-- What the drain sees of a payload: its scratch buffer cuts longer ones. -/
def CdrPayload.clip (payload : CdrPayload) : CdrPayload :=
  { payload with data := payload.data.take cdrDrainBuf }

namespace Publisher

/-- The messages that `try_drain_into` still gives, in order. -/
def pending (publisher : Publisher) : List CdrPayload :=
  (publisher.retrySlot.map RetryPayload.payload).toList ++ publisher.channel.map CdrPayload.clip

theorem copyInto_length (outBuf data : Bytes) : (copyInto outBuf data).length = outBuf.length := by
  simp only [copyInto, List.length_append, List.length_take, List.length_drop]
  omega

theorem take_copyInto (outBuf data : Bytes) :
    (copyInto outBuf data).take (min data.length outBuf.length) = data.take outBuf.length := by
  have length : (data.take (min data.length outBuf.length)).length = min data.length outBuf.length := by
    simp
  rw [copyInto, List.take_left' length]
  by_cases shorter : data.length ≤ outBuf.length
  · rw [Nat.min_eq_left shorter, List.take_length, List.take_of_length_le shorter]
  · rw [Nat.min_eq_right (by omega)]

theorem copyInto_take (outBuf data : Bytes) : copyInto outBuf (data.take outBuf.length) = copyInto outBuf data := by
  simp only [copyInto, List.length_take, List.take_take]
  rw [show min (min (min outBuf.length data.length) outBuf.length) outBuf.length =
    min data.length outBuf.length by omega,
    show min (min outBuf.length data.length) outBuf.length = min data.length outBuf.length by omega]

def taken (publisher : Publisher) : Publisher :=
  match publisher.retrySlot with
  | some _ => { publisher with retrySlot := none }
  | none => { publisher with channel := publisher.channel.tail }

@[simp] theorem taken_topic (publisher : Publisher) : publisher.taken.topic = publisher.topic := by
  unfold taken; split <;> rfl

@[simp] theorem taken_locality (publisher : Publisher) : publisher.taken.locality = publisher.locality := by
  unfold taken; split <;> rfl

@[simp] theorem taken_seqNum (publisher : Publisher) : publisher.taken.seqNum = publisher.seqNum := by
  unfold taken; split <;> rfl

@[simp] theorem taken_stamped (publisher : Publisher) : publisher.taken.stamped = publisher.stamped := by
  unfold taken; split <;> rfl

@[simp] theorem taken_retrySlot (publisher : Publisher) : publisher.taken.retrySlot = none := by
  unfold taken
  split
  · rfl
  · assumption

theorem taken_pending (publisher : Publisher) : publisher.taken.pending = publisher.pending.tail := by
  unfold taken pending
  cases slot : publisher.retrySlot with
  | some retry => simp
  | none => simp

theorem tryDrainInto_eq (publisher : Publisher) {outBuf : Bytes} (length : outBuf.length = cdrDrainBuf) :
    publisher.tryDrainInto outBuf = match publisher.pending with
      | [] => (none, outBuf, publisher)
      | payload :: _ => (some ⟨payload.data.length, payload.seqNum, payload.timestampNs⟩,
          copyInto outBuf payload.data, publisher.taken) := by
  unfold tryDrainInto pending taken
  cases slot : publisher.retrySlot with
  | some retry =>
    have fits : retry.payload.data.length ≤ cdrDrainBuf := retry.fits
    simp [length, Nat.min_eq_left fits]
  | none =>
    cases channel : publisher.channel with
    | nil => simp
    | cons payload rest =>
      simp only [Option.map_none, Option.toList_none, List.nil_append, List.map_cons, CdrPayload.clip]
      rw [← length, copyInto_take, List.length_take, Nat.min_comm]
      rfl

theorem pending_data_length_le {publisher : Publisher} {payload : CdrPayload}
    (member : payload ∈ publisher.pending) : payload.data.length ≤ cdrDrainBuf := by
  simp only [pending, List.mem_append, Option.mem_toList, Option.map_eq_some_iff,
    List.mem_map] at member
  rcases member with ⟨retry, -, rfl⟩ | ⟨source, -, rfl⟩
  · exact retry.fits
  · simp only [CdrPayload.clip, List.length_take]
    exact Nat.min_le_left _ _

end Publisher
end ZenohRos2
