import ZenohRos2.Transport.Codec

/-! Length-prefixed frames on the byte stream.

A pending `read_frame` has taken bytes off the stream that are nowhere else:
those of the length, and then those of the payload.
-/

set_option autoImplicit false

namespace ZenohRos2
open Rust

/-- A frame on the stream: its length in two bytes, little endian, and its payload. -/
def framed (payload : Bytes) : Bytes := LittleEndian.encode 2 payload.length ++ payload

/-- Whether a write succeeds is up to the transport. A frame that is too long
is refused before anything is written. -/
def writeFrame (payload : Bytes) (written : Bool) : Outcome TransportError Unit :=
  if payload.length > 65535 then .err .frameTooLarge
  else if written then .ok () else .err .io

theorem writeFrame_eq {payload : Bytes} (short : payload.length ≤ 65535) (written : Bool) :
    writeFrame payload written = if written then .ok () else .err .io := if_neg (by omega)

/-- A pending `read_frame`, with what it has taken for the read it waits in. -/
inductive Reading where
  | length (taken : Bytes)
  | payload (len : Nat) (taken : Bytes)
  deriving DecidableEq

inductive Polled where
  | pending (reading : Reading)
  | ready (result : Outcome TransportError Bytes)

namespace Reading

def start : Reading := .length []

/-- `read_frame` into a buffer of `cap` bytes, when the next byte arrives. -/
def poll (cap : Nat) : Reading → UInt8 → Polled
  | .length taken, byte =>
    let lenBytes := taken ++ [byte]
    if lenBytes.length < 2 then .pending (.length lenBytes)
    else
      let len := LittleEndian.value lenBytes
      if len = 0 then .ready (.ok [])
      -- The bytes of a frame that is too long stay on the stream.
      else if len > cap then .ready (.err .frameTooLarge)
      else .pending (.payload len [])
  | .payload len taken, byte =>
    let payload := taken ++ [byte]
    if payload.length < len then .pending (.payload len payload) else .ready (.ok payload)

/-- How many bytes are lost with the read. -/
def held : Reading → Nat
  | .length taken => taken.length
  | .payload _ taken => 2 + taken.length

def after (bytes : Bytes) : Reading :=
  if bytes.length < 2 then .length bytes else .payload (LittleEndian.value (bytes.take 2)) (bytes.drop 2)

theorem after_cons (low high : UInt8) (rest : Bytes) :
    after (low :: high :: rest) = .payload (LittleEndian.value [low, high]) rest := by simp [after]

theorem held_after (bytes : Bytes) : (after bytes).held = bytes.length := by
  unfold after
  split
  · rfl
  · simp only [held, List.length_drop]
    omega

end Reading

theorem framed_length (payload : Bytes) : (framed payload).length = payload.length + 2 := by
  rw [framed, List.length_append, LittleEndian.encode_length, Nat.add_comm]

theorem Reading.poll_held (cap : Nat) (reading : Reading) (byte : UInt8) :
    match reading.poll cap byte with
    | .pending next => next.held ≤ reading.held + 1
    | .ready (.ok frame) => (framed frame).length ≤ reading.held + 1
    | .ready _ => True := by
  cases reading with
  | length taken =>
    unfold poll
    simp only [List.length_append, List.length_singleton]
    by_cases short : taken.length + 1 < 2
    · simp [short, held]
    · rw [if_neg short]
      by_cases empty : LittleEndian.value (taken ++ [byte]) = 0
      · rw [if_pos empty]
        simp only [framed_length, held, List.length_nil]
        omega
      rw [if_neg empty]
      by_cases long : LittleEndian.value (taken ++ [byte]) > cap
      · rw [if_pos long]
        trivial
      · rw [if_neg long]
        simp only [held, List.length_nil]
        omega
  | payload len taken =>
    unfold poll
    simp only [List.length_append, List.length_singleton]
    by_cases more : taken.length + 1 < len
    · simp [more, held, Nat.add_assoc]
    · rw [if_neg more]
      simp only [framed_length, held, List.length_append, List.length_singleton]
      omega

theorem Reading.poll_framed {cap : Nat} {payload : Bytes} (fits : payload.length ≤ cap) (small : cap ≤ 65535)
    {n : Nat} (inside : n < (framed payload).length) :
    (after ((framed payload).take n)).poll cap (framed payload)[n] =
      if n + 1 < (framed payload).length then .pending (after ((framed payload).take (n + 1)))
      else .ready (.ok payload) := by
  obtain ⟨low, high, bytes, value⟩ : ∃ low high, framed payload = low :: high :: payload ∧
      LittleEndian.value [low, high] = payload.length :=
    ⟨_, _, rfl, LittleEndian.value_encode_of_lt (show payload.length < 256 ^ 2 by omega)⟩
  rw [framed_length] at inside
  simp only [bytes]
  -- Byte 0 and byte 1 belong to the length, the others to the payload.
  match n with
  | 0 => simp [after, poll]
  | 1 =>
    change (Reading.length [low]).poll cap high =
      if 2 < payload.length + 2 then .pending (after [low, high]) else .ready (.ok payload)
    rw [poll, after_cons, List.singleton_append, if_neg (show ¬[low, high].length < 2 from Nat.lt_irrefl 2)]
    simp only [value]
    by_cases empty : payload.length = 0
    · rw [if_pos empty, if_neg (by omega), List.eq_nil_of_length_eq_zero empty]
    · rw [if_neg empty, if_neg (by omega), if_pos (by omega)]
  | n + 2 =>
    have here : n < payload.length := by omega
    have next : payload.take n ++ [payload[n]] = payload.take (n + 1) := List.take_append_getElem here
    change (after (low :: high :: payload.take n)).poll cap payload[n] =
      if n + 3 < payload.length + 2 then .pending (after (low :: high :: payload.take (n + 1))) else .ready (.ok payload)
    rw [after_cons, after_cons, value, poll, next, List.length_take]
    by_cases more : n + 1 < payload.length
    · rw [if_pos (by omega), if_pos (by omega)]
    · rw [if_neg (by omega), if_neg (by omega), List.take_of_length_le (by omega)]

namespace Reading

/-- A read in the middle of a link: what it has taken, and what is still to come, are whole frames. -/
structure Amid (cap : Nat) (reading : Reading) (link : Bytes) (frames : List Bytes) : Prop where
  fit : ∀ frame ∈ frames, frame.length ≤ cap
  whole : ∃ part, reading = after part ∧ part ++ link = frames.flatMap framed ∧
    ∀ frame ∈ frames.head?, part.length < (framed frame).length

namespace Amid
variable {cap : Nat} {reading : Reading} {link : Bytes} {frames : List Bytes}

theorem of_frames (fit : ∀ frame ∈ frames, frame.length ≤ cap) : Amid cap start (frames.flatMap framed) frames where
  fit := fit
  whole := ⟨[], rfl, rfl, fun frame _ => by rw [framed_length]; exact Nat.succ_pos _⟩

theorem nil : Amid cap start [] [] := ⟨by simp, [], rfl, rfl, by simp⟩

theorem write (amid : Amid cap reading link frames) {frame : Bytes} (fits : frame.length ≤ cap) :
    Amid cap reading (link ++ framed frame) (frames ++ [frame]) := by
  obtain ⟨part, same, whole, inside⟩ := amid.whole
  refine ⟨fun other member => ?_, part, same, ?_, fun first found => ?_⟩
  · rcases List.mem_append.mp member with before | new
    · exact amid.fit other before
    · rw [List.mem_singleton.mp new]
      exact fits
  · rw [← List.append_assoc, whole]
    simp
  · cases frames with
    | nil =>
      cases found
      obtain ⟨rfl, -⟩ := List.append_eq_nil_iff.mp whole
      rw [framed_length]
      exact Nat.succ_pos _
    | cons head rest => exact inside first found

theorem eq_start (amid : Amid cap reading link frames) (idle : reading.held = 0) : reading = start := by
  obtain ⟨part, rfl, -⟩ := amid.whole
  rw [held_after] at idle
  rw [List.length_eq_zero_iff.mp idle]
  rfl

theorem eq_nil (amid : Amid cap start [] frames) : frames = [] := by
  obtain ⟨part, same, whole, -⟩ := amid.whole
  have unread : part = [] := by
    have held := held_after part
    rw [← same] at held
    exact List.length_eq_zero_iff.mp held.symm
  rw [unread] at whole
  cases frames with
  | nil => rfl
  | cons frame rest =>
    have length := congrArg List.length whole
    rw [List.flatMap_cons, List.append_nil, List.length_append, framed_length, List.length_nil] at length
    omega

theorem poll {byte : UInt8} (small : cap ≤ 65535) (amid : Amid cap reading (byte :: link) frames) :
    (∃ next, reading.poll cap byte = .pending next ∧ Amid cap next link frames) ∨
      ∃ frame rest, frames = frame :: rest ∧ reading.poll cap byte = .ready (.ok frame) ∧ Amid cap start link rest := by
  obtain ⟨part, rfl, whole, inside⟩ := amid.whole
  cases frames with
  | nil => simp at whole
  | cons frame rest =>
    have fits := amid.fit frame List.mem_cons_self
    have short := inside frame rfl
    rw [List.flatMap_cons] at whole
    have taken : part = (framed frame).take part.length := by
      have cut := congrArg (List.take part.length) whole
      rwa [List.take_left, List.take_append_of_le_length (Nat.le_of_lt short)] at cut
    have next : (framed frame)[part.length] = byte := by
      have cut := congrArg (fun bytes => bytes[part.length]?) whole
      simp only [List.getElem?_append_right (Nat.le_refl _), Nat.sub_self, List.getElem?_cons_zero,
        List.getElem?_append_left short, List.getElem?_eq_getElem short] at cut
      exact (Option.some.inj cut).symm
    have behind : part ++ [byte] = (framed frame).take (part.length + 1) := by
      rw [← List.take_append_getElem short, ← taken, next]
    have polled := poll_framed fits small short
    rw [← taken, next] at polled
    have whole' : (part ++ [byte]) ++ link = framed frame ++ rest.flatMap framed := by
      rw [List.append_assoc]
      exact whole
    -- The byte is the last one of the frame, or not.
    by_cases more : part.length + 1 < (framed frame).length
    · rw [if_pos more] at polled
      refine .inl ⟨_, polled, amid.fit, part ++ [byte], by rw [behind], whole', fun other found => ?_⟩
      cases found
      rwa [List.length_append]
    · rw [if_neg more] at polled
      have last : part ++ [byte] = framed frame := by rw [behind, List.take_of_length_le (by omega)]
      rw [last] at whole'
      refine .inr ⟨frame, rest, rfl, polled, ?_⟩
      rw [List.append_cancel_left whole']
      exact of_frames fun other member => amid.fit other (List.mem_cons_of_mem _ member)

end Amid
end Reading
end ZenohRos2
