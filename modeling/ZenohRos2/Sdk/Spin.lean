import ZenohRos2.Lib.Feed
import ZenohRos2.Sdk.Dispatch
import ZenohRos2.Sdk.Starvation

/-! The receiving side of `spin` and `spin_with_callbacks`.

Both loops drain the publishers and wait for a frame with a timeout. When the
timeout fires, the pending read is dropped with what it has taken off the stream,
and the next turn of the loop starts a new one. Writes succeed here, so a loop
returns when its dispatch function fails, when a frame is too long for the buffer,
or at a publisher without a key expression: that fails every drain.
-/

set_option autoImplicit false

namespace ZenohRos2
open Rust

/-- The loop between two polls of its wait. -/
structure Spin where
  /-- The pending read, while the loop runs. -/
  reading : Option Reading
  fragAsm : FragmentAssembler
  deriving DecidableEq

/-- What a drain returns, whatever is queued. -/
def drained (statics : PubRef → Publisher) (node : Node) : Outcome Error Unit :=
  if Drains statics node then .ok () else .err .invalidArgument

/-- This is what a call of the drain machine returns if its writes succeed. -/
theorem drain_returns [Target] (statics : PubRef → Publisher) (node : Node) {queued : PubRef → Publisher}
    (same : ∀ ref, (statics ref).Queued (queued ref)) :
    ∃ after, Reaches Sdk.drainBody (called ⟨queued, node, []⟩) ⟨after, .idle (some (drained statics node))⟩ := by
  have named (ref : PubRef) : (queued ref).Named ↔ (statics ref).Named := (same ref).named_iff
  unfold drained
  by_cases drains : Drains statics node
  · rw [if_pos drains]
    obtain ⟨after, returned, -⟩ := (drainsAll_iff_named queued node).mpr fun ref member =>
      (named ref).mpr (drains ref member)
    exact ⟨after, returned⟩
  · rw [if_neg drains]
    obtain ⟨ref, found⟩ : ∃ ref, node.publishers.find? (fun ref => decide ¬(queued ref).Named) = some ref := by
      rw [← Option.isSome_iff_exists, List.find?_isSome]
      unfold Drains at drains
      push Not at drains
      obtain ⟨ref, member, unnamed⟩ := drains
      exact ⟨ref, member, decide_eq_true fun other => unnamed ((named ref).mp other)⟩
    obtain ⟨unnamed, front, rest, table, earlier⟩ := List.find?_eq_some_iff_append.mp found
    obtain ⟨after, failed, -⟩ := drain_stops table (fun other member => by simpa using earlier other member)
      (of_decide_eq_true unnamed)
    exact ⟨after, failed⟩

namespace Spin

/-- The head of a turn: the drain, and then a new read. -/
def head (drained : Outcome Error Unit) (fragAsm : FragmentAssembler) : Spin :=
  match drained with
  | .ok () => ⟨some .start, fragAsm⟩
  | _ => ⟨none, fragAsm⟩

def start (statics : PubRef → Publisher) (node : Node) : Spin := head (drained statics node) .new

abbrev Dispatch := Bytes → FragmentAssembler → Outcome Error (Handled × FragmentAssembler)

/-- The assembler after a frame, if the dispatch function does not end the loop. -/
def accept (dispatch : Dispatch) (fragAsm : FragmentAssembler) (frame : Bytes) : Option FragmentAssembler :=
  match dispatch frame fragAsm with
  | .ok (_, fragAsm) => some fragAsm
  | _ => none

/-- `Ok(Ok(n))`: the frame is handed to the dispatch function. -/
def hand (drained : Outcome Error Unit) (dispatch : Dispatch) (fragAsm : FragmentAssembler) (frame : Bytes) : Spin :=
  match accept dispatch fragAsm frame with
  | some fragAsm => head drained fragAsm
  | none => ⟨none, fragAsm⟩

/-- A loop takes the bytes of the stream and gives the frames that it hands over. After
a timeout it drains, sends a KeepAlive, and drains again. -/
def consumer (drained : Outcome Error Unit) (dispatch : Dispatch) : Feed.Consumer Spin UInt8 Bytes where
  feed spin byte :=
    match spin.reading with
    | none => (spin, [])
    | some reading =>
      match reading.poll rxBufSize byte with
      | .pending reading => ({ spin with reading := some reading }, [])
      | .ready (.ok frame) => (hand drained dispatch spin.fragAsm frame, [frame])
      | .ready _ => ({ spin with reading := none }, [])
  drop spin :=
    match spin.reading with
    | none => spin
    | some _ => head drained spin.fragAsm

end Spin

section Loops
variable [Target]

variable (statics : PubRef → Publisher) (node : Node)

def spinReader : Feed.Consumer Spin UInt8 Bytes := Spin.consumer (drained statics node) (dispatchFrame node)

def spinWithCallbacksReader : Feed.Consumer Spin UInt8 Bytes :=
  Spin.consumer (drained statics node) (dispatchFrameWithCallbacks node)

end Loops

namespace Spin
variable {dispatch : Dispatch} {fragAsm : FragmentAssembler}

@[simp] theorem head_ok (fragAsm : FragmentAssembler) : head (.ok ()) fragAsm = ⟨some .start, fragAsm⟩ := rfl

theorem feed_pending {reading next : Reading} {byte : UInt8} (polled : reading.poll rxBufSize byte = .pending next) :
    (consumer (.ok ()) dispatch).feed ⟨some reading, fragAsm⟩ byte = (⟨some next, fragAsm⟩, []) := by
  simp only [consumer, polled]

theorem feed_ready {reading : Reading} {byte : UInt8} {frame : Bytes}
    (polled : reading.poll rxBufSize byte = .ready (.ok frame)) :
    (consumer (.ok ()) dispatch).feed ⟨some reading, fragAsm⟩ byte = (hand (.ok ()) dispatch fragAsm frame, [frame]) := by
  simp only [consumer, polled]

theorem feedAll_returned (drained : Outcome Error Unit) (data : Bytes) :
    (consumer drained dispatch).feedAll ⟨none, fragAsm⟩ data = (⟨none, fragAsm⟩, []) := by
  induction data with
  | nil => rfl
  | cons byte data ih => rw [Feed.Consumer.feedAll_cons, show (consumer drained dispatch).feed ⟨none, fragAsm⟩ byte =
      (⟨none, fragAsm⟩, []) from rfl, ih, List.nil_append]

theorem run_returned (drained : Outcome Error Unit) (events : List (Feed.Event UInt8)) :
    (consumer drained dispatch).run ⟨none, fragAsm⟩ events = (⟨none, fragAsm⟩, []) := by
  induction events with
  | nil => rfl
  | cons event events ih =>
    cases event with
    | chunk data => rw [Feed.Consumer.run_chunk, feedAll_returned, ih, List.nil_append]
    | drop => exact ih

theorem feedAll_front {payload : Bytes} (fits : payload.length ≤ rxBufSize) {n : Nat}
    (inside : n < (framed payload).length) :
    (consumer (.ok ()) dispatch).feedAll ⟨some .start, fragAsm⟩ ((framed payload).take n) =
      (⟨some (.after ((framed payload).take n)), fragAsm⟩, []) := by
  induction n with
  | zero => rfl
  | succ n ih =>
    have before : n < (framed payload).length := Nat.lt_of_succ_lt inside
    have polled := Reading.poll_framed fits (by decide) before
    rw [if_pos inside] at polled
    rw [← List.take_append_getElem before, Feed.Consumer.feedAll_append, ih before,
      Feed.Consumer.feedAll_cons, feed_pending polled, List.take_append_getElem before]
    rfl

theorem feedAll_framed {payload : Bytes} (fits : payload.length ≤ rxBufSize) :
    (consumer (.ok ()) dispatch).feedAll ⟨some .start, fragAsm⟩ (framed payload) =
      (hand (.ok ()) dispatch fragAsm payload, [payload]) := by
  have length := framed_length payload
  have before : payload.length + 1 < (framed payload).length := by omega
  have polled := Reading.poll_framed fits (by decide) before
  rw [if_neg (by omega)] at polled
  have whole : (framed payload).take (payload.length + 1) ++ [(framed payload)[payload.length + 1]] =
      framed payload := by
    rw [List.take_append_getElem before, List.take_of_length_le (by omega)]
  calc (consumer (.ok ()) dispatch).feedAll ⟨some .start, fragAsm⟩ (framed payload)
    _ = (consumer (.ok ()) dispatch).feedAll ⟨some .start, fragAsm⟩
          ((framed payload).take (payload.length + 1) ++ [(framed payload)[payload.length + 1]]) := by rw [whole]
    _ = _ := by
      rw [Feed.Consumer.feedAll_append, feedAll_front fits before, Feed.Consumer.feedAll_cons, feed_ready polled]
      rfl

/-- The loop after some frames, and those that it hands over: none after one that is not accepted. -/
def handOver (dispatch : Dispatch) (fragAsm : FragmentAssembler) : List Bytes → Spin × List Bytes
  | [] => (⟨some .start, fragAsm⟩, [])
  | frame :: rest =>
    match accept dispatch fragAsm frame with
    | some fragAsm => ((handOver dispatch fragAsm rest).1, frame :: (handOver dispatch fragAsm rest).2)
    | none => (⟨none, fragAsm⟩, [frame])

/-- The assembler after some frames, if the dispatch function accepts all of them. -/
def acceptAll (dispatch : Dispatch) : FragmentAssembler → List Bytes → Option FragmentAssembler :=
  List.foldlM (accept dispatch)

theorem feedAll_frames {frames : List Bytes} (fit : ∀ frame ∈ frames, frame.length ≤ rxBufSize) :
    (consumer (.ok ()) dispatch).feedAll ⟨some .start, fragAsm⟩ (frames.flatMap framed) = handOver dispatch fragAsm frames := by
  induction frames generalizing fragAsm with
  | nil => rfl
  | cons frame rest ih =>
    rw [List.flatMap_cons, Feed.Consumer.feedAll_append, feedAll_framed (fit frame (List.mem_cons_self ..)), hand,
      handOver]
    cases accepted : accept dispatch fragAsm frame with
    | some next =>
      simp only [head_ok]
      rw [ih fun other member => fit other (List.mem_cons_of_mem _ member)]
      rfl
    | none =>
      simp only
      rw [feedAll_returned, List.append_nil]

theorem handOver_frames_iff (frames : List Bytes) :
    (handOver dispatch fragAsm frames).2 = frames ↔ (acceptAll dispatch fragAsm frames.dropLast).isSome := by
  induction frames generalizing fragAsm with
  | nil => exact ⟨fun _ => rfl, fun _ => rfl⟩
  | cons frame rest ih =>
    rw [handOver]
    cases accepted : accept dispatch fragAsm frame with
    | some next =>
      -- The frame at the end need not be accepted: nothing comes after it.
      simp only [List.cons.injEq, true_and, ih]
      cases rest with
      | nil => exact ⟨fun _ => rfl, fun _ => rfl⟩
      | cons other rest => simp [acceptAll, accepted]
    | none =>
      cases rest with
      | nil => exact ⟨fun _ => rfl, fun _ => rfl⟩
      | cons other rest => simp [acceptAll, accepted]

theorem handOver_length_le (dispatch : Dispatch) (fragAsm : FragmentAssembler) (frames : List Bytes) :
    (handOver dispatch fragAsm frames).2.length ≤ frames.length := by
  induction frames generalizing fragAsm with
  | nil => exact Nat.le_refl _
  | cons frame rest ih =>
    rw [handOver]
    cases accept dispatch fragAsm frame with
    | some next => exact Nat.succ_le_succ (ih next)
    | none => simp

theorem handOver_reading (dispatch : Dispatch) (fragAsm : FragmentAssembler) (frames : List Bytes) :
    (∃ asm, (handOver dispatch fragAsm frames).1 = ⟨none, asm⟩) ∨
      ∃ asm, (handOver dispatch fragAsm frames).1 = ⟨some .start, asm⟩ := by
  induction frames generalizing fragAsm with
  | nil => exact .inr ⟨fragAsm, rfl⟩
  | cons frame rest ih =>
    rw [handOver]
    cases accept dispatch fragAsm frame with
    | some next => exact ih next
    | none => exact .inl ⟨fragAsm, rfl⟩

def held (spin : Spin) : Nat :=
  match spin.reading with
  | none => 0
  | some reading => reading.held

def measure (dispatch : Dispatch) : (consumer (.ok ()) dispatch).Measure where
  held := held
  cost frame := (framed frame).length
  feed_le spin byte := by
    obtain ⟨_ | reading, fragAsm⟩ := spin
    · exact Nat.zero_le _
    · have polled := reading.poll_held rxBufSize byte
      cases outcome : reading.poll rxBufSize byte with
      | pending next =>
        rw [outcome] at polled
        simpa [consumer, outcome, held] using polled
      | ready result =>
        rw [outcome] at polled
        cases result with
        | ok frame =>
          simp only [consumer, outcome, hand]
          cases accept dispatch fragAsm frame <;> simpa [held, Reading.held, Reading.start] using polled
        | err error => simp [consumer, outcome, held]
        | panic fault => simp [consumer, outcome, held]
  drop_le spin := by
    obtain ⟨_ | reading, fragAsm⟩ := spin <;> exact Nat.zero_le _

end Spin

theorem framed_prefix {frames : List Bytes} {front : Bytes} (within : front <+: frames.flatMap framed) :
    (∃ k, front = (frames.take k).flatMap framed) ∨
      ∃ k payload n, frames[k]? = some payload ∧ 0 < n ∧ n < (framed payload).length ∧
        front = (frames.take k).flatMap framed ++ (framed payload).take n := by
  induction frames generalizing front with
  | nil => exact .inl ⟨0, List.prefix_nil.mp within⟩
  | cons frame rest ih =>
    obtain ⟨tail, whole⟩ := within
    rw [List.flatMap_cons] at whole
    by_cases inside : front.length < (framed frame).length
    · have start : front = (framed frame).take front.length := by
        have taken := congrArg (List.take front.length) whole
        rwa [List.take_left, List.take_append_of_le_length (Nat.le_of_lt inside)] at taken
      by_cases empty : front = []
      · exact .inl ⟨0, empty⟩
      · exact .inr ⟨0, frame, front.length, rfl, List.length_pos_iff.mpr empty, inside, start⟩
    · -- The whole first frame is in front: the rest is a front of the other frames.
      have split : front = framed frame ++ front.drop (framed frame).length := by
        have taken := congrArg (List.take (framed frame).length) whole
        rw [List.take_left, List.take_append_of_le_length (Nat.le_of_not_lt inside)] at taken
        rw [← taken, List.length_take, Nat.min_eq_left (Nat.le_of_not_lt inside), List.take_append_drop]
      rw [split, List.append_assoc, List.append_cancel_left_eq] at whole
      rcases ih ⟨tail, whole⟩ with ⟨k, rest⟩ | ⟨k, payload, n, found, positive, short, rest⟩
      · refine .inl ⟨k + 1, ?_⟩
        rw [split, rest]
        rfl
      · refine .inr ⟨k + 1, payload, n, found, positive, short, ?_⟩
        rw [split, rest, ← List.append_assoc]
        rfl

namespace Spin

def first : Spin := ⟨some .start, .new⟩

variable {dispatch : Dispatch} {frames : List Bytes} {events : List (Feed.Event UInt8)}

theorem drop_between (fit : ∀ frame ∈ frames, frame.length ≤ rxBufSize) (k : Nat) :
    (consumer (.ok ()) dispatch).drop ((consumer (.ok ()) dispatch).feedAll first ((frames.take k).flatMap framed)).1 =
      ((consumer (.ok ()) dispatch).feedAll first ((frames.take k).flatMap framed)).1 := by
  rw [first, feedAll_frames fun frame member => fit frame (List.mem_of_mem_take member)]
  rcases handOver_reading dispatch .new (frames.take k) with ⟨asm, returned⟩ | ⟨asm, waiting⟩
  · rw [returned]
    rfl
  · rw [waiting]
    rfl

theorem timeouts_between (fit : ∀ frame ∈ frames, frame.length ≤ rxBufSize)
    (stream : Feed.stream events = frames.flatMap framed)
    (handed : ((consumer (.ok ()) dispatch).run first events).2 = frames) {before after : List (Feed.Event UInt8)}
    (split : events = before ++ .drop :: after) : ∃ k, Feed.stream before = (frames.take k).flatMap framed := by
  -- By induction on how early the timeout is: nothing was lost at the ones before it.
  induction size : before.length using Nat.strongRecOn generalizing before after with
  | ind length ih =>
    have whole : (consumer (.ok ()) dispatch).run first before =
        (consumer (.ok ()) dispatch).feedAll first (Feed.stream before) := by
      apply Feed.Consumer.run_eq_feedAll
      intro earlier later cut
      have shorter : earlier.length < length := by
        rw [← size, cut, List.length_append, List.length_cons]
        omega
      obtain ⟨k, between⟩ := ih earlier.length shorter (by rw [split, cut, List.append_assoc, List.cons_append]) rfl
      rw [between]
      exact drop_between fit k
    have within : Feed.stream before <+: frames.flatMap framed := by
      rw [← stream, split, Feed.stream, Feed.stream, List.flatMap_append]
      exact List.prefix_append _ _
    rcases framed_prefix within with between | ⟨k, payload, n, found, positive, short, inside⟩
    · exact between
    exfalso
    have shorter : k < frames.length := (List.getElem?_eq_some_iff.mp found).1
    rw [inside, Feed.Consumer.feedAll_append, first,
      feedAll_frames fun frame member => fit frame (List.mem_of_mem_take member)] at whole
    rcases handOver_reading dispatch .new (frames.take k) with ⟨asm, returned⟩ | ⟨asm, waiting⟩
    · -- The loop has returned, so the frame at hand is never handed over.
      rw [returned, feedAll_returned, List.append_nil] at whole
      have given : ((consumer (.ok ()) dispatch).run first events).2 = (handOver dispatch .new (frames.take k)).2 := by
        rw [split, Feed.Consumer.run_append, first, whole, run_returned, List.append_nil]
      have count := handOver_length_le dispatch .new (frames.take k)
      rw [← given, handed, List.length_take] at count
      omega
    · -- The bytes of the frame at hand are lost, and with them the frame.
      have fits := fit payload (List.mem_of_getElem? found)
      rw [waiting, feedAll_front fits short] at whole
      let before := (consumer (.ok ()) dispatch).run first before
      have dropped : (measure dispatch).held ((consumer (.ok ()) dispatch).drop before.1) <
          (measure dispatch).held before.1 := by
        unfold before
        rw [first, whole]
        simp only [measure, held, consumer, head_ok, Reading.held_after, List.length_take]
        simp only [Reading.held, Reading.start, List.length_nil]
        omega
      have lost := (measure dispatch).run_lt_of_drop split dropped
      rw [handed, stream, List.length_flatMap] at lost
      simp [measure, held, first, Reading.held, Reading.start] at lost

theorem hands_all_iff (fit : ∀ frame ∈ frames, frame.length ≤ rxBufSize)
    (stream : Feed.stream events = frames.flatMap framed) :
    ((consumer (.ok ()) dispatch).run first events).2 = frames ↔
      (∀ before after, events = before ++ .drop :: after → ∃ k, Feed.stream before = (frames.take k).flatMap framed) ∧
        (acceptAll dispatch .new frames.dropLast).isSome := by
  have settled (between : ∀ before after, events = before ++ .drop :: after →
      ∃ k, Feed.stream before = (frames.take k).flatMap framed) :
      ((consumer (.ok ()) dispatch).run first events).2 = (handOver dispatch .new frames).2 := by
    rw [Feed.Consumer.run_eq_feedAll, stream, first, feedAll_frames fit]
    intro before after split
    obtain ⟨k, boundary⟩ := between before after split
    rw [boundary]
    exact drop_between fit k
  constructor
  · intro handed
    have between (before after : List (Feed.Event UInt8)) (split : events = before ++ .drop :: after) :=
      timeouts_between fit stream handed split
    refine ⟨between, (handOver_frames_iff frames).mp ?_⟩
    rw [← settled between, handed]
  · rintro ⟨between, accepted⟩
    rw [settled between]
    exact (handOver_frames_iff frames).mpr accepted

end Spin

theorem start_of_drains {statics : PubRef → Publisher} {node : Node} (drains : Drains statics node) :
    drained statics node = .ok () ∧ Spin.start statics node = Spin.first := by
  have ok : drained statics node = .ok () := if_pos drains
  refine ⟨ok, ?_⟩
  rw [Spin.start, ok]
  rfl

theorem run_of_not_drains {statics : PubRef → Publisher} {node : Node} (unnamed : ¬Drains statics node)
    (dispatch : Spin.Dispatch) (events : List (Feed.Event UInt8)) :
    ((Spin.consumer (drained statics node) dispatch).run (.start statics node) events).2 = [] := by
  have failed : drained statics node = .err .invalidArgument := if_neg unnamed
  have returned : Spin.start statics node = ⟨none, .new⟩ := by
    rw [Spin.start, failed]
    rfl
  rw [returned, Spin.run_returned]

theorem hands_all_iff_drains (statics : PubRef → Publisher) (node : Node) (dispatch : Spin.Dispatch) {frames : List Bytes}
    (fit : ∀ frame ∈ frames, frame.length ≤ rxBufSize) {events : List (Feed.Event UInt8)}
    (stream : Feed.stream events = frames.flatMap framed) :
    ((Spin.consumer (drained statics node) dispatch).run (.start statics node) events).2 = frames ↔
      (frames = [] ∨ Drains statics node) ∧
        (∀ before after, events = before ++ .drop :: after → ∃ k, Feed.stream before = (frames.take k).flatMap framed) ∧
        (Spin.acceptAll dispatch .new frames.dropLast).isSome := by
  by_cases drains : Drains statics node
  · obtain ⟨ok, first⟩ := start_of_drains drains
    rw [ok, first, and_iff_right (.inr drains)]
    exact Spin.hands_all_iff fit stream
  · rw [run_of_not_drains drains, or_iff_left drains]
    constructor
    · rintro rfl
      refine ⟨rfl, fun before after split => ⟨0, ?_⟩, rfl⟩
      rw [split, Feed.stream, List.flatMap_append] at stream
      exact (List.append_eq_nil_iff.mp stream).1
    · exact fun all => all.1.symm

section Loops
variable [Target]

theorem spinReader_of_drains {statics : PubRef → Publisher} {node : Node} (drains : Drains statics node) :
    spinReader statics node = Spin.consumer (.ok ()) (dispatchFrame node) := by
  rw [spinReader, (start_of_drains drains).1]

/-- Exactly the frames of the stream are handed over if and only if the drains
succeed, every timeout fires between two of the frames, and none but the last ends
the loop. -/
theorem spin_hands_all_iff (statics : PubRef → Publisher) (node : Node) {frames : List Bytes}
    (fit : ∀ frame ∈ frames, frame.length ≤ rxBufSize) {events : List (Feed.Event UInt8)}
    (stream : Feed.stream events = frames.flatMap framed) :
    (((spinReader statics node).run (.start statics node) events).2 = frames ↔
      (frames = [] ∨ Drains statics node) ∧
        (∀ before after, events = before ++ .drop :: after → ∃ k, Feed.stream before = (frames.take k).flatMap framed) ∧
        (Spin.acceptAll (dispatchFrame node) .new frames.dropLast).isSome) ∧
    (((spinWithCallbacksReader statics node).run (.start statics node) events).2 = frames ↔
      (frames = [] ∨ Drains statics node) ∧
        (∀ before after, events = before ++ .drop :: after → ∃ k, Feed.stream before = (frames.take k).flatMap framed) ∧
        (Spin.acceptAll (dispatchFrameWithCallbacks node) .new frames.dropLast).isSome) :=
  ⟨hands_all_iff_drains statics node _ fit stream, hands_all_iff_drains statics node _ fit stream⟩

omit [Target] in
/-- Some KeepAlives and an empty frame; the publisher drains. -/
theorem spin_hands_all_iff_keepalives :
    let statics : PubRef → Publisher := fun _ => .fresh ⟨0, "chatter", "String", "hash"⟩ .any 64 4
    let node := { Node.built "listener" "" 0 (ZenohId.fromBytes [7]) 10000 10000 with publishers := [0] }
    let frames : List Bytes := [[4], [], [4]]
    let events : List (Feed.Event UInt8) := [.drop, .chunk [1], .chunk [0, 4], .drop, .chunk [0, 0, 1, 0, 4]]
    letI := target64
    ((spinReader statics node).run (.start statics node) events).2 = frames ∧
      ∀ before after, events = before ++ .drop :: after →
        ∃ k, Feed.stream before = (frames.take k).flatMap framed := by
  intro statics node frames events
  let := target64
  have handed : ((spinReader statics node).run (.start statics node) events).2 = frames := by decide +kernel
  exact ⟨handed, ((spin_hands_all_iff statics node (by decide)
    (show Feed.stream events = frames.flatMap framed by decide)).1.mp handed).2.1⟩

omit [Target] in
/-- A timeout between the two bytes of a length loses the frame, and so does a publisher
without a key expression. -/
theorem spin_loses_frame :
    let publisher (topicName : String) : PubRef → Publisher := fun _ => .fresh ⟨0, topicName, "String", "hash"⟩ .any 64 4
    let chatter := publisher "chatter"
    let nameless := publisher (String.ofList (List.replicate 257 'a'))
    let node := { Node.built "listener" "" 0 (ZenohId.fromBytes [7]) 10000 10000 with publishers := [0] }
    let frames : List Bytes := [[4]]
    let late : List (Feed.Event UInt8) := [.chunk [1], .drop, .chunk [0, 4]]
    let whole : List (Feed.Event UInt8) := [.chunk [1, 0, 4]]
    letI := target64
    Feed.stream late = frames.flatMap framed ∧
      ((spinReader chatter node).run (.start chatter node) late).2 ≠ frames ∧
      ((spinWithCallbacksReader chatter node).run (.start chatter node) late).2 ≠ frames ∧
      Feed.stream whole = frames.flatMap framed ∧
      ((spinReader nameless node).run (.start nameless node) whole).2 ≠ frames ∧
      ((spinWithCallbacksReader nameless node).run (.start nameless node) whole).2 ≠ frames := by
  decide +kernel

end Loops
end ZenohRos2
