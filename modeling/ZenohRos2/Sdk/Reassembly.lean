import ZenohRos2.Lib.Feed
import ZenohRos2.Sdk.Dispatch
import ZenohRos2.Transport.Fragment

/-! Reassembly of fragmented messages.

The assembler is followed through `FragmentAssembler`, which knows only the
bytes of the message in progress; the buffer with its stale contents refines
it. Messages within the capacity come out as they were cut. After a piece that
does not fit, the rest of its message counts as a message of its own.
-/

set_option autoImplicit false

namespace ZenohRos2
open Rust

/-- A piece of a message: whether more follow, and its bytes. -/
abbrev Piece := Bool × Bytes

/-- What `feed` returns, and `is_active` behind it. -/
abbrev Answer := Outcome TransportError (Option Bytes) × Bool

namespace FragmentAssembler

def consumer (cap : Nat) : Feed.Consumer FragmentAssembler Piece Answer where
  feed assembler piece :=
    let (result, assembler) := assembler.feed cap piece.1 piece.2
    (assembler, [(result, assembler.active)])
  drop _ := new

def held (assembler : FragmentAssembler) : Bytes := if assembler.active then assembler.buf else []

variable {cap : Nat} {assembler : FragmentAssembler}

theorem held_idle (idle : assembler.active = false) : assembler.held = [] := by simp [held, idle]

theorem feed_eq (more : Bool) (payload : Bytes) : assembler.feed cap more payload =
    if cap < assembler.held.length + payload.length then (.err .frameTooLarge, new)
    else if more then (.ok none, ⟨assembler.held ++ payload, true⟩)
    else (.ok (some (assembler.held ++ payload)), ⟨assembler.held ++ payload, false⟩) := rfl

theorem consumer_feed (piece : Piece) : (consumer cap).feed assembler piece =
    ((assembler.feed cap piece.1 piece.2).2,
      [((assembler.feed cap piece.1 piece.2).1, (assembler.feed cap piece.1 piece.2).2.active)]) := rfl

theorem feed_large (more : Bool) {payload : Bytes} (large : cap < assembler.held.length + payload.length) :
    (consumer cap).feed assembler (more, payload) = (new, [(.err .frameTooLarge, false)]) := by
  simp only [consumer, feed_eq, if_pos large]
  rfl

theorem feed_more {payload : Bytes} (fits : assembler.held.length + payload.length ≤ cap) :
    (consumer cap).feed assembler (true, payload) = (⟨assembler.held ++ payload, true⟩, [(.ok none, true)]) := by
  simp only [consumer, feed_eq, if_neg (Nat.not_lt.mpr fits), if_true]

theorem feed_last {payload : Bytes} (fits : assembler.held.length + payload.length ≤ cap) :
    (consumer cap).feed assembler (false, payload) =
      (⟨assembler.held ++ payload, false⟩, [(.ok (some (assembler.held ++ payload)), false)]) := by
  simp only [consumer, feed_eq, if_neg (Nat.not_lt.mpr fits), Bool.false_eq_true, if_false]

end FragmentAssembler

namespace Transport.FragmentAssembler
variable {cap : Nat}

def consumer (cap : Nat) : Feed.Consumer (FragmentAssembler cap) Piece Answer where
  feed assembler piece :=
    let (result, assembler) := assembler.feed piece.1 piece.2
    (assembler, [(result, assembler.isActive)])
  drop := reset

/-- The buffer without what is behind `len`. -/
def view (assembler : FragmentAssembler cap) : ZenohRos2.FragmentAssembler :=
  ⟨assembler.buf.take assembler.len, assembler.active⟩

theorem started_view (assembler : FragmentAssembler cap) :
    assembler.started.buf.take assembler.started.len = assembler.view.held ∧ assembler.started.active = true := by
  unfold started view ZenohRos2.FragmentAssembler.held
  by_cases active : assembler.active
  · simp [active]
  · simp [active]

theorem feed_view (assembler : FragmentAssembler cap) (piece : Piece) :
    (ZenohRos2.FragmentAssembler.consumer cap).feed assembler.view piece =
      (((consumer cap).feed assembler piece).1.view, ((consumer cap).feed assembler piece).2) := by
  obtain ⟨more, payload⟩ := piece
  obtain ⟨front, active⟩ := started_view assembler
  have length : assembler.view.held.length = assembler.started.len := by
    rw [← front, List.length_take, assembler.started.sized]
    exact Nat.min_eq_left assembler.started.inside
  have joined (room : assembler.started.len + payload.length ≤ cap) :
      (assembler.started.extended payload room).buf.take (assembler.started.extended payload room).len =
        assembler.view.held ++ payload := by
    rw [← front]
    have inside : assembler.started.len ≤ assembler.started.buf.length := by
      rw [assembler.started.sized]
      exact assembler.started.inside
    simp only [extended, List.append_assoc]
    rw [← List.append_assoc, List.take_left' (by simp [Nat.min_eq_left inside])]
  unfold consumer feed
  by_cases large : cap < assembler.started.len + payload.length
  · rw [ZenohRos2.FragmentAssembler.feed_large more (by rwa [length])]
    simp [dif_pos large, view, reset, isActive, ZenohRos2.FragmentAssembler.new]
  · have room := Nat.le_of_not_gt large
    cases more with
    | true =>
      rw [ZenohRos2.FragmentAssembler.feed_more (by rwa [length])]
      simp only [dif_neg large, if_true, view, joined room, isActive]
      simp [extended, active]
    | false =>
      rw [ZenohRos2.FragmentAssembler.feed_last (by rwa [length])]
      simp [dif_neg large, view, joined room, isActive]

theorem feedAll_view (assembler : FragmentAssembler cap) (pieces : List Piece) :
    (ZenohRos2.FragmentAssembler.consumer cap).feedAll assembler.view pieces =
      (((consumer cap).feedAll assembler pieces).1.view, ((consumer cap).feedAll assembler pieces).2) :=
  Feed.Consumer.feedAll_simulates _ feed_view assembler pieces

end Transport.FragmentAssembler

/-- The pieces of a message in order: more follow behind all but the last. -/
def marked : List Bytes → List Piece
  | [] => []
  | [last] => [(false, last)]
  | piece :: next :: rest => (true, piece) :: marked (next :: rest)

/-- The answers to a message that fits: nothing, and with its last piece all of it. -/
def answers (pieces : List Bytes) : List Answer :=
  List.replicate (pieces.length - 1) (.ok none, true) ++ [(.ok (some pieces.flatten), false)]

section Messages
variable {cap : Nat} {assembler : FragmentAssembler}

theorem feedAll_marked (assembler : FragmentAssembler) {pieces : List Bytes} (nonempty : pieces ≠ [])
    (fits : assembler.held.length + pieces.flatten.length ≤ cap) :
    (FragmentAssembler.consumer cap).feedAll assembler (marked pieces) =
      (⟨assembler.held ++ pieces.flatten, false⟩,
        List.replicate (pieces.length - 1) (.ok none, true) ++
          [(.ok (some (assembler.held ++ pieces.flatten)), false)]) := by
  induction pieces generalizing assembler with
  | nil => exact absurd rfl nonempty
  | cons piece rest ih =>
    rw [List.flatten_cons, List.length_append] at fits
    cases rest with
    | nil =>
      simp only [marked, Feed.Consumer.feedAll_cons, FragmentAssembler.feed_last (show _ ≤ cap by simpa using fits)]
      simp [Feed.Consumer.feedAll]
    | cons next rest =>
      have room : assembler.held.length + piece.length ≤ cap := by omega
      rw [marked, Feed.Consumer.feedAll_cons, FragmentAssembler.feed_more room]
      have step := ih ⟨assembler.held ++ piece, true⟩ (by simp) (by
        change (assembler.held ++ piece).length + _ ≤ cap
        rw [List.length_append]
        omega)
      simp only
      rw [step]
      simp [FragmentAssembler.held, List.replicate_succ]

theorem feedAll_messages (assembler : FragmentAssembler) {messages : List (List Bytes)} (idle : assembler.active = false)
    (cut : ∀ pieces ∈ messages, pieces ≠ [] ∧ pieces.flatten.length ≤ cap) :
    ((FragmentAssembler.consumer cap).feedAll assembler (messages.flatMap marked)).2 = messages.flatMap answers := by
  induction messages generalizing assembler with
  | nil => rfl
  | cons pieces messages ih =>
    obtain ⟨nonempty, fits⟩ := cut pieces List.mem_cons_self
    have whole := feedAll_marked assembler nonempty (by simpa [FragmentAssembler.held_idle idle] using fits)
    rw [List.flatMap_cons, Feed.Consumer.feedAll_append, whole]
    simp only
    rw [ih _ rfl fun other member => cut other (List.mem_cons_of_mem _ member), List.flatMap_cons, answers,
      FragmentAssembler.held_idle idle]
    rfl

/-- Messages within the capacity are put together again, however they were cut
and whatever the buffer held before. -/
theorem reassembles_messages {cap : Nat} (assembler : Transport.FragmentAssembler cap) (idle : assembler.isActive = false)
    (messages : List (List Bytes)) (cut : ∀ pieces ∈ messages, pieces ≠ [] ∧ pieces.flatten.length ≤ cap) :
    ((Transport.FragmentAssembler.consumer cap).feedAll assembler (messages.flatMap marked)).2 =
      messages.flatMap answers := by
  have seen := Transport.FragmentAssembler.feedAll_view assembler (messages.flatMap marked)
  rw [← feedAll_messages assembler.view idle cut, seen]

theorem reassembles_messages_two :
    ((Transport.FragmentAssembler.consumer 3).feedAll (.new 3) ([[[1], [], [2, 3]], [[4]]].flatMap marked)).2 =
      [[[1], [], [2, 3]], [[4]]].flatMap answers :=
  reassembles_messages (.new 3) rfl [[[1], [], [2, 3]], [[4]]] (by decide)

-- A piece is only put behind what is held: assemblers that hold the same bytes go on alike.
theorem feedAll_of_held {other : FragmentAssembler} (same : assembler.held = other.held) (pieces : List Piece) :
    ((FragmentAssembler.consumer cap).feedAll assembler pieces).2 =
      ((FragmentAssembler.consumer cap).feedAll other pieces).2 := by
  cases pieces with
  | nil => rfl
  | cons piece pieces =>
    have step : (FragmentAssembler.consumer cap).feed assembler piece =
        (FragmentAssembler.consumer cap).feed other piece := by
      simp only [FragmentAssembler.consumer, FragmentAssembler.feed_eq, same]
    rw [Feed.Consumer.feedAll_cons, Feed.Consumer.feedAll_cons, step]

end Messages

def Silent (given : List Answer) : Prop := ∀ answer ∈ given, ∀ message, answer.1 ≠ .ok (some message)

/-- The last piece of the run is the one that does not fit, behind `held` bytes. -/
def Overflowing (cap held : Nat) (run : List Bytes) : Prop :=
  cap < held + run.flatten.length ∧ held + run.dropLast.flatten.length ≤ cap

/-- The pieces fall into runs that each overflow the buffer with their last piece. -/
def FallsApart (cap : Nat) (pieces : List Bytes) : Prop :=
  ∃ runs : List (List Bytes), pieces = runs.flatten ∧ ∀ run ∈ runs, Overflowing cap 0 run

/-- The same behind `held` bytes, which count for the first run. -/
def FallsApartAfter (cap held : Nat) (pieces : List Bytes) : Prop :=
  ∃ first rest, pieces = first ++ rest ∧ first ≠ [] ∧ Overflowing cap held first ∧ FallsApart cap rest

section Oversized
variable {cap held : Nat} {assembler : FragmentAssembler}

theorem silent_cons {answer : Answer} {given : List Answer} :
    Silent (answer :: given) ↔ (∀ message, answer.1 ≠ .ok (some message)) ∧ Silent given :=
  List.forall_mem_cons

theorem fallsApart_nil (cap : Nat) : FallsApart cap [] := ⟨[], rfl, by simp⟩

theorem fallsApart_iff {pieces : List Bytes} (nonempty : pieces ≠ []) :
    FallsApart cap pieces ↔ FallsApartAfter cap 0 pieces := by
  constructor
  · rintro ⟨runs, rfl, each⟩
    cases runs with
    | nil => exact absurd rfl nonempty
    | cons first runs =>
      have overflowing := each first List.mem_cons_self
      refine ⟨first, runs.flatten, rfl, ?_, overflowing, runs, rfl, ?_⟩
      · rintro rfl
        exact absurd overflowing.1 (by simp)
      · intro run member
        exact each run (List.mem_cons_of_mem _ member)
  · rintro ⟨first, _, rfl, -, overflowing, runs, rfl, each⟩
    exact ⟨first :: runs, rfl, List.forall_mem_cons.mpr ⟨overflowing, each⟩⟩

-- The piece that does not fit ends its run.
theorem fallsApartAfter_cons_of_lt {piece : Bytes} {rest : List Bytes} (large : cap < held + piece.length)
    (small : held ≤ cap) : FallsApartAfter cap held (piece :: rest) ↔ FallsApart cap rest := by
  constructor
  · rintro ⟨first, others, split, nonempty, overflowing, apart⟩
    cases first with
    | nil => exact absurd rfl nonempty
    | cons head tail =>
      obtain ⟨rfl, rfl⟩ := List.cons.inj split
      cases tail with
      | nil => exact apart
      | cons next tail =>
        have bound := overflowing.2
        rw [List.dropLast_cons_cons, List.flatten_cons, List.length_append] at bound
        omega
  · intro apart
    exact ⟨[piece], rest, rfl, by simp, ⟨by simpa using large, by simpa using small⟩, apart⟩

theorem fallsApartAfter_cons_of_le {piece : Bytes} {rest : List Bytes} (fits : held + piece.length ≤ cap) :
    FallsApartAfter cap held (piece :: rest) ↔ FallsApartAfter cap (held + piece.length) rest := by
  constructor
  · rintro ⟨first, others, split, nonempty, ⟨large, bound⟩, apart⟩
    cases first with
    | nil => exact absurd rfl nonempty
    | cons head tail =>
      obtain ⟨rfl, rfl⟩ := List.cons.inj split
      rw [List.flatten_cons, List.length_append] at large
      cases tail with
      | nil =>
        simp only [List.flatten_nil, List.length_nil] at large
        omega
      | cons next tail =>
        rw [List.dropLast_cons_cons, List.flatten_cons, List.length_append] at bound
        exact ⟨next :: tail, others, rfl, by simp, ⟨by omega, by omega⟩, apart⟩
  · rintro ⟨first, others, rfl, nonempty, ⟨large, bound⟩, apart⟩
    refine ⟨piece :: first, others, rfl, by simp, ⟨?_, ?_⟩, apart⟩
    · rw [List.flatten_cons, List.length_append]
      omega
    · rw [List.dropLast_cons_of_ne_nil nonempty, List.flatten_cons, List.length_append]
      omega

theorem silent_iff (assembler : FragmentAssembler) {pieces : List Bytes} (nonempty : pieces ≠ [])
    (small : assembler.held.length ≤ cap) :
    Silent ((FragmentAssembler.consumer cap).feedAll assembler (marked pieces)).2 ↔
      FallsApartAfter cap assembler.held.length pieces := by
  induction pieces generalizing assembler with
  | nil => exact absurd rfl nonempty
  | cons piece rest ih =>
    by_cases large : cap < assembler.held.length + piece.length
    · rw [fallsApartAfter_cons_of_lt large small]
      cases rest with
      | nil =>
        rw [marked, Feed.Consumer.feedAll_cons, FragmentAssembler.feed_large _ large]
        exact iff_of_true (by simp [Feed.Consumer.feedAll, Silent]) (fallsApart_nil cap)
      | cons next rest =>
        -- The assembler is as good as new, and what is left of the message begins another one.
        rw [marked, Feed.Consumer.feedAll_cons, FragmentAssembler.feed_large _ large, fallsApart_iff (by simp)]
        simp only [List.singleton_append, silent_cons]
        exact Iff.trans (and_iff_right (by simp)) (ih .new (by simp) (Nat.zero_le _))
    · have fits := Nat.le_of_not_gt large
      cases rest with
      | nil =>
        rw [fallsApartAfter_cons_of_le fits, marked, Feed.Consumer.feedAll_cons, FragmentAssembler.feed_last fits]
        apply iff_of_false (by simp [Feed.Consumer.feedAll, Silent])
        rintro ⟨first, others, split, nonempty, -, -⟩
        exact nonempty (List.append_eq_nil_iff.mp split.symm).1
      | cons next rest =>
        rw [fallsApartAfter_cons_of_le fits, marked, Feed.Consumer.feedAll_cons, FragmentAssembler.feed_more fits]
        simp only [List.singleton_append, silent_cons]
        have length : (FragmentAssembler.held ⟨assembler.held ++ piece, true⟩).length =
          assembler.held.length + piece.length := List.length_append
        rw [← length] at fits ⊢
        exact Iff.trans (and_iff_right (by simp)) (ih _ (by simp) fits)

theorem held_marked {pieces : List Bytes} (nonempty : pieces ≠ []) :
    ((FragmentAssembler.consumer cap).feedAll assembler (marked pieces)).1.held = [] := by
  induction pieces generalizing assembler with
  | nil => exact absurd rfl nonempty
  | cons piece rest ih =>
    cases rest with
    | nil =>
      rw [marked, Feed.Consumer.feedAll_cons]
      by_cases large : cap < assembler.held.length + piece.length
      · rw [FragmentAssembler.feed_large _ large]
        rfl
      · rw [FragmentAssembler.feed_last (Nat.le_of_not_gt large)]
        rfl
    | cons next rest =>
      rw [marked, Feed.Consumer.feedAll_cons]
      exact ih (by simp)

end Oversized

structure Fragment where
  sn : UInt64
  reliable : Bool
  more : Bool
  payload : Bytes
  deriving DecidableEq

def Fragment.piece (fragment : Fragment) : Piece := (fragment.more, fragment.payload)

section Dispatch
variable [Target]

def incomingFragment (frameBuf : Bytes) : Option Fragment :=
  match frameBuf.head?.map parseTransportMsgKind with
  | some .fragment =>
    match decodeFragmentHeader frameBuf with
    | .ok (sn, reliable, more, bodyPos) =>
      if bodyPos ≤ frameBuf.length then some ⟨sn, reliable, more, frameBuf.drop bodyPos⟩ else none
    | _ => none
  | _ => none

theorem dispatchWith_fragment (handle : IncomingPut → Handled) {frameBuf : Bytes} {fragment : Fragment}
    (incoming : incomingFragment frameBuf = some fragment) (fragAsm : FragmentAssembler) :
    dispatchWith handle frameBuf fragAsm =
      match fragAsm.feed fragmentBufSize fragment.more fragment.payload with
      | (.ok (some assembled), fragAsm) => (handleBody handle assembled >>= fun handled => .ok (handled, fragAsm))
      | (_, fragAsm) => .ok (.nothing, fragAsm) := by
  unfold incomingFragment at incoming
  cases frameBuf with
  | nil => cases incoming
  | cons first rest =>
    simp only [List.head?_cons, Option.map_some] at incoming
    split at incoming
    · rename_i kind
      split at incoming
      · rename_i sn reliable more bodyPos header
        split at incoming
        · rename_i inside
          cases incoming
          unfold dispatchWith
          have read : (index (first :: rest) 0 : Outcome Error UInt8) = .ok first := rfl
          rw [if_neg (by simp), read, Outcome.ok_bind, Option.some.inj kind, header]
          simp only [ifOk]
          rw [sliceFrom_eq inside]
          exact Outcome.ok_bind _ _
        · cases incoming
      · cases incoming
    · cases incoming

/-- One call of `dispatch_frame` after the other. -/
def dispatchAll (node : Node) : FragmentAssembler → List Bytes → Outcome Error (List Handled × FragmentAssembler)
  | fragAsm, [] => .ok ([], fragAsm)
  | fragAsm, frame :: frames => do
    let (handled, fragAsm) ← dispatchFrame node frame fragAsm
    let (more, fragAsm) ← dispatchAll node fragAsm frames
    .ok (handled :: more, fragAsm)

/-- The frames are Fragments with these pieces, of any sequence numbers and reliability. -/
def Carry (frames : List Bytes) (pieces : List Piece) : Prop :=
  frames.map (fun frame => (incomingFragment frame).map Fragment.piece) = pieces.map some

theorem dispatchAll_silent (node : Node) {fragAsm : FragmentAssembler} {frames : List Bytes} {pieces : List Piece}
    (carry : Carry frames pieces)
    (silent : Silent ((FragmentAssembler.consumer fragmentBufSize).feedAll fragAsm pieces).2) :
    dispatchAll node fragAsm frames =
      .ok (frames.map fun _ => .nothing, ((FragmentAssembler.consumer fragmentBufSize).feedAll fragAsm pieces).1) := by
  induction frames generalizing fragAsm pieces with
  | nil =>
    obtain rfl := List.map_eq_nil_iff.mp carry.symm
    rfl
  | cons frame frames ih =>
    cases pieces with
    | nil => cases carry
    | cons piece pieces =>
      obtain ⟨here, rest⟩ := List.cons.inj carry
      obtain ⟨fragment, incoming, rfl⟩ := Option.map_eq_some_iff.mp here
      rw [Feed.Consumer.feedAll_cons, FragmentAssembler.consumer_feed] at silent ⊢
      obtain ⟨unyielded, later⟩ := silent_cons.mp silent
      have step : dispatchFrame node frame fragAsm =
          .ok (.nothing, (fragAsm.feed fragmentBufSize fragment.more fragment.payload).2) := by
        rw [dispatchFrame, dispatchWith_fragment _ incoming]
        simp only [Fragment.piece] at unyielded
        generalize fragAsm.feed fragmentBufSize fragment.more fragment.payload = fed at unyielded ⊢
        obtain ⟨result, next⟩ := fed
        match result with
        | .ok (some assembled) => exact absurd rfl (unyielded assembled)
        | .ok none => rfl
        | .err error => rfl
        | .panic fault => rfl
      rw [dispatchAll, step, Outcome.ok_bind]
      simp only
      rw [show dispatchAll node (fragAsm.feed fragmentBufSize fragment.more fragment.payload).2 frames = _ from
        ih rest later, Outcome.ok_bind]
      rfl

end Dispatch

/-- The message is gone: none of its pieces yields anything, what comes later is
reassembled as if it had never been there, and `dispatch_frame` handles nothing. -/
structure Discards [Target] {cap : Nat} (assembler : Transport.FragmentAssembler cap) (pieces : List Bytes) : Prop where
  silent : Silent ((Transport.FragmentAssembler.consumer cap).feedAll assembler (marked pieces)).2
  later : ∀ more : List Piece,
    ((Transport.FragmentAssembler.consumer cap).feedAll assembler (marked pieces ++ more)).2 =
      ((Transport.FragmentAssembler.consumer cap).feedAll assembler (marked pieces)).2 ++
        ((Transport.FragmentAssembler.consumer cap).feedAll assembler more).2
  dispatched : cap = fragmentBufSize → ∀ (node : Node) (frames : List Bytes), Carry frames (marked pieces) →
    ∃ fragAsm, dispatchAll node assembler.view frames = .ok (frames.map fun _ => .nothing, fragAsm)

/-- A message is discarded as a whole just when its pieces fall into runs that
each overflow with their last piece: then nothing is left of it after the last
overflow. Otherwise its tail is taken for a message. -/
theorem discards_iff_fallsApart [Target] {cap : Nat} (assembler : Transport.FragmentAssembler cap)
    (idle : assembler.isActive = false) (pieces : List Bytes) (nonempty : pieces ≠ []) :
    Discards assembler pieces ↔ FallsApart cap pieces := by
  have none : assembler.view.held = [] := FragmentAssembler.held_idle idle
  have seen (given : List Piece) : ((Transport.FragmentAssembler.consumer cap).feedAll assembler given).2 =
      ((FragmentAssembler.consumer cap).feedAll assembler.view given).2 := by
    rw [Transport.FragmentAssembler.feedAll_view]
  have exact_ := silent_iff assembler.view nonempty (show _ ≤ cap by rw [none]; exact Nat.zero_le _)
  rw [none, List.length_nil, ← fallsApart_iff nonempty] at exact_
  constructor
  · intro discards
    exact exact_.mp (seen _ ▸ discards.silent)
  · intro apart
    have silent := exact_.mpr apart
    refine ⟨by rwa [seen], fun more => ?_, ?_⟩
    · rw [seen, seen, seen, Feed.Consumer.feedAll_append]
      refine congrArg _ (feedAll_of_held ?_ more)
      rw [held_marked nonempty, none]
    · rintro rfl node frames carry
      exact ⟨_, dispatchAll_silent node carry silent⟩

theorem discards_overflowing_at_last :
    letI := target64
    Discards (.new 2) [[1], [2, 3]] := by
  let := target64
  refine (discards_iff_fallsApart (.new 2) rfl [[1], [2, 3]] (by simp)).mpr ⟨[[[1], [2, 3]]], rfl, ?_⟩
  intro run member
  rw [List.mem_singleton.mp member]
  exact ⟨by decide, by decide⟩

/-- The overflow comes before the last piece, which is then yielded as a message. -/
theorem tail_of_oversized_yielded :
    letI := target64
    ¬∀ pieces : List Bytes, pieces ≠ [] → 2 < pieces.flatten.length →
      Discards (Transport.FragmentAssembler.new 2) pieces := by
  let := target64
  intro all
  have silent := (all [[1], [2, 3], [4]] (by simp) (by decide)).silent
  exact silent (.ok (some [4]), false) (by decide) [4] rfl

end ZenohRos2
