import ZenohRos2.Lib.Machine
import ZenohRos2.Sdk.LocalDelivery

/-! Whether what is handed on is what was sent.

A payload is copied into the scratch buffer when it is drained, and into the
retry slot when it is stashed. Neither copy looks at the capacity of the
publisher: what does not fit is cut off. A trace keeps book of the message that
stands behind each copy.
-/

set_option autoImplicit false

namespace ZenohRos2
open Rust

def Event.pushedPayload : Event → Option CdrPayload
  | .pushed _ payload _ => some payload
  | _ => none

def World.pushedSince (after before : World) : List CdrPayload :=
  (after.log.drop before.log.length).filterMap Event.pushedPayload

/-- A message of this length gets into the frame of the burst, unless the frame
is full and cannot be written. -/
def Burst.Takes (burst : Burst) (written : Bool) (n : Nat) : Prop :=
  ∃ ke ∈ burst.ke, ¬(burst.batchStarted ∧ burst.pos + Sdk.msgEst ke n > txFrameBuf ∧ written = false)

instance (burst : Burst) (written : Bool) (n : Nat) : Decidable (burst.Takes written n) :=
  match key : burst.ke with
  | none => isFalse fun ⟨_, found, _⟩ => by rw [key] at found; cases found
  | some ke => decidable_of_iff (¬(burst.batchStarted ∧ burst.pos + Sdk.msgEst ke n > txFrameBuf ∧ written = false))
      (by simp [Burst.Takes, key])

theorem World.pushedSince_of_log {before after : World} (events : List Event)
    (log : after.log = before.log ++ events) : after.pushedSince before = events.filterMap Event.pushedPayload := by
  rw [pushedSince, log, List.drop_left]

@[simp] theorem World.pushes_payloads (world : World) (ref : PubRef) (payload : CdrPayload) :
    (world.pushes ref payload).filterMap Event.pushedPayload = (world.locals ref).map fun _ => payload := by
  rw [pushes_eq, List.filterMap_map, ← List.filterMap_eq_map]
  rfl

section Turns
variable [Target]

/-- What a turn hands on of a publisher's messages: what it pushes, and what it
puts into the frame. -/
def System.handedOn (before after : System) (ref : PubRef) : List CdrPayload :=
  after.world.pushedSince before.world ++ (after.control.flight ref).getLast?.toList

/-- What a turn of the inner loop makes of the publisher that it drains. -/
inductive CopyTurn (written : Bool) (burst : Burst) (system next : System) : Prop where
  | ended (empty : (system.world.statics burst.drain).pending = [])
      (flight : next.control.flight burst.drain = [])
      (slot : ∀ retry, (next.world.statics burst.drain).retrySlot = some retry →
        (system.control.flight burst.drain).getLast? = some retry.payload)
  | took {payload : CdrPayload} {rest : List CdrPayload}
      (waiting : (system.world.statics burst.drain).pending = payload :: rest)
      (handed : system.handedOn next burst.drain =
        ((system.world.locals burst.drain).map fun _ => payload) ++
          if burst.Takes written payload.data.length then [payload] else [])
      (flight : ∀ last, (next.control.flight burst.drain).getLast? = some last → last = payload)
      (slot : ∀ retry, (next.world.statics burst.drain).retrySlot = some retry → retry.payload = payload)

/-- The other publishers have nothing in the frame, and keep what is in their slots. -/
def StillOthers (burst : Burst) (system next : System) : Prop :=
  ∀ other, other ≠ burst.drain → next.control.flight other = [] ∧
    (next.world.statics other).retrySlot = (system.world.statics other).retrySlot

variable {world : World} {i : Nat} {burst : Burst} {written : Bool}

theorem copyTurn_ended {after : World} {control : Control} (empty : (world.statics burst.drain).pending = [])
    (statics : after.statics = world.statics) (still : ∀ ref, control.flight ref = []) :
    CopyTurn written burst ⟨world, .inner i burst⟩ ⟨after, control⟩ ∧
      StillOthers burst ⟨world, .inner i burst⟩ ⟨after, control⟩ := by
  constructor
  · apply CopyTurn.ended empty (still burst.drain)
    intro retry held
    change (after.statics burst.drain).retrySlot = _ at held
    rw [statics, (Publisher.pending_eq_nil empty).1] at held
    cases held
  · exact fun other _ => ⟨still other, by rw [statics]⟩

theorem copyTurn_session (ready : LocalBurst burst.drain burst) :
    CopyTurn written burst ⟨world, .inner i burst⟩ (turn Sdk.drainBody written ⟨world, .inner i burst⟩) ∧
      StillOthers burst ⟨world, .inner i burst⟩ (turn Sdk.drainBody written ⟨world, .inner i burst⟩) := by
  change CopyTurn written burst ⟨world, .inner i burst⟩ (settle (innerNext i) (Sdk.drainBody written burst world)) ∧
    StillOthers burst ⟨world, .inner i burst⟩ (settle (innerNext i) (Sdk.drainBody written burst world))
  cases waiting : (world.statics burst.drain).pending with
  | nil =>
    rw [Sdk.drainBody_local_nil ready waiting]
    exact copyTurn_ended waiting rfl fun _ => rfl
  | cons payload rest =>
    obtain ⟨next, again, ran⟩ := Sdk.drainBody_local_cons ready waiting written
    rw [ran]
    have still (other : PubRef) : (Control.inner i next).flight other = [] :=
      Control.flight_local ⟨rfl, again.key, again.sized, again.idle⟩ other
    constructor
    · apply CopyTurn.took waiting
      · have none : ¬burst.Takes written payload.data.length := by simp [Burst.Takes, ready.key]
        rw [System.handedOn, World.pushedSince_of_log (world.pushes burst.drain payload) rfl, if_neg none,
          World.pushes_payloads]
        simp [settle, innerNext, still]
      · intro last found
        simp [settle, innerNext, still] at found
      · intro retry held
        simp [settle] at held
    · intro other different
      simp [settle, innerNext, still, different]

theorem copyTurn_taken {ke : HeaplessString maxKeyExprLen} {payload : CdrPayload} {rest flight : List CdrPayload}
    {after : World} {next : Burst} (waiting : (world.statics burst.drain).pending = payload :: rest)
    (takes : burst.Takes written payload.data.length)
    (again : Sdk.Ready after.node burst.drain ke next flight) (last : flight.getLast? = some payload)
    (pushed : after.pushedSince world = (world.locals burst.drain).map fun _ => payload)
    (statics : after.statics = (world.drained burst.drain payload).statics) :
    CopyTurn written burst ⟨world, .inner i burst⟩ ⟨after, .inner i next⟩ ∧
      StillOthers burst ⟨world, .inner i burst⟩ ⟨after, .inner i next⟩ := by
  have drain : next.drain = burst.drain := again.drain
  have flying : (Control.inner i next).flight burst.drain = flight := by
    rw [← drain] at again ⊢
    exact Control.flight_network again
  constructor
  · apply CopyTurn.took waiting
    · simp [System.handedOn, pushed, flying, last, takes]
    · intro other found
      rw [flying, last] at found
      exact (Option.some.inj found).symm
    · intro retry held
      simp [statics] at held
  · intro other different
    exact ⟨Control.flight_other (drain ▸ different), by simp [statics, different]⟩

omit [Target] in
theorem stashed_slot {ref : PubRef} {payload : CdrPayload} {retry : RetryPayload}
    (small : payload.data.length ≤ cdrDrainBuf)
    (held : ((world.stashed ref payload).statics ref).retrySlot = some retry) : retry.payload = payload := by
  have kept : payload.data.take retryCdrCap = payload.data := List.take_of_length_le small
  simp [World.stashed, Publisher.stashRetry, kept] at held
  rw [← held]

theorem copyTurn_refused {payload : CdrPayload} {rest : List CdrPayload} {frame : Bytes} {error : Error}
    (waiting : (world.statics burst.drain).pending = payload :: rest) (refused : ¬burst.Takes written payload.data.length) :
    let after := ((world.drained burst.drain payload).note [.failed .full burst.drain frame]).stashed burst.drain payload
    CopyTurn written burst ⟨world, .inner i burst⟩ ⟨after, .idle (some (.err error))⟩ ∧
      StillOthers burst ⟨world, .inner i burst⟩ ⟨after, .idle (some (.err error))⟩ := by
  intro after
  have small := Publisher.pending_data_length_le (waiting ▸ List.mem_cons_self ..)
  let events := world.pushes burst.drain payload ++
    [.failed .full burst.drain frame, .stashed burst.drain payload false]
  have log : after.log = world.log ++ events := by simp [after, events, World.stashed]
  constructor
  · apply CopyTurn.took waiting
    · rw [System.handedOn, World.pushedSince_of_log events log, List.filterMap_append, World.pushes_payloads,
        if_neg refused]
      simp [Control.flight, Event.pushedPayload]
    · exact fun last found => by cases found
    · exact fun retry held => stashed_slot small held
  · exact fun other different => ⟨rfl, by simp [after, World.stashed, different]⟩

theorem copyTurn_network {ke : HeaplessString maxKeyExprLen} {flight : List CdrPayload}
    (ready : Sdk.Ready world.node burst.drain ke burst flight) :
    CopyTurn written burst ⟨world, .inner i burst⟩ (turn Sdk.drainBody written ⟨world, .inner i burst⟩) ∧
      StillOthers burst ⟨world, .inner i burst⟩ (turn Sdk.drainBody written ⟨world, .inner i burst⟩) := by
  change CopyTurn written burst ⟨world, .inner i burst⟩ (settle (innerNext i) (Sdk.drainBody written burst world)) ∧
    StillOthers burst ⟨world, .inner i burst⟩ (settle (innerNext i) (Sdk.drainBody written burst world))
  have takes_iff (n : Nat) : burst.Takes written n ↔
      ¬(burst.batchStarted ∧ burst.pos + Sdk.msgEst ke n > txFrameBuf ∧ written = false) := by
    simp [Burst.Takes, ready.key]
  -- Nothing is left to drain, or a message that is the first, does not fit or fits behind the others.
  cases waiting : (world.statics burst.drain).pending with
  | nil =>
    by_cases flying : flight = []
    · subst flying
      rw [Sdk.drainBody_nothing ready waiting]
      exact copyTurn_ended waiting rfl fun _ => rfl
    cases written with
    | true =>
      rw [Sdk.drainBody_finished ready waiting flying]
      exact copyTurn_ended waiting rfl fun _ => rfl
    | false =>
      -- Only the last one of the batch comes back into the slot.
      have last := List.getLast?_eq_some_getLast flying
      obtain ⟨ran, small⟩ := Sdk.drainBody_finishFailed ready waiting last
      rw [ran]
      constructor
      · apply CopyTurn.ended waiting rfl
        intro retry held
        rw [Control.flight_network ready, last, stashed_slot small held]
      · exact fun other different => ⟨rfl, by simp [settle, World.stashed, different]⟩
  | cons payload rest =>
    have pushed := World.pushes_payloads world burst.drain payload
    by_cases flying : flight = []
    · subst flying
      obtain ⟨next, again, ran⟩ := Sdk.drainBody_first ready waiting written
      have idle : burst.batchStarted = false := ready.started
      rw [ran]
      exact copyTurn_taken waiting ((takes_iff _).mpr (by simp [idle])) again rfl
        ((World.pushedSince_of_log _ rfl).trans pushed) rfl
    have begun : burst.batchStarted = true := by simp [ready.started, flying]
    by_cases full : burst.pos + Sdk.msgEst ke payload.data.length > txFrameBuf
    · cases written with
      | true =>
        obtain ⟨next, again, ran⟩ := Sdk.drainBody_flushed ready waiting flying full
        let after := ((world.drained burst.drain payload).note
          [.wrote burst.drain (Sdk.flightFrame world.node ke flight)]).countSn
        have ready : Sdk.Ready after.node burst.drain ke next [payload] := again
        rw [ran]
        apply copyTurn_taken waiting ((takes_iff _).mpr (by simp)) ready rfl
        · rw [World.pushedSince_of_log (world.pushes burst.drain payload ++ [_]) (List.append_assoc ..),
            List.filterMap_append, pushed]
          exact List.append_nil _
        · rfl
      | false =>
        rw [Sdk.drainBody_refused ready waiting flying full]
        exact copyTurn_refused waiting fun takes => (takes_iff _).mp takes ⟨begun, full, rfl⟩
    · obtain ⟨next, again, ran⟩ := Sdk.drainBody_behind ready waiting flying (Nat.le_of_not_gt full) written
      rw [ran]
      exact copyTurn_taken waiting ((takes_iff _).mpr fun refused => full refused.2.1) again List.getLast?_concat
        ((World.pushedSince_of_log _ rfl).trans pushed) rfl

theorem copyTurn {system : System} (written : Bool) (sound : system.control.Sound system.world)
    (inner : system.control = .inner i burst) :
    CopyTurn written burst system (turn Sdk.drainBody written system) ∧
      StillOthers burst system (turn Sdk.drainBody written system) := by
  obtain ⟨world, control⟩ := system
  obtain rfl := inner
  cases sound with
  | session only ready => exact copyTurn_session ready
  | network remote ready => exact copyTurn_network ready

end Turns

/-- A run with its book of messages. -/
structure Traced where
  system : System
  /-- The messages that the payloads in the retry slots are copies of. -/
  origin : PubRef → Option CdrPayload
  /-- The message that was drained last. -/
  latest : Option CdrPayload
  /-- What was handed on, behind the message that it stands for. -/
  handed : List (CdrPayload × CdrPayload)

namespace Traced

def initial (statics : PubRef → Publisher) (node : Node) : Traced where
  system := .initial statics node
  origin ref := (statics ref).retrySlot.map RetryPayload.payload
  latest := none
  handed := []

/-- The message whose copy a burst drains next, as it stood in the channel. -/
def drains (traced : Traced) (ref : PubRef) : Option CdrPayload :=
  if (traced.system.world.statics ref).retrySlot.isSome then traced.origin ref
  else (traced.system.world.statics ref).channel.head?

section Steps
variable [Target]

def noted (traced : Traced) (next : System) (ref : PubRef) : Traced where
  system := next
  origin := Function.update traced.origin ref
    (if (next.world.statics ref).retrySlot.isSome then (traced.drains ref).or traced.latest else none)
  latest := (traced.drains ref).or traced.latest
  handed := traced.handed ++
    (traced.drains ref).toList.flatMap fun message => (traced.system.handedOn next ref).map (message, ·)

def step (traced : Traced) (act : Act) : Option Traced :=
  (traced.system.step act).map fun next =>
    match act, traced.system.control with
    | .turn _, .inner _ burst => traced.noted next burst.drain
    | _, _ => { traced with system := next }

def Exact (traced : Traced) : Prop := ∀ pair ∈ traced.handed, pair.2.data = pair.1.data

instance : DecidablePred Exact := fun traced => inferInstanceAs (Decidable (∀ pair ∈ traced.handed, _))

/-- The message that the turn drains fits the scratch buffer, or nobody gets it now. -/
def Fits (traced : Traced) : Act → Prop
  | .turn written =>
    match traced.system.control with
    | .inner _ burst => ∀ message, traced.drains burst.drain = some message → message.data.length ≤ cdrDrainBuf ∨
      (traced.system.world.locals burst.drain = [] ∧ ¬burst.Takes written message.clip.data.length)
    | _ => True
  | _ => True

/-- The book is right: each copy is the front of the message it stands for. -/
structure Sound (traced : Traced) : Prop where
  control : traced.system.control.Sound traced.system.world
  slot : ∀ ref payload, (traced.system.box ref).slot = some payload →
    ∃ message, traced.origin ref = some message ∧ payload = message.clip
  flight : ∀ ref last, (traced.system.box ref).batch.getLast? = some last →
    ∃ message, traced.latest = some message ∧ last = message.clip

variable {traced next : Traced} {act : Act}

theorem initial_sound (statics : PubRef → Publisher) (node : Node) : (initial statics node).Sound where
  control := .idle
  slot ref payload held := by
    obtain ⟨retry, found, rfl⟩ := Option.map_eq_some_iff.mp held
    refine ⟨retry.payload, held, ?_⟩
    have small : retry.payload.data.take cdrDrainBuf = retry.payload.data := List.take_of_length_le retry.fits
    rw [CdrPayload.clip, small]
  flight ref last found := by cases found

theorem Sound.of_box (sound : Sound traced) {system : System} (control : system.control.Sound system.world)
    (slot : ∀ ref, (system.box ref).slot = (traced.system.box ref).slot)
    (batch : ∀ ref last, (system.box ref).batch.getLast? = some last → (traced.system.box ref).batch.getLast? = some last) :
    Sound { traced with system := system } where
  control := control
  slot ref payload held := sound.slot ref payload (slot ref ▸ held)
  flight ref last found := sound.flight ref last (batch ref last found)

theorem Sound.drains (sound : Sound traced) (ref : PubRef) :
    (traced.system.world.statics ref).pending.head? = (traced.drains ref).map CdrPayload.clip := by
  unfold Traced.drains Publisher.pending
  cases held : (traced.system.world.statics ref).retrySlot with
  | some retry =>
    obtain ⟨message, origin, same⟩ := sound.slot ref retry.payload (by simp [System.box, World.box, held])
    simp [origin, same]
  | none => simp

omit [Target] in
theorem clip_data_eq_iff (message : CdrPayload) : message.clip.data = message.data ↔ message.data.length ≤ cdrDrainBuf := by
  constructor
  · intro same
    have lengths := congrArg List.length same
    simp only [CdrPayload.clip, List.length_take] at lengths
    omega
  · exact List.take_of_length_le

section Burst
variable {written : Bool} {i : Nat} {burst : Burst}

omit [Target] in
theorem drains_of_pending {ref : PubRef} {payload : CdrPayload} {rest : List CdrPayload}
    (drained : (traced.system.world.statics ref).pending.head? = (traced.drains ref).map CdrPayload.clip)
    (waiting : (traced.system.world.statics ref).pending = payload :: rest) :
    ∃ message, traced.drains ref = some message ∧ payload = message.clip := by
  rw [waiting] at drained
  obtain ⟨message, found, same⟩ := Option.map_eq_some_iff.mp drained.symm
  exact ⟨message, found, same.symm⟩

omit [Target] in
theorem drains_of_empty {ref : PubRef}
    (drained : (traced.system.world.statics ref).pending.head? = (traced.drains ref).map CdrPayload.clip)
    (empty : (traced.system.world.statics ref).pending = []) : traced.drains ref = none := by
  rw [empty] at drained
  exact Option.map_eq_none_iff.mp drained.symm

theorem Sound.latest (sound : Sound traced) {next : System} (copied : CopyTurn written burst traced.system next)
    {payload : CdrPayload}
    (left : (next.box burst.drain).slot = some payload ∨ (next.box burst.drain).batch.getLast? = some payload) :
    ∃ message, (traced.drains burst.drain).or traced.latest = some message ∧ payload = message.clip := by
  have drained := sound.drains burst.drain
  cases copied with
  | ended empty flight slot =>
    rw [drains_of_empty drained empty, Option.none_or]
    rcases left with held | ends
    · obtain ⟨retry, stashed, rfl⟩ := Option.map_eq_some_iff.mp held
      exact sound.flight burst.drain retry.payload (slot retry stashed)
    · simp [System.box, World.box, flight] at ends
  | took waiting handed flight slot =>
    obtain ⟨message, found, rfl⟩ := drains_of_pending drained waiting
    refine ⟨message, by rw [found, Option.some_or], ?_⟩
    rcases left with held | ends
    · obtain ⟨retry, stashed, rfl⟩ := Option.map_eq_some_iff.mp held
      exact slot retry stashed
    · exact flight payload ends

theorem Sound.noted (sound : Sound traced) (inner : traced.system.control = .inner i burst) :
    Sound (traced.noted (turn Sdk.drainBody written traced.system) burst.drain) := by
  obtain ⟨copied, still⟩ := copyTurn written sound.control inner
  have control := (turn_stepped sound.control written).sound
  generalize turn Sdk.drainBody written traced.system = next at copied still control ⊢
  refine ⟨control, fun ref payload held => ?_, fun ref last found => ?_⟩
  · by_cases own : ref = burst.drain
    · subst own
      obtain ⟨retry, stashed, -⟩ := Option.map_eq_some_iff.mp held
      have occupied : (next.world.statics burst.drain).retrySlot = some retry := stashed
      have origin : (traced.noted next burst.drain).origin burst.drain =
          (traced.drains burst.drain).or traced.latest := by simp [Traced.noted, occupied]
      rw [origin]
      exact sound.latest copied (.inl held)
    · have same : (next.box ref).slot = (traced.system.box ref).slot := by
        simp only [System.box, World.box, (still ref own).2]
      have origin : (traced.noted next burst.drain).origin ref = traced.origin ref := by
        simp [Traced.noted, own]
      rw [origin]
      exact sound.slot ref payload (same ▸ held)
  · by_cases own : ref = burst.drain
    · subst own
      exact sound.latest copied (.inr found)
    · simp [Traced.noted, System.box, World.box, (still ref own).1] at found

theorem Exact.noted_iff (exact_ : Exact traced) (sound : Sound traced) (inner : traced.system.control = .inner i burst) :
    Exact (traced.noted (turn Sdk.drainBody written traced.system) burst.drain) ↔ Fits traced (.turn written) := by
  have drained := sound.drains burst.drain
  have copied := (copyTurn written sound.control inner).1
  generalize turn Sdk.drainBody written traced.system = next at copied ⊢
  have fits : Fits traced (.turn written) ↔ ∀ message, traced.drains burst.drain = some message →
      message.data.length ≤ cdrDrainBuf ∨
        (traced.system.world.locals burst.drain = [] ∧ ¬burst.Takes written message.clip.data.length) := by
    simp only [Fits, inner]
  rw [fits]
  cases copied with
  | ended empty flight slot =>
    have nothing := drains_of_empty drained empty
    refine iff_of_true ?_ (by simp [nothing])
    simpa [Exact, Traced.noted, nothing] using exact_
  | took waiting handed flight slot =>
    obtain ⟨message, found, rfl⟩ := drains_of_pending drained waiting
    have copies : Exact (traced.noted next burst.drain) ↔
        ∀ copy ∈ traced.system.handedOn next burst.drain, copy.data = message.data := by
      constructor
      · intro all copy member
        exact all (message, copy) (by simp [Traced.noted, found, member])
      · intro all pair member
        rcases List.mem_append.mp member with old | new
        · exact exact_ pair old
        · simp only [found, Option.toList_some, List.flatMap_singleton, List.mem_map] at new
          obtain ⟨copy, inside, rfl⟩ := new
          exact all copy inside
    -- Every copy is the front of the message, so one that is not the message is handed to nobody.
    have whole := clip_data_eq_iff message
    rw [copies, handed]
    constructor
    · rintro all other same
      obtain rfl := Option.some.inj (found.symm.trans same)
      rw [← whole]
      by_cases same : message.clip.data = message.data
      · exact .inl same
      · right
        constructor
        · cases locals : traced.system.world.locals burst.drain with
          | nil => rfl
          | cons entry entries => exact absurd (all message.clip (by simp [locals])) same
        · exact fun takes => same (all message.clip (by simp [takes]))
    · intro fine copy member
      rcases fine message found with small | ⟨none, refused⟩
      · have only : copy = message.clip := by
          rcases List.mem_append.mp member with pushed | framed
          · exact (List.mem_map.mp pushed).choose_spec.2.symm
          · split at framed
            · exact List.mem_singleton.mp framed
            · cases framed
        rw [only]
        exact whole.mpr small
      · simp [none, refused] at member

end Burst

theorem quiet_of_step {system after : System} (sound : system.control.Sound system.world)
    (outside : ∀ written i burst, act = .turn written → system.control ≠ .inner i burst)
    (step : system.step act = some after) (ref : PubRef) :
    (after.box ref).slot = (system.box ref).slot ∧ (after.box ref).batch = (system.box ref).batch := by
  have moves := (System.stepped_of_step sound step).moves ref
  have same (box : after.box ref = system.box ref) :
      (after.box ref).slot = (system.box ref).slot ∧ (after.box ref).batch = (system.box ref).batch := by
    rw [box]
    exact ⟨rfl, rfl⟩
  cases act with
  | turn written =>
    obtain ⟨busy, rfl⟩ := System.step_turn step
    obtain ⟨world, control⟩ := system
    cases sound with
    | idle => exact absurd rfl (busy _)
    | @outer i buffers sized =>
      obtain ⟨control, turned, -, still⟩ := turn_outer Sdk.drainBody written world i sized
      rw [turned]
      exact ⟨rfl, still ref⟩
    | session => exact absurd rfl (outside written _ _ rfl)
    | network => exact absurd rfl (outside written _ _ rfl)
  | stamp owner data timestampNs =>
    cases moves with
    | stays _ _ box => exact same box
    | stamps _ _ box => exact same box
  | enqueue owner waiting =>
    cases moves with
    | stays _ _ box => exact same box
    | enqueues _ _ box =>
      rw [box]
      exact ⟨rfl, rfl⟩
  | call =>
    cases moves with
    | stays _ _ box => exact same box
  | reconnect node =>
    cases moves with
    | stays _ _ box => exact same box

inductive Stepped (traced : Traced) : Act → Traced → Prop where
  | burst {written : Bool} {i : Nat} {burst : Burst} (inner : traced.system.control = .inner i burst) :
      Stepped traced (.turn written) (traced.noted (turn Sdk.drainBody written traced.system) burst.drain)
  | quiet {act : Act} {after : System} (step : traced.system.step act = some after)
      (outside : ∀ written i burst, act = .turn written → traced.system.control ≠ .inner i burst) :
      Stepped traced act { traced with system := after }

theorem stepped_of_step (step : traced.step act = some next) : Stepped traced act next := by
  obtain ⟨after, stepped, same⟩ := Option.map_eq_some_iff.mp step
  subst same
  cases act with
  | turn written =>
    obtain ⟨-, rfl⟩ := System.step_turn stepped
    cases control : traced.system.control with
    | inner i burst => exact .burst control
    | idle returned => exact .quiet stepped (by simp [control])
    | outer i buffers => exact .quiet stepped (by simp [control])
  | stamp => exact .quiet stepped (by simp)
  | enqueue => exact .quiet stepped (by simp)
  | call => exact .quiet stepped (by simp)
  | reconnect => exact .quiet stepped (by simp)

theorem Sound.step (sound : Sound traced) (step : traced.step act = some next) : Sound next := by
  cases stepped_of_step step with
  | burst inner => exact sound.noted inner
  | quiet ran outside =>
    have still := quiet_of_step sound.control outside ran
    apply sound.of_box (System.stepped_of_step sound.control ran).sound
    · exact fun ref => (still ref).1
    · exact fun ref last found => (still ref).2 ▸ found

theorem Exact.step_iff (sound : Sound traced) (exact_ : Exact traced) (step : traced.step act = some next) :
    Exact next ↔ Fits traced act := by
  cases stepped_of_step step with
  | burst inner => exact exact_.noted_iff sound inner
  | quiet _ outside =>
    apply iff_of_true exact_
    cases act with
    | turn written =>
      unfold Fits
      cases control : traced.system.control with
      | inner i burst => exact absurd control (outside written i burst rfl)
      | idle returned => trivial
      | outer i buffers => trivial
    | _ => trivial

/-- In every run, what is dispatched and put into frames is the message itself,
byte for byte, just when every message that a burst drains fits the scratch
buffer, or is handed to nobody at all. -/
theorem exact_iff_fits (statics : PubRef → Publisher) (node : Node) (acts : List Act) :
    Machine.Always step Exact (initial statics node) acts ↔ Machine.Meets step Fits (initial statics node) acts :=
  Machine.always_iff_meets Sound Sound.step Exact.step_iff (initial_sound statics node) (by simp [Exact, initial])

omit [Target] in
/-- A publisher of larger messages: the last byte of 513 is neither dispatched nor sent. -/
theorem message_cut :
    let topic : TopicKeyExpr := ⟨0, "chatter", "String", "hash"⟩
    let node := { Node.built "robot" "" 0 (ZenohId.fromBytes [7]) 10000 10000 with
      publishers := [0]
      subscribers := [⟨1, .any, topic, 3⟩] }
    let message := List.replicate 513 (5 : UInt8)
    let acts : List Act := [.stamp 0 message 0, .enqueue 0 0, .call, .turn true, .turn true]
    letI := target64
    (Machine.execute step (fun _ _ => True) acts (initial (fun _ => .fresh topic .any 600 4) node)).map Traced.handed =
        some [(⟨message, 0, 0⟩, ⟨message.take 512, 0, 0⟩), (⟨message, 0, 0⟩, ⟨message.take 512, 0, 0⟩)] ∧
      ¬Machine.Always step Exact (initial (fun _ => .fresh topic .any 600 4) node) acts := by
  intro topic node message acts
  let := target64
  decide +kernel

end Steps
end Traced
end ZenohRos2
