import ZenohRos2.Cdr.Serializer
import ZenohRos2.Lib.Machine
import ZenohRos2.Sdk.Batching
import ZenohRos2.Sdk.Delivery

/-! The drain of the `ros2` module, over whole runs.

It writes each message in a frame of its own and keeps nothing of a message
whose write failed. So a message is drawn out of the channel once: it is handed
to the local subscriptions, then it is written or lost, and the next one follows.
-/

set_option autoImplicit false

namespace ZenohRos2
open Rust Cdr

/-- `try_send`: the message is not stamped, and has to find room in the channel. -/
def Publisher.trySend [Target] (publisher : Publisher) (ty : Ty) (msg : ty.Val) :
    Outcome Error (CdrPayload × Publisher) := do
  let (n, raw) ← (serializeWithHeader ty msg (List.replicate publisher.cdrCap 0)).mapErr .cdr
  if publisher.channel.length < publisher.queue then
    let payload : CdrPayload := ⟨raw.take n, 0, 0⟩
    .ok (payload, { publisher with channel := publisher.channel ++ [payload] })
  else .err .bufferFull

namespace Ros2

/-- Steps of the tasks around a node; a `try_send` that fails changes nothing. -/
inductive Input where
  | task (act : Act)
  | trySend (ref : PubRef) (ty : Ty) (msg : ty.Val)

section Machine
variable [Target]

def step (system : System) : Input → Option System
  | .task (.turn written) =>
    match system.control with
    | .idle _ => none
    | _ => some (turn Ros2.drainBody written system)
  | .task act => system.step act
  | .trySend ref ty msg =>
    match (system.world.statics ref).trySend ty msg with
    | .ok (payload, publisher) =>
      some { system with world := (system.world.setPublisher ref publisher).note [.sent ref payload] }
    | _ => some system

/-- A node that connects again has the same local subscriptions of a topic. -/
def SameEntries (topic : TopicKeyExpr) (entries : List SubscriberEntry) (_ : System) : Input → Prop
  | .task (.reconnect node) => localEntries node.subscribers topic = entries
  | _ => True

instance (topic : TopicKeyExpr) (entries : List SubscriberEntry) (system : System) :
    (input : Input) → Decidable (SameEntries topic entries system input)
  | .task (.reconnect _) => inferInstanceAs (Decidable (_ = _))
  | .task (.stamp ..) => inferInstanceAs (Decidable True)
  | .task (.enqueue ..) => inferInstanceAs (Decidable True)
  | .task .call => inferInstanceAs (Decidable True)
  | .task (.turn _) => inferInstanceAs (Decidable True)
  | .trySend .. => inferInstanceAs (Decidable True)

end Machine

inductive Trace where
  | pushed (payload : CdrPayload) (entry : SubscriberEntry)
  | framed (written : Bool) (messages : List CdrPayload)
  | stashed (payload : CdrPayload)
  deriving DecidableEq

def traceOf [Target] (ref : PubRef) : Event → List Trace
  | .sent .. => []
  | .pushed owner payload entry => if owner = ref then [.pushed payload entry] else []
  | .wrote owner frame => if owner = ref then [.framed true (publications frame)] else []
  | .failed _ owner frame => if owner = ref then [.framed false (publications frame)] else []
  | .stashed owner payload _ => if owner = ref then [.stashed payload] else []

def drawnTrace (locality : Locality) (entries : List SubscriberEntry) (message : CdrPayload × Bool) : List Trace :=
  (if locality ≠ .remote then entries.map (.pushed message.1) else []) ++
    if locality ≠ .sessionLocal then [.framed message.2 [message.1]] else []

section Turns
variable [Target] {world : World} {ref : PubRef} {burst next : Burst} {key : Option (HeaplessString maxKeyExprLen)}
  {ke : HeaplessString maxKeyExprLen} {payload : CdrPayload} {rest : List CdrPayload}

omit [Target] in
theorem writeFrameFor_wrote {point : FlushPoint} {frame : Bytes} {after : World}
    (wrote : writeFrameFor true point ref frame world = (.ok (), after)) :
    after = world.note [.wrote ref frame] ∧
      writeFrameFor false point ref frame world = (.err (.transport .io), world.note [.failed point ref frame]) := by
  unfold writeFrameFor writeFrame at *
  by_cases long : frame.length > 65535
  · rw [if_pos long] at wrote
    cases wrote
  · rw [if_neg long] at wrote ⊢
    cases wrote
    exact ⟨rfl, rfl⟩

theorem sendSingle_refused {drained : Publisher.Drained} {after : World}
    (sent : sendSingle true ke drained burst world = (.ok next, after)) :
    ∃ (middle : World) (owner : PubRef) (frame : Bytes), after = middle.note [.wrote owner frame] ∧
      sendSingle false ke drained burst world = (.err (.transport .io), middle.note [.failed .single owner frame]) := by
  unfold sendSingle at *
  obtain ⟨begun, counted, first, sent⟩ := Action.bind_eq_ok.mp sent
  obtain ⟨appended, middle, second, sent⟩ := Action.bind_eq_ok.mp sent
  obtain ⟨frame, same, sliced, sent⟩ := Action.bind_eq_ok.mp sent
  obtain ⟨_, noted, wrote, ended⟩ := Action.bind_eq_ok.mp sent
  cases ended
  obtain ⟨rfl, refused⟩ := writeFrameFor_wrote wrote
  refine ⟨same, next.drain, frame, rfl, ?_⟩
  rw [Action.bind_of_ok first, Action.bind_of_ok second, Action.bind_of_ok sliced, Action.bind_of_err refused]

theorem drainBody_refused (ready : Ready ref (some ke) burst) (waiting : (world.statics ref).pending = payload :: rest) :
    Ros2.drainBody false burst world = (.err (.transport .io), (world.drained ref payload).countSn.note
      [.failed .single ref (batchFrame world.node.sn ke.text world.node.gid [payload])]) := by
  obtain ⟨next, -, -, ran⟩ := drainBody_network ready waiting
  obtain rfl := ready.drain
  unfold Ros2.drainBody at ran ⊢
  rw [drainMessage_cons ready.sized.1 waiting, ready.key] at ran ⊢
  obtain ⟨sent, after, single, ended⟩ := Action.bind_eq_ok.mp ran
  cases ended
  obtain ⟨middle, owner, frame, same, refused⟩ := sendSingle_refused single
  refine (Action.bind_of_err refused).trans ?_
  obtain ⟨statics, node, log⟩ := middle
  simp only [World.note, World.mk.injEq, List.append_singleton_inj, Event.wrote.injEq] at same
  obtain ⟨rfl, rfl, rfl, rfl, rfl⟩ := same
  rfl

inductive Turned (world : World) (ref : PubRef) (key : Option (HeaplessString maxKeyExprLen)) :
    Bool → Outcome Error (Bool × Burst) × World → Prop where
  | nothing {written : Bool} {burst : Burst} (empty : (world.statics ref).pending = [])
      (sized : burst.buffers.Sized) :
      Turned world ref key written (.ok (false, burst), world)
  | passed {written : Bool} {payload : CdrPayload} {rest : List CdrPayload} {next : Burst}
      (waiting : (world.statics ref).pending = payload :: rest) (only : key = none) (again : Ready ref key next) :
      Turned world ref key written (.ok (true, next), world.drained ref payload)
  | sent {payload : CdrPayload} {rest : List CdrPayload} {next : Burst} {frame : Bytes}
      (waiting : (world.statics ref).pending = payload :: rest) (network : key ≠ none)
      (alone : publications frame = [payload]) (again : Ready ref key next) :
      Turned world ref key true (.ok (true, next), (world.drained ref payload).countSn.note [.wrote ref frame])
  | lost {payload : CdrPayload} {rest : List CdrPayload} {frame : Bytes}
      (waiting : (world.statics ref).pending = payload :: rest) (network : key ≠ none)
      (alone : publications frame = [payload]) :
      Turned world ref key false
        (.err (.transport .io), (world.drained ref payload).countSn.note [.failed .single ref frame])

theorem drainBody_turned (ready : Ready ref key burst) (written : Bool) :
    Turned world ref key written (Ros2.drainBody written burst world) := by
  cases waiting : (world.statics ref).pending with
  | nil =>
    rw [drainBody_nil ready waiting]
    exact .nothing waiting ready.sized
  | cons payload rest =>
    cases key with
    | none =>
      obtain rfl := ready.drain
      have ran : Ros2.drainBody written burst world = (.ok (true, burst.copied payload), world.drained burst.drain payload) := by
        rw [Ros2.drainBody, drainMessage_cons ready.sized.1 waiting, ready.key]
        rfl
      rw [ran]
      exact .passed waiting rfl ⟨rfl, ready.key, Burst.copied_sized ready.sized payload⟩
    | some ke =>
      obtain ⟨next, again, short, ran⟩ := drainBody_network ready waiting
      have alone := @publications_batchFrame _ world.node.sn ke.text world.node.gid [payload]
        (le_isizeMax (Nat.lt_of_le_of_lt short (by decide)))
      cases written with
      | true =>
        rw [ran]
        exact .sent waiting (by simp) alone again
      | false =>
        rw [drainBody_refused ready waiting]
        exact .lost waiting (by simp) alone

end Turns

section Runs
variable [Target]

inductive Sound (world : World) : Control → Prop where
  | idle {returned : Option (Outcome Error Unit)} : Sound world (.idle returned)
  | outer {i : Nat} {buffers : Buffers} (sized : buffers.Sized) : Sound world (.outer i buffers)
  | inner {i : Nat} {burst : Burst} {key : Option (HeaplessString maxKeyExprLen)}
      (network : key = none ↔ (world.statics burst.drain).locality = .sessionLocal)
      (ready : Ready burst.drain key burst) : Sound world (.inner i burst)

inductive Moves (ref : PubRef) (system next : System) : Prop where
  | stays (pending : (next.world.statics ref).pending = (system.world.statics ref).pending)
      (sent : next.sent ref = system.sent ref)
      (trace : next.world.log.flatMap (traceOf ref) = system.world.log.flatMap (traceOf ref))
  | enters (payload : CdrPayload)
      (pending : (next.world.statics ref).pending = (system.world.statics ref).pending ++ [payload.clip])
      (sent : next.sent ref = system.sent ref ++ [payload.clip])
      (trace : next.world.log.flatMap (traceOf ref) = system.world.log.flatMap (traceOf ref))
  | draws (payload : CdrPayload) (written : Bool)
      (pending : (system.world.statics ref).pending = payload :: (next.world.statics ref).pending)
      (sent : next.sent ref = system.sent ref)
      (trace : next.world.log.flatMap (traceOf ref) = system.world.log.flatMap (traceOf ref) ++
        drawnTrace (system.world.statics ref).locality
          (localEntries system.world.node.subscribers (system.world.statics ref).topic) (payload, written))

theorem pushes_trace (world : World) (ref other : PubRef) (payload : CdrPayload) :
    (world.pushes ref payload).flatMap (traceOf other) =
      if ref = other then
        if (world.statics ref).locality ≠ .remote then
          (localEntries world.node.subscribers (world.statics ref).topic).map (.pushed payload)
        else []
      else [] := by
  unfold World.pushes
  split
  · rw [List.flatMap_map]
    split
    · rename_i same
      subst same
      simp only [traceOf, if_true]
      exact List.map_eq_flatMap.symm
    · rename_i different
      simp [traceOf, different]
  · simp

/-- What every step keeps of the publishers, and what it is for one of them. -/
structure Stepped (ref : PubRef) (system next : System) : Prop where
  sound : Sound next.world next.control
  topic : (next.world.statics ref).topic = (system.world.statics ref).topic
  locality : (next.world.statics ref).locality = (system.world.statics ref).locality
  tables : next.world.node.subscribers = system.world.node.subscribers
  moves : Moves ref system next

theorem moves_drained {world : World} {owner : PubRef} {payload : CdrPayload} {rest : List CdrPayload}
    (waiting : (world.statics owner).pending = payload :: rest) (ref : PubRef) (written : Bool) {control after : Control}
    {next : World} (events : List Event) (statics : next.statics = (world.drained owner payload).statics)
    (log : next.log = (world.drained owner payload).log ++ events)
    (unsent : ∀ event ∈ events, event.sentBy ref = [])
    (trace : events.flatMap (traceOf ref) =
      if owner = ref ∧ (world.statics owner).locality ≠ .sessionLocal then [.framed written [payload]] else []) :
    Moves ref ⟨world, control⟩ ⟨next, after⟩ := by
  have pushed (event : Event) (member : event ∈ world.pushes owner payload) : event.sentBy ref = [] := by
    unfold World.pushes at member
    split at member
    · obtain ⟨entry, -, rfl⟩ := List.mem_map.mp member
      rfl
    · cases member
  have sent : System.sent ⟨next, after⟩ ref = System.sent ⟨world, control⟩ ref := by
    unfold System.sent
    rw [log, World.drained_log, List.flatMap_append, List.flatMap_append, List.flatMap_eq_nil_iff.mpr pushed,
      List.flatMap_eq_nil_iff.mpr unsent, List.append_nil, List.append_nil]
  have traces : next.log.flatMap (traceOf ref) = world.log.flatMap (traceOf ref) ++
      ((world.pushes owner payload).flatMap (traceOf ref) ++ events.flatMap (traceOf ref)) := by
    rw [log, World.drained_log, List.flatMap_append, List.flatMap_append, List.append_assoc]
  by_cases mine : owner = ref
  · subst mine
    refine .draws payload written ?_ sent ?_
    · change (world.statics owner).pending = payload :: (next.statics owner).pending
      rw [statics, World.drained_pending waiting, waiting]
    · refine traces.trans (congrArg _ ?_)
      rw [trace, pushes_trace, drawnTrace, if_pos rfl]
      simp only [true_and]
  · refine .stays ?_ sent ?_
    · change (next.statics ref).pending = (world.statics ref).pending
      rw [statics, World.drained_statics, Function.update_of_ne (Ne.symm mine)]
    · refine traces.trans ?_
      rw [trace, pushes_trace, if_neg mine, if_neg fun both => mine both.1, List.append_nil, List.append_nil]

omit [Target] in
theorem statics_drained (world : World) (owner ref : PubRef) (payload : CdrPayload) :
    ((world.drained owner payload).statics ref).topic = (world.statics ref).topic ∧
      ((world.drained owner payload).statics ref).locality = (world.statics ref).locality := by
  by_cases mine : ref = owner
  · subst mine
    simp
  · simp [mine]

omit [Target] in
theorem Ready.sound {world after : World} {i : Nat} {ref : PubRef} {burst : Burst}
    {key : Option (HeaplessString maxKeyExprLen)} (ready : Ready ref key burst)
    (network : key = none ↔ (world.statics ref).locality = .sessionLocal)
    (same : (after.statics ref).locality = (world.statics ref).locality) : Sound after (.inner i burst) := by
  obtain rfl := ready.drain
  exact .inner (by rwa [same]) ready

theorem Turned.stepped {world after : World} {i : Nat} {burst : Burst} {key : Option (HeaplessString maxKeyExprLen)}
    {written : Bool} {result : Outcome Error (Bool × Burst)}
    (network : key = none ↔ (world.statics burst.drain).locality = .sessionLocal)
    (turned : Turned world burst.drain key written (result, after)) (ref : PubRef) :
    Stepped ref ⟨world, .inner i burst⟩ (settle (innerNext i) (result, after)) := by
  cases turned with
  | nothing empty sized => exact ⟨.outer sized, rfl, rfl, rfl, .stays rfl rfl rfl⟩
  | @passed _ payload rest next waiting only again =>
    obtain ⟨topic, locality⟩ := statics_drained world burst.drain ref payload
    have own := (statics_drained world burst.drain burst.drain payload).2
    refine ⟨again.sound network own, topic, locality, rfl, moves_drained waiting ref written [] rfl ?_ ?_ ?_⟩
    · exact (List.append_nil _).symm
    · simp
    · exact (if_neg fun both => both.2 (network.mp only)).symm
  | @sent payload rest next frame waiting outside alone again =>
    obtain ⟨topic, locality⟩ := statics_drained world burst.drain ref payload
    have own := (statics_drained world burst.drain burst.drain payload).2
    have remote : (world.statics burst.drain).locality ≠ .sessionLocal := fun only => outside (network.mpr only)
    refine ⟨again.sound network own, topic, locality, rfl, moves_drained waiting ref true _ rfl rfl ?_ ?_⟩
    · simp [Event.sentBy]
    · simp [traceOf, alone, remote]
  | @lost payload rest frame waiting outside alone =>
    obtain ⟨topic, locality⟩ := statics_drained world burst.drain ref payload
    have remote : (world.statics burst.drain).locality ≠ .sessionLocal := fun only => outside (network.mpr only)
    refine ⟨.idle, topic, locality, rfl, moves_drained waiting ref false _ rfl rfl ?_ ?_⟩
    · simp [Event.sentBy]
    · simp [traceOf, alone, remote]

theorem turn_stepped {system : System} (sound : Sound system.world system.control) (written : Bool) (ref : PubRef) :
    Stepped ref system (turn Ros2.drainBody written system) := by
  obtain ⟨world, control⟩ := system
  cases sound with
  | idle => exact ⟨.idle, rfl, rfl, rfl, .stays rfl rfl rfl⟩
  | @outer i buffers sized =>
    rw [turn_entered]
    refine ⟨?_, rfl, rfl, rfl, .stays rfl rfl rfl⟩
    simp only [World.entered]
    cases world.node.publishers[i]? with
    | none => exact .idle
    | some drain =>
      by_cases only : (world.statics drain).locality = .sessionLocal
      · simp only [if_pos only]
        exact .inner (iff_of_true rfl only) ⟨rfl, rfl, sized⟩
      simp only [if_neg only]
      cases (world.statics drain).topic.toKeyExpr with
      | none => exact .idle
      | some ke =>
        have ready : Ready drain (some ke) (.start drain (some ke) buffers) := ⟨rfl, rfl, sized⟩
        exact .inner (iff_of_false (by simp) only) ready
  | @inner i burst key network ready =>
    have turned : Turned world burst.drain key written _ := drainBody_turned ready written
    rcases ran : Ros2.drainBody written burst world with ⟨result, after⟩
    rw [ran] at turned
    have stepped := turned.stepped (i := i) network ref
    rw [← ran] at stepped
    exact stepped

omit [Target] in
theorem Sound.of_locality {world after : World} {control : Control} (sound : Sound world control)
    (same : ∀ ref, (after.statics ref).locality = (world.statics ref).locality) : Sound after control := by
  cases sound with
  | idle => exact .idle
  | outer sized => exact .outer sized
  | inner network ready => exact ready.sound network (same _)

omit [Target] in
theorem statics_setPublisher {world : World} {owner : PubRef} {publisher : Publisher}
    (topic : publisher.topic = (world.statics owner).topic) (locality : publisher.locality = (world.statics owner).locality)
    (ref : PubRef) : ((world.setPublisher owner publisher).statics ref).topic = (world.statics ref).topic ∧
      ((world.setPublisher owner publisher).statics ref).locality = (world.statics ref).locality := by
  by_cases mine : ref = owner
  · subst mine
    simp [topic, locality]
  · simp [mine]

theorem enters_stepped {system : System} (sound : Sound system.world system.control) {owner : PubRef}
    {publisher : Publisher} {payload : CdrPayload} (topic : publisher.topic = (system.world.statics owner).topic)
    (locality : publisher.locality = (system.world.statics owner).locality)
    (pending : publisher.pending = (system.world.statics owner).pending ++ [payload.clip]) (ref : PubRef) :
    Stepped ref system
      { system with world := (system.world.setPublisher owner publisher).note [.sent owner payload] } := by
  have same := statics_setPublisher topic locality
  refine ⟨sound.of_locality fun other => (same other).2, (same ref).1, (same ref).2, rfl, ?_⟩
  have trace : [Event.sent owner payload].flatMap (traceOf ref) = [] := rfl
  by_cases mine : owner = ref
  · subst mine
    refine .enters payload (by simpa using pending) ?_ ?_
    · simp [System.sent, Event.sentBy]
    · simp [trace]
  · refine .stays (by simp [Ne.symm mine]) ?_ ?_
    · simp [System.sent, Event.sentBy, mine]
    · simp [trace]

theorem trySend_eq_ok {publisher after : Publisher} {ty : Ty} {msg : ty.Val} {payload : CdrPayload}
    (sent : publisher.trySend ty msg = .ok (payload, after)) :
    after = { publisher with channel := publisher.channel ++ [payload] } := by
  unfold Publisher.trySend at sent
  obtain ⟨⟨n, raw⟩, -, sent⟩ := Outcome.bind_eq_ok.mp sent
  simp only at sent
  split at sent
  · cases sent
    rfl
  · cases sent

omit [Target] in
theorem pending_snoc (publisher : Publisher) (payload : CdrPayload) (stamped : List CdrPayload) :
    { publisher with channel := publisher.channel ++ [payload], stamped := stamped }.pending =
      publisher.pending ++ [payload.clip] := by
  simp [Publisher.pending]

theorem step_turn {system next : System} {written : Bool} (stepped : step system (.task (.turn written)) = some next) :
    next = turn Ros2.drainBody written system := by
  obtain ⟨world, control⟩ := system
  cases control with
  | idle => cases stepped
  | outer i buffers => exact (Option.some.inj stepped).symm
  | inner i burst => exact (Option.some.inj stepped).symm

theorem stepped_of_step {system next : System} {input : Input} (sound : Sound system.world system.control)
    (may : ∀ node, input ≠ .task (.reconnect node)) (stepped : step system input = some next) (ref : PubRef) :
    Stepped ref system next := by
  cases input with
  | trySend owner ty msg =>
    simp only [step] at stepped
    split at stepped
    · rename_i payload publisher sent
      cases stepped
      obtain rfl := trySend_eq_ok sent
      refine enters_stepped sound ?_ ?_ ?_ ref
      exacts [rfl, rfl, pending_snoc _ payload _]
    · cases stepped
      exact ⟨sound, rfl, rfl, rfl, .stays rfl rfl rfl⟩
  | task act =>
    cases act with
    | turn written =>
      -- Of the tasks, only the turns draw messages.
      rw [step_turn stepped]
      exact turn_stepped sound written ref
    | call =>
      rw [(System.step_call stepped).2]
      exact ⟨.outer Buffers.zeroed_sized, rfl, rfl, rfl, .stays rfl rfl rfl⟩
    | reconnect node => exact absurd rfl (may node)
    | enqueue owner waiting =>
      obtain ⟨⟨payload, publisher⟩, entered, same⟩ := Option.map_eq_some_iff.mp stepped
      cases same
      obtain ⟨-, rfl⟩ := Publisher.enqueue_eq_some entered
      refine enters_stepped sound ?_ ?_ ?_ ref
      exacts [rfl, rfl, pending_snoc _ payload _]
    | stamp owner data timestampNs =>
      obtain ⟨publisher, stamped, same⟩ := Option.map_eq_some_iff.mp stepped
      cases same
      have shape := Publisher.stamp_eq_some stamped
      have same := @statics_setPublisher system.world owner publisher (by rw [shape]) (by rw [shape])
      refine ⟨sound.of_locality fun other => (same other).2, (same ref).1, (same ref).2, rfl, .stays ?_ rfl rfl⟩
      by_cases mine : ref = owner
      · subst mine
        simp [shape, Publisher.pending]
      · simp [mine]

/-- The messages that were drawn from a publisher, each with the outcome of its write. -/
structure Drawn (start : Publisher) (ref : PubRef) (entries : List SubscriberEntry) (system : System)
    (drawn : List (CdrPayload × Bool)) : Prop where
  line : start.pending ++ system.sent ref = drawn.map Prod.fst ++ (system.world.statics ref).pending
  trace : system.world.log.flatMap (traceOf ref) = drawn.flatMap (drawnTrace start.locality entries)

structure Accounted (start : Publisher) (ref : PubRef) (entries : List SubscriberEntry) (system : System) : Prop where
  sound : Sound system.world system.control
  topic : (system.world.statics ref).topic = start.topic
  locality : (system.world.statics ref).locality = start.locality
  tables : localEntries system.world.node.subscribers start.topic = entries
  drawn : ∃ drawn, Drawn start ref entries system drawn

theorem Drawn.moved {start : Publisher} {ref : PubRef} {entries : List SubscriberEntry} {system next : System}
    (accounted : Accounted start ref entries system) (moves : Moves ref system next) :
    ∃ drawn, Drawn start ref entries next drawn := by
  obtain ⟨drawn, line, trace⟩ := accounted.drawn
  cases moves with
  | stays pending sent same => exact ⟨drawn, by rw [sent, pending, line], by rw [same, trace]⟩
  | enters payload pending sent same =>
    exact ⟨drawn, by rw [sent, pending, ← List.append_assoc, line, List.append_assoc], by rw [same, trace]⟩
  | draws payload written pending sent more =>
    refine ⟨drawn ++ [(payload, written)], ?_, ?_⟩
    · rw [sent, line, pending, List.map_append, List.append_assoc]
      rfl
    · rw [more, trace, List.flatMap_append, List.flatMap_singleton, accounted.topic, accounted.locality, accounted.tables]

theorem Accounted.step {start : Publisher} {ref : PubRef} {entries : List SubscriberEntry} {system next : System}
    {input : Input} (accounted : Accounted start ref entries system) (may : SameEntries start.topic entries system input)
    (stepped : Ros2.step system input = some next) : Accounted start ref entries next := by
  by_cases reconnects : ∃ node, input = .task (.reconnect node)
  · obtain ⟨node, rfl⟩ := reconnects
    rw [(System.step_reconnect stepped).2]
    obtain ⟨drawn, line, trace⟩ := accounted.drawn
    exact ⟨.idle, accounted.topic, accounted.locality, may, drawn, line, trace⟩
  · have step := stepped_of_step accounted.sound (fun node same => reconnects ⟨node, same⟩) stepped ref
    refine ⟨step.sound, step.topic.trans accounted.topic, step.locality.trans accounted.locality, ?_,
      Drawn.moved accounted step.moves⟩
    rw [step.tables, accounted.tables]

/-- A message is drawn once, in the order in which it entered: it is handed to
each local subscription of its topic, and then written in a frame of its own. If
that write fails, just this message is lost. -/
theorem each_message_once (statics : PubRef → Publisher) (node : ZenohRos2.Node) (ref : PubRef) {system : System}
    (run : Machine.Run step (SameEntries (statics ref).topic (localEntries node.subscribers (statics ref).topic))
      (.initial statics node) system) :
    ∃ drawn : List (CdrPayload × Bool),
      (statics ref).pending ++ system.sent ref = drawn.map Prod.fst ++ (system.world.statics ref).pending ∧
      system.world.log.flatMap (traceOf ref) =
        drawn.flatMap (drawnTrace (statics ref).locality (localEntries node.subscribers (statics ref).topic)) := by
  have accounted : Accounted (statics ref) ref (localEntries node.subscribers (statics ref).topic) system := by
    apply Machine.Run.invariant (Accounted (statics ref) ref _) run
    · exact ⟨.idle, rfl, rfl, rfl, [], List.append_nil _, rfl⟩
    · intro system next input _ before may stepped
      exact before.step may stepped
  obtain ⟨drawn, line, trace⟩ := accounted.drawn
  exact ⟨drawn, line, trace⟩

omit [Target] in
/-- The write of the first message fails, and the second one was tried without a number. -/
theorem each_message_once_lost :
    let chatter : TopicKeyExpr := ⟨0, "chatter", "UInt32", "hash"⟩
    let statics (_ : PubRef) : Publisher := .fresh chatter .any 8 4
    let node := { ZenohRos2.Node.built "talker" "" 0 (ZenohId.fromBytes [7]) 10000 10000 with
      publishers := [0], subscribers := [⟨1, .any, chatter, 3⟩] }
    letI := target64
    ∃ system : System, Machine.Run step (SameEntries (statics 0).topic (localEntries node.subscribers (statics 0).topic))
        (.initial statics node) system ∧ system.sent 0 = [⟨[0, 1, 0, 0], 0, 5⟩, ⟨[0, 1, 0, 0, 9, 0, 0, 0], 0, 0⟩] ∧
      ∃ drawn : List (CdrPayload × Bool),
        (statics 0).pending ++ system.sent 0 = drawn.map Prod.fst ++ (system.world.statics 0).pending ∧
        system.world.log.flatMap (traceOf 0) =
          drawn.flatMap (drawnTrace (statics 0).locality (localEntries node.subscribers (statics 0).topic)) := by
  intro chatter statics node
  let := target64
  obtain ⟨system, run, sent⟩ : ∃ system : System,
      Machine.Run step (SameEntries (statics 0).topic (localEntries node.subscribers (statics 0).topic))
        (.initial statics node) system ∧ system.sent 0 = [⟨[0, 1, 0, 0], 0, 5⟩, ⟨[0, 1, 0, 0, 9, 0, 0, 0], 0, 0⟩] :=
    Machine.exists_run [.task (.stamp 0 [0, 1, 0, 0] 5), .task (.enqueue 0 0), .task .call, .task (.turn true),
      .trySend 0 (.prim .u32) (9 : UInt32), .task (.turn false), .task .call, .task (.turn true), .task (.turn true),
      .task (.turn true), .task (.turn true)] (by decide +kernel)
  exact ⟨system, run, sent, each_message_once statics node 0 run⟩

end Runs
end Ros2
end ZenohRos2
