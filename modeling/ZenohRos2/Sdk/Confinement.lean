import ZenohRos2.Lib.Noninterference
import ZenohRos2.Sdk.Activity

/-! Messages of this session alone leave no trace on the network.

Two runs are compared that differ in such messages only, and in the turns that
drain them. What these turns leave behind in the shared buffers is never read,
so the drains of the other publishers write the same bytes.
-/

set_option autoImplicit false

namespace ZenohRos2
open Rust

/-- Both publishers are the same, or both are for their session alone. -/
def Publisher.Alike (one other : Publisher) : Prop :=
  other = one ∨ one.locality = .sessionLocal ∧ other.locality = .sessionLocal

namespace Publisher.Alike
variable {one other : Publisher}

theorem refl (publisher : Publisher) : publisher.Alike publisher := .inl rfl

theorem symm (alike : one.Alike other) : other.Alike one := by
  rcases alike with same | both
  · exact .inl same.symm
  · exact .inr both.symm

theorem eq (alike : one.Alike other) (outside : one.locality ≠ .sessionLocal) : other = one :=
  alike.resolve_right fun both => outside both.1

theorem locality (alike : one.Alike other) : other.locality = one.locality := by
  rcases alike with rfl | both
  · rfl
  · exact both.2.trans both.1.symm

theorem taken (alike : one.Alike other) : one.taken.Alike other.taken := by
  rcases alike with rfl | both
  · exact .refl _
  · exact .inr ⟨one.taken_locality.trans both.1, other.taken_locality.trans both.2⟩

theorem stashRetry (alike : one.Alike other) (payload : CdrPayload) :
    (one.stashRetry payload.data payload.seqNum payload.timestampNs).Alike
      (other.stashRetry payload.data payload.seqNum payload.timestampNs) := by
  rcases alike with rfl | both
  · exact .refl _
  · exact .inr both

end Publisher.Alike

structure World.Alike (one other : World) : Prop where
  node : other.node = one.node
  statics : ∀ ref, (one.statics ref).Alike (other.statics ref)

namespace World.Alike
variable {one other : World} {ref : PubRef} {publisher second : Publisher}

theorem symm (alike : one.Alike other) : other.Alike one :=
  ⟨alike.node.symm, fun ref => (alike.statics ref).symm⟩

theorem setPublisher (alike : one.Alike other) (ref : PubRef) (same : publisher.Alike second) :
    (one.setPublisher ref publisher).Alike (other.setPublisher ref second) := by
  refine ⟨alike.node, fun owner => ?_⟩
  by_cases own : owner = ref
  · subst own
    simpa using same
  · simpa [own] using alike.statics owner

theorem setLeft (alike : one.Alike other) (only : (one.statics ref).locality = .sessionLocal)
    (still : publisher.locality = .sessionLocal) : (one.setPublisher ref publisher).Alike other := by
  refine ⟨alike.node, fun owner => ?_⟩
  by_cases own : owner = ref
  · subst own
    have same := (alike.statics owner).locality
    simpa [Publisher.Alike] using Or.inr ⟨still, same.trans only⟩
  · simpa [own] using alike.statics owner

theorem note (alike : one.Alike other) (events others : List Event) : (one.note events).Alike (other.note others) :=
  ⟨alike.node, alike.statics⟩

theorem noteLeft (alike : one.Alike other) (events : List Event) : (one.note events).Alike other :=
  ⟨alike.node, alike.statics⟩

theorem countSn (alike : one.Alike other) : one.countSn.Alike other.countSn :=
  ⟨by simp [World.countSn, alike.node], alike.statics⟩

theorem drained (alike : one.Alike other) (ref : PubRef) (payload : CdrPayload) :
    (one.drained ref payload).Alike (other.drained ref payload) :=
  (alike.setPublisher ref (alike.statics ref).taken).note _ _

theorem stashed (alike : one.Alike other) (ref : PubRef) (payload : CdrPayload) :
    (one.stashed ref payload).Alike (other.stashed ref payload) :=
  (alike.setPublisher ref ((alike.statics ref).stashRetry payload)).note _ _

end World.Alike

/-- The calls are at the same place, whatever is left in their buffers. -/
inductive Control.Alike (one other : World) : Control → Control → Prop where
  | idle (returned : Option (Outcome Error Unit)) : Alike one other (.idle returned) (.idle returned)
  | outer {i : Nat} {buffers others : Buffers} (sized : buffers.Sized) (second : others.Sized) :
      Alike one other (.outer i buffers) (.outer i others)
  | session {i : Nat} {ref : PubRef} {burst another : Burst} (only : (one.statics ref).locality = .sessionLocal)
      (also : (other.statics ref).locality = .sessionLocal) (ready : LocalBurst ref burst)
      (second : LocalBurst ref another) : Alike one other (.inner i burst) (.inner i another)
  | network {i : Nat} {ref : PubRef} {ke : HeaplessString maxKeyExprLen} {flight : List CdrPayload}
      {burst another : Burst} (outside : (one.statics ref).locality ≠ .sessionLocal)
      (also : (other.statics ref).locality ≠ .sessionLocal) (ready : Sdk.Ready one.node ref ke burst flight)
      (second : Sdk.Ready other.node ref ke another flight) : Alike one other (.inner i burst) (.inner i another)

namespace Control.Alike
variable {one other before after : World} {control second : Control}

theorem symm (alike : Control.Alike one other control second) : Control.Alike other one second control := by
  cases alike with
  | idle returned => exact .idle returned
  | outer sized second => exact .outer second sized
  | session only also ready second => exact .session also only second ready
  | network outside also ready second => exact .network also outside second ready

theorem of_same (alike : Control.Alike one other control second) (node : before.node = one.node)
    (locality : ∀ ref, (before.statics ref).locality = (one.statics ref).locality) (others : after.node = other.node)
    (localities : ∀ ref, (after.statics ref).locality = (other.statics ref).locality) :
    Control.Alike before after control second := by
  cases alike with
  | idle returned => exact .idle returned
  | outer sized second => exact .outer sized second
  | session only also ready second =>
    exact .session ((locality _).trans only) ((localities _).trans also) ready second
  | network outside also ready second =>
    exact .network (by rwa [locality]) (by rwa [localities]) (node ▸ ready) (others ▸ second)

end Control.Alike

structure System.Alike (one other : System) : Prop where
  world : one.world.Alike other.world
  control : Control.Alike one.world other.world one.control other.control

theorem System.Alike.symm {one other : System} (alike : one.Alike other) : other.Alike one :=
  ⟨alike.world.symm, alike.control.symm⟩

theorem World.attemptsSince_of_log {before after : World} (events : List Event)
    (log : after.log = before.log ++ events) : after.attemptsSince before = events.filterMap Event.attempt := by
  rw [attemptsSince, log, List.drop_left]

@[simp] theorem World.pushes_attempts (world : World) (ref : PubRef) (payload : CdrPayload) :
    (world.pushes ref payload).filterMap Event.attempt = [] := by
  rw [pushes_eq, List.filterMap_map, List.filterMap_eq_nil_iff]
  intro entry _
  rfl

/-- Both steps try the same frames, and lead to systems that are alike. -/
structure StayAlike (one other next after : System) : Prop where
  alike : next.Alike after
  attempts : next.world.attemptsSince one.world = after.world.attemptsSince other.world

theorem Sdk.Batched.pos_eq {node : Node} {ref : PubRef} {ke : HeaplessString maxKeyExprLen} {burst : Burst}
    {flight : List CdrPayload} (batched : Batched node ref ke burst flight) (flying : flight ≠ []) :
    burst.pos = (flightFrame node ke flight).length := by
  have room : burst.frameBuf.length = txFrameBuf := batched.sized.2
  rw [← batched.batch flying, List.length_take, room, Nat.min_eq_left (batched.inside flying)]

section Turns
variable [Target] {one other : World} {ref : PubRef} {ke : HeaplessString maxKeyExprLen} {burst second : Burst}
  {flight : List CdrPayload} {i : Nat} {written : Bool}

omit [Target] in
theorem stayAlike_of_log {before after : World} {control another next after' : Control} (events others : List Event)
    (log : before.log = one.log ++ events) (logs : after.log = other.log ++ others)
    (attempts : events.filterMap Event.attempt = others.filterMap Event.attempt) (alike : before.Alike after)
    (controls : Control.Alike before after next after') :
    StayAlike ⟨one, control⟩ ⟨other, another⟩ ⟨before, next⟩ ⟨after, after'⟩ :=
  ⟨⟨alike, controls⟩, by rw [World.attemptsSince_of_log events log, World.attemptsSince_of_log others logs, attempts]⟩

theorem drainBody_stayAlike_nil (alike : one.Alike other) (same : other.statics ref = one.statics ref)
    (ready : Sdk.Ready one.node ref ke burst flight) (also : Sdk.Ready other.node ref ke second flight)
    (empty : (one.statics ref).pending = []) :
    StayAlike ⟨one, .inner i burst⟩ ⟨other, .inner i second⟩
      (settle (innerNext i) (Sdk.drainBody written burst one))
      (settle (innerNext i) (Sdk.drainBody written second other)) := by
  have frame : Sdk.flightFrame other.node ke flight = Sdk.flightFrame one.node ke flight := by rw [alike.node]
  have vacant : (other.statics ref).pending = [] := by rw [same, empty]
  by_cases flying : flight = []
  · subst flying
    rw [Sdk.drainBody_nothing ready empty, Sdk.drainBody_nothing also vacant]
    exact stayAlike_of_log [] [] (List.append_nil _).symm (List.append_nil _).symm rfl alike
      (.outer ready.sized also.sized)
  cases written with
  | true =>
    rw [Sdk.drainBody_finished ready empty flying, Sdk.drainBody_finished also vacant flying, frame]
    exact stayAlike_of_log [.wrote ref _] [.wrote ref _] rfl rfl rfl (alike.note _ _) (.outer ready.sized also.sized)
  | false =>
    have last := List.getLast?_eq_some_getLast flying
    rw [(Sdk.drainBody_finishFailed ready empty last).1, (Sdk.drainBody_finishFailed also vacant last).1, frame]
    exact stayAlike_of_log [.failed .drained ref _, .stashed ref _ _] [.failed .drained ref _, .stashed ref _ _]
      (List.append_assoc _ _ _) (List.append_assoc _ _ _) rfl ((alike.note _ _).stashed ref _) (.idle _)

theorem drainBody_stayAlike (alike : one.Alike other) (outside : (one.statics ref).locality ≠ .sessionLocal)
    (ready : Sdk.Ready one.node ref ke burst flight) (also : Sdk.Ready other.node ref ke second flight) :
    StayAlike ⟨one, .inner i burst⟩ ⟨other, .inner i second⟩
      (settle (innerNext i) (Sdk.drainBody written burst one))
      (settle (innerNext i) (Sdk.drainBody written second other)) := by
  have same : other.statics ref = one.statics ref := (alike.statics ref).eq outside
  have frame : Sdk.flightFrame other.node ke flight = Sdk.flightFrame one.node ke flight := by rw [alike.node]
  cases waiting : (one.statics ref).pending with
  | nil => exact drainBody_stayAlike_nil alike same ready also waiting
  | cons payload rest =>
    have waits : (other.statics ref).pending = payload :: rest := by rw [same, waiting]
    have still : ((one.drained ref payload).statics ref).locality ≠ .sessionLocal := by simpa using outside
    have stays : ((other.drained ref payload).statics ref).locality ≠ .sessionLocal := by simpa [same] using outside
    by_cases flying : flight = []
    · subst flying
      obtain ⟨next, again, ran⟩ := Sdk.drainBody_first ready waiting written
      obtain ⟨after, repeated, followed⟩ := Sdk.drainBody_first also waits written
      rw [ran, followed]
      exact stayAlike_of_log _ _ rfl rfl (by simp) (alike.drained ref payload).countSn
        (.network still stays again repeated)
    -- Both batches are the same bytes, so both are full or none.
    have position : second.pos = burst.pos := by
      rw [also.toBatched.pos_eq flying, ready.toBatched.pos_eq flying, frame]
    by_cases full : burst.pos + Sdk.msgEst ke payload.data.length > txFrameBuf
    · have filled : second.pos + Sdk.msgEst ke payload.data.length > txFrameBuf := by rwa [position]
      cases written with
      | true =>
        obtain ⟨next, again, ran⟩ := Sdk.drainBody_flushed ready waiting flying full
        obtain ⟨after, repeated, followed⟩ := Sdk.drainBody_flushed also waits flying filled
        rw [ran, followed, frame]
        apply stayAlike_of_log (one.pushes ref payload ++ [.wrote ref (Sdk.flightFrame one.node ke flight)])
          (other.pushes ref payload ++ [.wrote ref (Sdk.flightFrame one.node ke flight)])
        · exact List.append_assoc _ _ _
        · exact List.append_assoc _ _ _
        · simp [Event.attempt]
        · exact ((alike.drained ref payload).note _ _).countSn
        · exact .network still stays again repeated
      | false =>
        rw [Sdk.drainBody_refused ready waiting flying full, Sdk.drainBody_refused also waits flying filled, frame]
        apply stayAlike_of_log
          (one.pushes ref payload ++
            [.failed .full ref (Sdk.flightFrame one.node ke flight), .stashed ref payload false])
          (other.pushes ref payload ++
            [.failed .full ref (Sdk.flightFrame one.node ke flight), .stashed ref payload false])
        · simp [World.stashed]
        · simp [World.stashed]
        · simp [Event.attempt]
        · exact ((alike.drained ref payload).note _ _).stashed ref payload
        · exact .idle _
    · obtain ⟨next, again, ran⟩ := Sdk.drainBody_behind ready waiting flying (Nat.le_of_not_gt full) written
      obtain ⟨after, repeated, followed⟩ := Sdk.drainBody_behind also waits flying
        (by rw [position]; exact Nat.le_of_not_gt full) written
      rw [ran, followed]
      exact stayAlike_of_log _ _ rfl rfl (by simp) (alike.drained ref payload)
        (.network still stays again repeated)

omit [Target] in
theorem World.Alike.entered (alike : one.Alike other) (i : Nat) {buffers others : Buffers} (sized : buffers.Sized)
    (also : others.Sized) : Control.Alike one other (one.entered i buffers) (other.entered i others) := by
  unfold World.entered
  rw [alike.node]
  cases one.node.publishers[i]? with
  | none => exact .idle _
  | some drain =>
    have place := (alike.statics drain).locality
    by_cases only : (one.statics drain).locality = .sessionLocal
    · simp only [if_pos only, if_pos (place.trans only)]
      exact .session only (place.trans only) (.start drain sized) (.start drain also)
    · simp only [if_neg only, (alike.statics drain).eq only]
      cases (one.statics drain).topic.toKeyExpr with
      | none => exact .idle _
      | some ke =>
        exact .network only (place ▸ only) (.start one.node drain ke sized) (.start other.node drain ke also)

end Turns

/-- A message through a publisher of this session alone is sent, or drained. -/
def System.Hidden (system : System) : Act → Prop
  | .stamp ref _ _ => (system.world.statics ref).locality = .sessionLocal
  | .enqueue ref _ => (system.world.statics ref).locality = .sessionLocal
  | .turn _ => ∃ ref ∈ system.control.drain,
    (system.world.statics ref).locality = .sessionLocal ∧ (system.world.statics ref).pending ≠ []
  | _ => False

instance (system : System) : (act : Act) → Decidable (system.Hidden act)
  | .stamp .. => inferInstanceAs (Decidable (_ = _))
  | .enqueue .. => inferInstanceAs (Decidable (_ = _))
  | .turn _ => inferInstanceAs (Decidable (∃ ref ∈ system.control.drain, _))
  | .call => inferInstanceAs (Decidable False)
  | .reconnect _ => inferInstanceAs (Decidable False)

section Steps
variable [Target] {one other next after : System} {act : Act}

namespace System.Alike

omit [Target] in
theorem moved (alike : one.Alike other) {world second : World} (worlds : world.Alike second)
    (node : world.node = one.world.node)
    (locality : ∀ ref, (world.statics ref).locality = (one.world.statics ref).locality) :
    System.Alike ⟨world, one.control⟩ ⟨second, other.control⟩ := by
  refine ⟨worlds, alike.control.of_same node locality ?_ fun ref => ?_⟩
  · rw [worlds.node, node, alike.world.node]
  · rw [(worlds.statics ref).locality, locality, (alike.world.statics ref).locality]

omit [Target] in
theorem left (alike : one.Alike other) {world : World} (worlds : world.Alike other.world)
    (node : world.node = one.world.node) : System.Alike ⟨world, one.control⟩ other :=
  alike.moved worlds node fun ref => (worlds.statics ref).locality.symm.trans (alike.world.statics ref).locality

theorem hidden (alike : one.Alike other) (unseen : one.Hidden act) (step : one.step act = some next) :
    next.Alike other ∧ next.world.attemptsSince one.world = [] := by
  cases act with
  | stamp ref data timestampNs =>
    obtain ⟨publisher, stamped, rfl⟩ := Option.map_eq_some_iff.mp step
    have still : publisher.locality = .sessionLocal := by
      rw [Publisher.stamp_eq_some stamped]
      exact unseen
    exact ⟨alike.left (alike.world.setLeft unseen still) rfl,
      World.attemptsSince_of_log [] (List.append_nil _).symm⟩
  | enqueue ref waiting =>
    obtain ⟨⟨payload, publisher⟩, entered, rfl⟩ := Option.map_eq_some_iff.mp step
    have still : publisher.locality = .sessionLocal := by
      rw [(Publisher.enqueue_eq_some entered).2]
      exact unseen
    have worlds := (alike.world.setLeft unseen still).noteLeft [.sent ref payload]
    exact ⟨alike.left worlds rfl, World.attemptsSince_of_log [.sent ref payload] rfl⟩
  | turn written =>
    obtain ⟨-, rfl⟩ := System.step_turn step
    obtain ⟨ref, draining, only, nonempty⟩ := unseen
    obtain ⟨world, control⟩ := one
    obtain ⟨second, another⟩ := other
    obtain ⟨worlds, controls⟩ := alike
    simp only at worlds controls only nonempty
    -- Only the call that drains this publisher of the session can make a hidden turn.
    cases controls with
    | idle => cases draining
    | outer => cases draining
    | @session i owner burst twin mine also ready again =>
      obtain rfl : burst.drain = ref := Option.some.inj draining
      obtain rfl : burst.drain = owner := ready.drain
      obtain ⟨payload, rest, waiting⟩ := List.exists_cons_of_ne_nil nonempty
      obtain ⟨next, ready', ran⟩ := Sdk.drainBody_local_cons ready waiting written
      change (settle (innerNext i) (Sdk.drainBody written burst world)).Alike ⟨second, .inner i twin⟩ ∧
        (settle (innerNext i) (Sdk.drainBody written burst world)).world.attemptsSince world = []
      rw [ran]
      have still : ((world.drained burst.drain payload).statics burst.drain).locality = .sessionLocal := by
        simpa using only
      refine ⟨⟨?_, .session still also ready' again⟩, ?_⟩
      · exact (worlds.setLeft only ((world.statics burst.drain).taken_locality.trans only)).noteLeft _
      · exact (World.attemptsSince_of_log _ rfl).trans (World.pushes_attempts world _ payload)
    | @network i owner ke flight burst twin outside also ready again =>
      obtain rfl : burst.drain = ref := Option.some.inj draining
      rw [ready.drain] at only
      exact absurd only outside
  | call => cases unseen
  | reconnect node => cases unseen

theorem turn {written : Bool} (alike : one.Alike other) (first : ¬one.Hidden (.turn written))
    (second : ¬other.Hidden (.turn written)) :
    StayAlike one other (ZenohRos2.turn Sdk.drainBody written one) (ZenohRos2.turn Sdk.drainBody written other) := by
  obtain ⟨world, control⟩ := one
  obtain ⟨another, place⟩ := other
  obtain ⟨worlds, controls⟩ := alike
  simp only at worlds controls
  cases controls with
  | idle returned =>
    exact stayAlike_of_log [] [] (List.append_nil _).symm (List.append_nil _).symm rfl worlds (.idle returned)
  | @outer i buffers others sized also =>
    rw [turn_entered, turn_entered]
    exact stayAlike_of_log [] [] (List.append_nil _).symm (List.append_nil _).symm rfl worlds
      (worlds.entered i sized also)
  | @session i ref burst twin only also ready again =>
    -- Turns that drain something are hidden, so both queues are empty here.
    have empty : (world.statics ref).pending = [] :=
      Classical.not_not.mp fun nonempty => first ⟨ref, congrArg some ready.drain, only, nonempty⟩
    have vacant : (another.statics ref).pending = [] :=
      Classical.not_not.mp fun nonempty => second ⟨ref, congrArg some again.drain, also, nonempty⟩
    change StayAlike _ _ (settle (innerNext i) (Sdk.drainBody written burst world))
      (settle (innerNext i) (Sdk.drainBody written twin another))
    rw [Sdk.drainBody_local_nil ready empty, Sdk.drainBody_local_nil again vacant]
    exact stayAlike_of_log [] [] (List.append_nil _).symm (List.append_nil _).symm rfl worlds
      (.outer ready.sized again.sized)
  | network outside also ready again => exact drainBody_stayAlike worlds outside ready again

theorem shown (alike : one.Alike other) (first : ¬one.Hidden act) (second : ¬other.Hidden act)
    (step : one.step act = some next) (also : other.step act = some after) : StayAlike one other next after := by
  cases act with
  | stamp ref data timestampNs =>
    obtain ⟨publisher, stamped, rfl⟩ := Option.map_eq_some_iff.mp step
    obtain ⟨twin, stamps, rfl⟩ := Option.map_eq_some_iff.mp also
    -- The step is seen, so the publisher is the same in both runs.
    rw [(alike.world.statics ref).eq first, stamped] at stamps
    cases stamps
    have locality : publisher.locality = (one.world.statics ref).locality := by
      rw [Publisher.stamp_eq_some stamped]
    exact ⟨alike.moved (alike.world.setPublisher ref (.refl publisher)) rfl (World.setPublisher_locality locality),
      (World.attemptsSince_of_log [] (List.append_nil _).symm).trans
        (World.attemptsSince_of_log [] (List.append_nil _).symm).symm⟩
  | enqueue ref waiting =>
    obtain ⟨⟨payload, publisher⟩, entered, rfl⟩ := Option.map_eq_some_iff.mp step
    obtain ⟨⟨message, twin⟩, enters, rfl⟩ := Option.map_eq_some_iff.mp also
    rw [(alike.world.statics ref).eq first, entered] at enters
    cases enters
    have locality : publisher.locality = (one.world.statics ref).locality := by
      rw [(Publisher.enqueue_eq_some entered).2]
    have worlds := (alike.world.setPublisher ref (.refl publisher)).note [.sent ref payload] [.sent ref payload]
    exact ⟨alike.moved worlds rfl (World.setPublisher_locality locality),
      (World.attemptsSince_of_log [.sent ref payload] rfl).trans
        (World.attemptsSince_of_log [.sent ref payload] rfl).symm⟩
  | call =>
    obtain ⟨-, rfl⟩ := System.step_call step
    obtain ⟨-, rfl⟩ := System.step_call also
    exact stayAlike_of_log [] [] (List.append_nil _).symm (List.append_nil _).symm rfl alike.world
      (.outer Buffers.zeroed_sized Buffers.zeroed_sized)
  | turn written =>
    obtain ⟨-, rfl⟩ := System.step_turn step
    obtain ⟨-, rfl⟩ := System.step_turn also
    exact alike.turn first second
  | reconnect node =>
    obtain ⟨-, rfl⟩ := System.step_reconnect step
    obtain ⟨-, rfl⟩ := System.step_reconnect also
    exact stayAlike_of_log [] [] (List.append_nil _).symm (List.append_nil _).symm rfl ⟨rfl, alike.world.statics⟩
      (.idle none)

end System.Alike
end Steps
namespace Activity

/-- What a run does only for the messages of this session alone. -/
def Hidden (activity : Activity) : Input → Prop
  | .stamp ref data timestampNs => activity.system.Hidden (.stamp ref data timestampNs)
  | .enqueue ref waiting => activity.system.Hidden (.enqueue ref waiting)
  | .turn => activity.system.Hidden (.turn (activity.outcomes activity.tried))
  | _ => False

instance (activity : Activity) : (input : Input) → Decidable (activity.Hidden input)
  | .stamp ref data timestampNs => inferInstanceAs (Decidable (activity.system.Hidden (.stamp ref data timestampNs)))
  | .enqueue ref waiting => inferInstanceAs (Decidable (activity.system.Hidden (.enqueue ref waiting)))
  | .turn => inferInstanceAs (Decidable (activity.system.Hidden (.turn (activity.outcomes activity.tried))))
  | .createPublisher _ => inferInstanceAs (Decidable False)
  | .createSubscription .. => inferInstanceAs (Decidable False)
  | .registerTimer .. => inferInstanceAs (Decidable False)
  | .drainPublishers => inferInstanceAs (Decidable False)
  | .spin => inferInstanceAs (Decidable False)
  | .receive _ => inferInstanceAs (Decidable False)
  | .sendKeepalive => inferInstanceAs (Decidable False)

structure Alike (one other : Activity) : Prop where
  system : one.system.Alike other.system
  fragAsm : other.fragAsm = one.fragAsm
  outcomes : other.outcomes = one.outcomes
  tried : other.tried = one.tried
  sent : other.sent = one.sent

section Runs
variable [Target] {one other next after : Activity} {localities : SubRef → Locality}

namespace Alike

omit [Target] in
theorem symm (alike : one.Alike other) : other.Alike one :=
  ⟨alike.system.symm, alike.fragAsm.symm, alike.outcomes.symm, alike.tried.symm, alike.sent.symm⟩

omit [Target] in
theorem session (alike : one.Alike other) : other.session = one.session := by
  simp only [Activity.session, alike.system.world.node, alike.outcomes, alike.tried, alike.sent]

omit [Target] in
theorem call (alike : one.Alike other) {method second : Method Unit} (same : second one.session = method one.session)
    (ran : one.call method = some next) (also : other.call second = some after) : next.Alike after := by
  obtain ⟨⟨returned, idle⟩, rfl⟩ := call_eq_some ran
  obtain ⟨⟨result, ended⟩, rfl⟩ := call_eq_some also
  rw [alike.session, same]
  have controls := alike.system.control
  rw [idle, ended] at controls
  cases controls
  refine ⟨⟨⟨rfl, alike.system.world.statics⟩, ?_⟩, alike.fragAsm, rfl, rfl, rfl⟩
  change Control.Alike _ _ one.system.control other.system.control
  rw [idle, ended]
  exact .idle returned

theorem hidden (alike : one.Alike other) (act : Act) (unseen : one.system.Hidden act)
    (ran : one.task act = some next) : next.Alike other := by
  obtain ⟨system, step, rfl⟩ := Option.map_eq_some_iff.mp ran
  obtain ⟨still, nothing⟩ := alike.system.hidden unseen step
  refine ⟨still, alike.fragAsm, alike.outcomes, ?_, ?_⟩
  · simp [nothing, alike.tried]
  · simp [nothing, alike.sent]

theorem shown (alike : one.Alike other) (act : Act) (first : ¬one.system.Hidden act)
    (second : ¬other.system.Hidden act) (ran : one.task act = some next) (also : other.task act = some after) :
    next.Alike after := by
  obtain ⟨system, step, rfl⟩ := Option.map_eq_some_iff.mp ran
  obtain ⟨twin, steps, rfl⟩ := Option.map_eq_some_iff.mp also
  obtain ⟨still, attempts⟩ := alike.system.shown first second step steps
  refine ⟨still, alike.fragAsm, alike.outcomes, ?_, ?_⟩
  · simp only [attempts, alike.tried]
  · simp only [attempts, alike.sent]

theorem receive {frame : Bytes} (alike : one.Alike other) (ran : one.receive frame = some next)
    (also : other.receive frame = some after) : next.Alike after := by
  unfold Activity.receive at ran also
  split at ran
  · split at also
    · rw [alike.system.world.node, alike.fragAsm] at also
      cases handed : dispatchFrame one.system.world.node frame one.fragAsm with
      | ok result =>
        rw [handed] at ran also
        cases ran
        cases also
        exact ⟨alike.system, rfl, alike.outcomes, alike.tried, alike.sent⟩
      | err error =>
        rw [handed] at ran also
        cases ran
        cases also
        exact ⟨alike.system, rfl, alike.outcomes, alike.tried, alike.sent⟩
      | panic fault =>
        rw [handed] at ran
        cases ran
    · cases also
  · cases ran

end Alike

theorem createPublisher_alike {publisher second : Publisher} (alike : publisher.Alike second) (ref : PubRef) :
    ZenohRos2.createPublisher second ref = ZenohRos2.createPublisher publisher ref := by
  rcases alike with rfl | both
  · rfl
  · simp [ZenohRos2.createPublisher, both.1, both.2]

theorem unwinds (localities : SubRef → Locality) : Machine.Unwinds (step localities) Hidden Alike := by
  have left {one other next : Activity} {input : Input} (before : one.Alike other) (unseen : one.Hidden input)
      (stepped : one.step localities input = some next) : next.Alike other := by
    cases input with
    | stamp ref data timestampNs => exact before.hidden (.stamp ref data timestampNs) unseen stepped
    | enqueue ref waiting => exact before.hidden (.enqueue ref waiting) unseen stepped
    | turn => exact before.hidden (.turn _) unseen stepped
    | createPublisher ref => cases unseen
    | createSubscription topic dispatch => cases unseen
    | registerTimer now period => cases unseen
    | drainPublishers => cases unseen
    | spin => cases unseen
    | receive frame => cases unseen
    | sendKeepalive => cases unseen
  refine ⟨left, fun before unseen stepped => (left before.symm unseen stepped).symm, ?_⟩
  intro one other next after input before first second stepped followed
  cases input with
  | stamp ref data timestampNs => exact before.shown (.stamp ref data timestampNs) first second stepped followed
  | enqueue ref waiting => exact before.shown (.enqueue ref waiting) first second stepped followed
  | drainPublishers => exact before.shown .call id id stepped followed
  | turn =>
    -- The next write ends alike in both runs: the same number of writes were tried.
    have same : other.outcomes other.tried = one.outcomes one.tried := by rw [before.outcomes, before.tried]
    simp only [Hidden, Activity.step, same] at second followed
    exact before.shown (.turn _) first second stepped followed
  | createPublisher ref =>
    have same := createPublisher_alike (before.system.world.statics ref) ref
    exact before.call (congrFun same _) stepped followed
  | createSubscription topic dispatch => exact before.call rfl stepped followed
  | registerTimer now period =>
    let method : Method Unit := Method.modifyNode fun node => (node.registerTimer now period).2
    have ran : one.call method = some next := stepped
    have also : other.call method = some after := followed
    exact before.call rfl ran also
  | sendKeepalive => exact before.call rfl stepped followed
  | receive frame => exact before.receive stepped followed
  | spin =>
    simp only [Activity.step] at stepped followed
    split at stepped
    · split at followed
      · cases stepped
        cases followed
        exact ⟨before.system, rfl, before.outcomes, before.tried, before.sent⟩
      · cases followed
    · cases stepped

omit [Target] in
theorem start_alike {statics others : PubRef → Publisher} (alike : ∀ ref, (statics ref).Alike (others ref))
    (nodeName «namespace» : String) (domainId : UInt32) (gid : ZenohId) (routerLeaseMs ourLeaseMs : UInt64)
    (outcomes : Nat → Bool) :
    (start statics nodeName «namespace» domainId gid routerLeaseMs ourLeaseMs outcomes).Alike
      (start others nodeName «namespace» domainId gid routerLeaseMs ourLeaseMs outcomes) :=
  ⟨⟨⟨rfl, alike⟩, .idle none⟩, rfl, rfl, rfl, rfl⟩

/-- Two runs that differ in the messages of this session alone write the same
frames, and whatever a run pushes stays within its localities. -/
theorem locality_confined (localities : SubRef → Locality) (statics : PubRef → Publisher)
    (nodeName «namespace» : String) (domainId : UInt32) (gid : ZenohId) (routerLeaseMs ourLeaseMs : UInt64)
    (outcomes : Nat → Bool) :
    (∀ (others : PubRef → Publisher) (inputs variants : List Input) (last final : Activity),
      (∀ ref, (statics ref).Alike (others ref)) →
      Machine.execute (step localities) (fun _ _ => True) inputs
        (start statics nodeName «namespace» domainId gid routerLeaseMs ourLeaseMs outcomes) = some last →
      Machine.execute (step localities) (fun _ _ => True) variants
        (start others nodeName «namespace» domainId gid routerLeaseMs ourLeaseMs outcomes) = some final →
      Machine.seen (step localities) Hidden
          (start statics nodeName «namespace» domainId gid routerLeaseMs ourLeaseMs outcomes) inputs =
        Machine.seen (step localities) Hidden
          (start others nodeName «namespace» domainId gid routerLeaseMs ourLeaseMs outcomes) variants →
      last.sent = final.sent) ∧
    (∀ (inputs : List Input) (last : Activity),
      Machine.execute (step localities) (fun _ _ => True) inputs
        (start statics nodeName «namespace» domainId gid routerLeaseMs ourLeaseMs outcomes) = some last →
      ∀ push ∈ last.pushes, Confined localities statics last push) := by
  constructor
  · intro others inputs variants last final alike ran also same
    have first := start_alike alike nodeName «namespace» domainId gid routerLeaseMs ourLeaseMs outcomes
    exact ((unwinds localities).runs first ran also same).sent.symm
  · intro inputs last ran push member
    have sound : Sound localities statics last :=
      (Machine.run_of_execute ran).invariant (Sound localities statics)
        (start_sound localities statics nodeName «namespace» domainId gid routerLeaseMs ourLeaseMs outcomes)
        fun _ before _ stepped => before.step stepped
    exact sound.confined member

omit [Target] in
/-- With two messages more for this session alone, the node writes the same. -/
theorem locality_confined_two_more :
    letI := target64
    let chatter : TopicKeyExpr := ⟨0, "chatter", "String", "hash"⟩
    let odom : TopicKeyExpr := ⟨0, "odom", "Odometry", "hash"⟩
    let statics : PubRef → Publisher := fun ref =>
      if ref = 0 then .fresh chatter .sessionLocal 8 4 else .fresh odom .any 8 4
    let registered : List Input := [.createPublisher 0, .createPublisher 1, .createSubscription chatter 0,
      .stamp 1 [7] 0, .enqueue 1 0]
    let drain : List Input := [.drainPublishers, .turn, .turn, .turn, .turn, .turn, .turn]
    let more : List Input := [.stamp 0 [5] 0, .stamp 0 [6] 0, .enqueue 0 0, .enqueue 0 0, .drainPublishers, .turn,
      .turn, .turn, .turn, .turn, .turn, .turn, .turn]
    let initial := start statics "node" "" 0 (ZenohId.fromBytes [7]) 10000 10000 fun _ => true
    ∃ last final,
      Machine.execute (step fun _ => .sessionLocal) (fun _ _ => True) (registered ++ drain) initial = some last ∧
      Machine.execute (step fun _ => .sessionLocal) (fun _ _ => True) (registered ++ more) initial = some final ∧
      last.sent.length = 2 ∧ last.sent = final.sent ∧
      final.pushes.map (fun push => (push.1, push.2.payload)) = [(.drained 0, [5]), (.drained 0, [6])] ∧
      ∀ push ∈ final.pushes, Confined (fun _ => .sessionLocal) statics final push := by
  let := target64
  intro chatter odom statics registered drain more initial
  have first : (Machine.execute (step fun _ => .sessionLocal) (fun _ _ => True) (registered ++ drain) initial).any
      fun last => decide (last.sent.length = 2) := by decide +kernel
  have second : (Machine.execute (step fun _ => .sessionLocal) (fun _ _ => True) (registered ++ more) initial).any
      fun final => decide (final.pushes.map (fun push => (push.1, push.2.payload)) =
        [(.drained 0, [5]), (.drained 0, [6])]) := by decide +kernel
  have same : Machine.seen (step fun _ => .sessionLocal) Hidden initial (registered ++ drain) =
      Machine.seen (step fun _ => .sessionLocal) Hidden initial (registered ++ more) := by decide +kernel
  obtain ⟨last, ran, written⟩ := (Option.any_eq_true _ _).mp first
  obtain ⟨final, also, pushed⟩ := (Option.any_eq_true _ _).mp second
  obtain ⟨silent, confined⟩ := locality_confined (fun _ => .sessionLocal) statics "node" "" 0 (ZenohId.fromBytes [7])
    10000 10000 fun _ => true
  exact ⟨last, final, ran, also, of_decide_eq_true written,
    silent statics _ _ last final (fun ref => .refl (statics ref)) ran also same, of_decide_eq_true pushed,
    confined _ final also⟩

end Runs
end Activity
end ZenohRos2
