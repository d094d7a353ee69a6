import ZenohRos2.Sdk.LocalDelivery

/-! What the other side of the link makes of the frames of a drain.

A router sees frames, not publishers: it takes the messages of a frame apart
and finds the key expression of its publisher in each of them.
-/

set_option autoImplicit false

namespace ZenohRos2
open Rust

section Writes
variable [Target]

theorem Sdk.Turned.writes {world after : World} {ref : PubRef} {ke : HeaplessString maxKeyExprLen}
    {flight : List CdrPayload} {written : Bool} {result : Outcome Error (Bool × Burst)}
    (turned : Turned world ref ke flight written (result, after)) :
    ∃ events, after.log = world.log ++ events ∧
      (∀ owner frame, Event.wrote owner frame ∈ events → owner = ref ∧ flight ≠ [] ∧
        frame = flightFrame world.node ke flight) ∧
      (written = true → ∀ point owner frame, Event.failed point owner frame ∉ events) := by
  have pushes (payload : CdrPayload) (event : Event) (member : event ∈ world.pushes ref payload) :
      ∃ entry, event = .pushed ref payload entry := by
    rw [World.pushes_eq] at member
    obtain ⟨entry, -, same⟩ := List.mem_map.mp member
    exact ⟨entry, same.symm⟩
  have unwritten (payload : CdrPayload) (owner : PubRef) (frame : Bytes) :
      Event.wrote owner frame ∉ world.pushes ref payload := fun member => by
    obtain ⟨entry, same⟩ := pushes payload _ member
    cases same
  have unfailed (payload : CdrPayload) (point : FlushPoint) (owner : PubRef) (frame : Bytes) :
      Event.failed point owner frame ∉ world.pushes ref payload := fun member => by
    obtain ⟨entry, same⟩ := pushes payload _ member
    cases same
  cases turned with
  | nothing => exact ⟨[], (List.append_nil _).symm, by simp, by simp⟩
  | finished empty flying => exact ⟨_, rfl, by simp [flying], by simp⟩
  | finishFailed empty flying => exact ⟨_, List.append_assoc _ _ _, by simp, by simp⟩
  | @started _ payload _ _ => exact ⟨world.pushes ref payload, rfl, by simp [unwritten], by simp [unfailed]⟩
  | @appended _ payload _ _ => exact ⟨world.pushes ref payload, rfl, by simp [unwritten], by simp [unfailed]⟩
  | flushed waiting flying =>
    exact ⟨_, List.append_assoc _ _ _, by simp [unwritten, flying], by simp [unfailed]⟩
  | flushFailed waiting flying =>
    exact ⟨_, (List.append_assoc _ _ _).trans (List.append_assoc _ _ _), by simp [unwritten], by simp⟩

def Event.From (control : Control) : Event → Prop
  | .wrote owner frame => ∃ i burst ke sn gid flight, control = .inner i burst ∧ burst.drain = owner ∧ burst.ke = some ke ∧
      frame = batchFrame sn ke.text gid flight ∧ Addressable frame
  | _ => True

theorem System.writes {system next : System} {act : Act} (sound : system.control.Sound system.world)
    (step : system.step act = some next) :
    ∃ events, next.world.log = system.world.log ++ events ∧ (∀ event ∈ events, event.From system.control) ∧
      (act ≠ .turn false → ∀ point owner frame, Event.failed point owner frame ∉ events) := by
  -- Only a turn of the drain writes.
  cases act with
  | stamp ref data timestampNs =>
    obtain ⟨publisher, _, rfl⟩ := Option.map_eq_some_iff.mp step
    exact ⟨[], (List.append_nil _).symm, by simp, by simp⟩
  | enqueue ref waiting =>
    obtain ⟨⟨payload, publisher⟩, _, rfl⟩ := Option.map_eq_some_iff.mp step
    exact ⟨[.sent ref payload], rfl, by simp [Event.From], by simp⟩
  | call =>
    obtain ⟨-, rfl⟩ := step_call step
    exact ⟨[], (List.append_nil _).symm, by simp, by simp⟩
  | reconnect node =>
    obtain ⟨-, rfl⟩ := step_reconnect step
    exact ⟨[], (List.append_nil _).symm, by simp, by simp⟩
  | turn written =>
    obtain ⟨busy, rfl⟩ := step_turn step
    obtain ⟨world, control⟩ := system
    cases control with
    | idle returned => exact absurd rfl (busy returned)
    | outer i buffers =>
      rw [turn_entered]
      exact ⟨[], (List.append_nil _).symm, by simp, by simp⟩
    | inner i burst =>
      have turned := turn_innerTurned sound written
      generalize turn Sdk.drainBody written ⟨world, .inner i burst⟩ = next at turned ⊢
      cases turned with
      | emptied => exact ⟨[], (List.append_nil _).symm, by simp, by simp⟩
      | @passed payload rest next only ready waiting again =>
        refine ⟨world.pushes burst.drain payload, rfl, ?_, ?_⟩
        all_goals
          rw [World.pushes_eq]
          simp +contextual [Event.From]
      | @sent ke flight result after remote ready turned =>
        rw [settle_world]
        obtain ⟨events, log, wrote, failed⟩ := turned.writes
        refine ⟨events, log, fun event member => ?_, fun good => failed ?_⟩
        · cases event with
          | wrote owner frame =>
            obtain ⟨rfl, flying, rfl⟩ := wrote owner frame member
            refine ⟨i, burst, ke, _, _, flight, rfl, rfl, ready.key, rfl, ?_⟩
            exact le_isizeMax (Nat.lt_of_le_of_lt (ready.toBatched.frame_length_le flying) (by decide))
          | _ => trivial
        · cases written with
          | true => rfl
          | false => exact absurd rfl good

end Writes

/-- The drain holds the key expression of the publisher that it drains. -/
def System.Held (system : System) : Prop :=
  ∀ i burst ke, system.control = .inner i burst → burst.ke = some ke →
    (system.world.statics burst.drain).topic.toKeyExpr = some ke

theorem World.entered_held (world : World) (i : Nat) (buffers : Buffers) : System.Held ⟨world, world.entered i buffers⟩ := by
  intro j burst ke entered held
  change world.entered i buffers = .inner j burst at entered
  unfold World.entered at entered
  cases row : world.node.publishers[i]? with
  | none =>
    rw [row] at entered
    cases entered
  | some drain =>
    rw [row] at entered
    by_cases only : (world.statics drain).locality = .sessionLocal
    · simp only [if_pos only] at entered
      cases entered
      cases held
    · simp only [if_neg only] at entered
      cases key : (world.statics drain).topic.toKeyExpr with
      | none =>
        rw [key] at entered
        cases entered
      | some own =>
        rw [key] at entered
        cases entered
        cases held
        exact key

section Held
variable [Target]

theorem turn_inner_held {world : World} {i j : Nat} {burst next : Burst} {ke : HeaplessString maxKeyExprLen}
    (sound : (Control.inner i burst).Sound world) (written : Bool)
    (again : (turn Sdk.drainBody written ⟨world, .inner i burst⟩).control = .inner j next) (held : next.ke = some ke) :
    next.drain = burst.drain ∧ burst.ke = some ke := by
  have turned := turn_innerTurned sound written
  generalize turn Sdk.drainBody written ⟨world, .inner i burst⟩ = after at turned again
  cases turned with
  | emptied => cases again
  | passed only ready waiting local_ =>
    cases again
    rw [local_.key] at held
    cases held
  | @sent own flight result after remote ready turned =>
    cases result with
    | ok value =>
      obtain ⟨more, burst'⟩ := value
      cases more with
      | true =>
        cases again
        have kept : next.drain = burst.drain ∧ next.ke = some own := by
          cases turned with
          | started waiting idle ready => exact ⟨ready.drain, ready.key⟩
          | appended waiting flying ready => exact ⟨ready.drain, ready.key⟩
          | flushed waiting flying ready => exact ⟨ready.drain, ready.key⟩
        exact ⟨kept.1, by rw [ready.key, ← held, kept.2]⟩
      | false => cases again
    | err error => cases again
    | panic fault => cases again

theorem System.Held.step {system next : System} {act : Act} (held : system.Held)
    (sound : system.control.Sound system.world) (step : system.step act = some next) : next.Held := by
  have topics (ref : PubRef) := ((stepped_of_step sound step).moves ref).topic
  intro i burst ke inner key
  rw [topics]
  cases act with
  | stamp ref data timestampNs =>
    obtain ⟨publisher, _, rfl⟩ := Option.map_eq_some_iff.mp step
    exact held i burst ke inner key
  | enqueue ref waiting =>
    obtain ⟨⟨payload, publisher⟩, _, rfl⟩ := Option.map_eq_some_iff.mp step
    exact held i burst ke inner key
  | call =>
    obtain ⟨-, rfl⟩ := step_call step
    cases inner
  | reconnect node =>
    obtain ⟨-, rfl⟩ := step_reconnect step
    cases inner
  | turn written =>
    obtain ⟨busy, rfl⟩ := step_turn step
    obtain ⟨world, control⟩ := system
    cases control with
    | idle returned => exact absurd rfl (busy returned)
    | outer j buffers =>
      rw [turn_entered] at inner
      exact World.entered_held world j buffers i burst ke inner key
    | inner j before =>
      obtain ⟨same, own⟩ := turn_inner_held sound written inner key
      rw [same]
      exact held j before ke rfl own

end Held

section Published
variable [Target]

def Event.onKey (key : String) : Event → List Received
  | .wrote _ frame => receivedOn key frame
  | _ => []

def Event.published (key : String) : Event → List (PubRef × CdrPayload)
  | .wrote owner frame => (receivedOn key frame).filterMap fun received =>
      received.publication.map fun payload => (owner, payload)
  | _ => []

def Event.Keyed (topic : PubRef → TopicKeyExpr) : Event → Prop
  | .wrote owner frame => ∃ ke sn gid flight, (topic owner).toKeyExpr = some ke ∧ frame = batchFrame sn ke.text gid flight ∧
      Addressable frame
  | _ => True

def ofPublisher (ref : PubRef) (item : PubRef × CdrPayload) : Option CdrPayload :=
  if item.1 = ref then some item.2 else none

omit [Target] in
theorem mem_ofPublisher {ref : PubRef} {item : PubRef × CdrPayload} {payload : CdrPayload} :
    payload ∈ ofPublisher ref item ↔ item = (ref, payload) := by
  obtain ⟨owner, data⟩ := item
  simp [ofPublisher, Prod.ext_iff]

theorem published_batchFrame {key : String} {owner : PubRef} {sn : UInt64} {ke : String} {gid : ZenohId}
    {flight : List CdrPayload} (addressable : Addressable (batchFrame sn ke gid flight)) :
    Event.published key (.wrote owner (batchFrame sn ke gid flight)) =
      if ke = key then flight.map (Prod.mk owner) else [] := by
  rw [Event.published, receivedOn_batchFrame addressable]
  by_cases mine : ke = key
  · have each : (fun received : Received => received.publication.map (Prod.mk owner)) ∘ CdrPayload.received key gid =
        fun payload => some (owner, payload) :=
      funext fun payload => by rw [Function.comp_apply, payload.publication_received, Option.map_some]
    rw [if_pos mine, if_pos mine, List.filterMap_map, each, List.filterMap_eq_map']
  · rw [if_neg mine, if_neg mine, List.filterMap_nil]

section Keyed
variable {topic : PubRef → TopicKeyExpr} {event : Event} {key : String}

theorem Event.Keyed.published_eq (keyed : event.Keyed topic) (ref : PubRef) :
    (event.published key).filterMap (ofPublisher ref) =
      if (topic ref).toKeyExpr.map HeaplessString.text = some key then event.wire ref else [] := by
  cases event with
  | wrote owner frame =>
    obtain ⟨ke, sn, gid, flight, built, rfl, addressable⟩ := keyed
    rw [published_batchFrame addressable, Event.wire, publications_batchFrame addressable]
    by_cases own : owner = ref
    · subst own
      by_cases mine : ke.text = key
      · simp [mine, built, List.filterMap_map, Function.comp_def, ofPublisher]
      · simp [mine, built]
    · by_cases mine : ke.text = key
      · simp [mine, own, ofPublisher]
      · simp [mine, own]
  | _ => simp [Event.published, Event.wire]

theorem Event.Keyed.payloads_eq (keyed : event.Keyed topic) :
    (event.onKey key).map Received.payload = (event.published key).map fun item => item.2.data := by
  cases event with
  | wrote owner frame =>
    obtain ⟨ke, sn, gid, flight, built, rfl, addressable⟩ := keyed
    rw [published_batchFrame addressable, Event.onKey, receivedOn_batchFrame addressable]
    by_cases mine : ke.text = key
    · simp [mine, CdrPayload.received]
    · simp [mine]
  | _ => rfl

theorem Event.Keyed.mem_published (keyed : event.Keyed topic) {ref : PubRef} {payload : CdrPayload}
    (member : (ref, payload) ∈ event.published key) : (topic ref).toKeyExpr.map HeaplessString.text = some key := by
  cases event with
  | wrote owner frame =>
    obtain ⟨ke, sn, gid, flight, built, rfl, addressable⟩ := keyed
    rw [published_batchFrame addressable] at member
    split at member
    · rename_i mine
      obtain ⟨payload, -, same⟩ := List.mem_map.mp member
      cases same
      rw [built, Option.map_some, mine]
    · cases member
  | _ => cases member

end Keyed
end Published
end ZenohRos2
