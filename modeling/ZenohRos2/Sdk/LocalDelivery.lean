import ZenohRos2.Sdk.Delivery

/-! What `dispatch_local` pushes, over whole runs.

A message is pushed when it is drained. It is drained again if it was stashed,
so a failed write repeats pushes, but for a publisher without local entries.
-/

set_option autoImplicit false

namespace ZenohRos2
open Rust

/-- The entries that get what the publisher sends without the network. -/
def World.locals (world : World) (ref : PubRef) : List SubscriberEntry :=
  if (world.statics ref).locality ≠ .remote then
    localEntries world.node.subscribers (world.statics ref).topic
  else []

theorem World.pushes_eq (world : World) (ref : PubRef) (payload : CdrPayload) :
    world.pushes ref payload = (world.locals ref).map (.pushed ref payload) := by
  unfold pushes locals
  split <;> rfl

def Event.pushedTo (ref : PubRef) (payload : CdrPayload) (sub : SubRef) : Event → Bool
  | .pushed owner data entry => owner = ref && data = payload && entry.dispatch = sub
  | _ => false

def System.pushCount (system : System) (ref : PubRef) (payload : CdrPayload) (sub : SubRef) : Nat :=
  system.world.log.countP (Event.pushedTo ref payload sub)

/-- The steps that push no message twice: the local entries of a publisher have
different subscriptions, and no write fails for a publisher of both the session
and the network while it has such entries. -/
def PushesOnce (system : System) : Act → Prop
  | .turn written =>
    match system.control with
    | .inner _ burst =>
      ((system.world.locals burst.drain).map SubscriberEntry.dispatch).Nodup ∧
        (written = false → (system.world.statics burst.drain).locality = .any →
          system.world.locals burst.drain = [])
    | _ => True
  | _ => True

instance (system : System) : (act : Act) → Decidable (PushesOnce system act)
  | .turn written =>
    match control : system.control with
    | .inner _ burst =>
      decidable_of_iff (((system.world.locals burst.drain).map SubscriberEntry.dispatch).Nodup ∧
        (written = false → (system.world.statics burst.drain).locality = .any →
          system.world.locals burst.drain = [])) (by simp only [PushesOnce, control])
    | .idle _ => .isTrue (by simp only [PushesOnce, control])
    | .outer _ _ => .isTrue (by simp only [PushesOnce, control])
  | .stamp .. => inferInstanceAs (Decidable True)
  | .enqueue .. => inferInstanceAs (Decidable True)
  | .call => inferInstanceAs (Decidable True)
  | .reconnect _ => inferInstanceAs (Decidable True)

section Pushes
variable {world after : World} {ref other : PubRef} {payload : CdrPayload} {sub : SubRef}

theorem pushes_count_other (different : other ≠ ref) (drained : CdrPayload) :
    (world.pushes ref drained).countP (Event.pushedTo other payload sub) = 0 := by
  rw [World.pushes_eq, List.countP_map, List.countP_eq_zero]
  intro entry _
  simp [Event.pushedTo, Ne.symm different]

theorem pushes_count_le (once : ((world.locals ref).map SubscriberEntry.dispatch).Nodup) (drained : CdrPayload) :
    (world.pushes ref drained).countP (Event.pushedTo ref payload sub) ≤ [drained].count payload := by
  rw [World.pushes_eq, List.countP_map]
  by_cases same : drained = payload
  · subst same
    have hits : (world.locals ref).countP (Event.pushedTo ref drained sub ∘ Event.pushed ref drained) =
        ((world.locals ref).map SubscriberEntry.dispatch).count sub := by
      rw [List.count, List.countP_map]
      apply List.countP_congr
      intro entry _
      simp [Event.pushedTo]
    rw [hits, List.count_singleton_self]
    exact List.nodup_iff_count.mp once sub
  · rw [List.countP_eq_zero.mpr]
    · exact Nat.zero_le _
    · intro entry _
      simp [Event.pushedTo, same]

end Pushes

section Turns
variable [Target]

/-- The pushes of a turn are those of the message it drains, if any. -/
structure DrainedIn (ref : PubRef) (world after : World) (taken : List CdrPayload) : Prop where
  single : taken.length ≤ 1
  pushed : ∀ other payload sub, after.log.countP (Event.pushedTo other payload sub) =
    world.log.countP (Event.pushedTo other payload sub) +
      (taken.flatMap (world.pushes ref)).countP (Event.pushedTo other payload sub)

omit [Target] in
theorem DrainedIn.pushCount_eq {world after : World} {ref : PubRef} {taken : List CdrPayload}
    (drained : DrainedIn ref world after taken) {other : PubRef} (still : world.locals ref = [] ∨ other ≠ ref)
    (payload : CdrPayload) (sub : SubRef) :
    after.log.countP (Event.pushedTo other payload sub) = world.log.countP (Event.pushedTo other payload sub) := by
  have none : (taken.flatMap (world.pushes ref)).countP (Event.pushedTo other payload sub) = 0 := by
    rw [List.countP_eq_zero]
    intro event member
    obtain ⟨message, _, inside⟩ := List.mem_flatMap.mp member
    rcases still with silent | different
    · simp [World.pushes_eq, silent] at inside
    · exact List.countP_eq_zero.mp (pushes_count_other different message) event inside
  rw [drained.pushed, none, Nat.add_zero]

omit [Target] in
theorem DrainedIn.pushCount_le {world after : World} {ref : PubRef} {taken : List CdrPayload}
    (drained : DrainedIn ref world after taken)
    (once : ((world.locals ref).map SubscriberEntry.dispatch).Nodup) (payload : CdrPayload) (sub : SubRef) :
    after.log.countP (Event.pushedTo ref payload sub) ≤
      world.log.countP (Event.pushedTo ref payload sub) + taken.count payload := by
  rw [drained.pushed]
  refine Nat.add_le_add_left ?_ _
  have single := drained.single
  match taken with
  | [] => simp
  | [message] => simpa using pushes_count_le once message
  | _ :: _ :: _ => simp at single

theorem Sdk.Turned.drainedIn {world after : World} {ref : PubRef} {ke : HeaplessString maxKeyExprLen}
    {flight : List CdrPayload} {written : Bool} {result : Outcome Error (Bool × Burst)}
    (turned : Turned world ref ke flight written (result, after)) :
    ∃ taken, DrainedIn ref world after taken ∧
      (written = true → (world.statics ref).pending = taken ++ (after.statics ref).pending) := by
  have taken {payload : CdrPayload} {rest : List CdrPayload} (waiting : (world.statics ref).pending = payload :: rest) :
      (world.statics ref).pending = [payload] ++ (world.statics ref).taken.pending := by
    rw [Publisher.taken_pending, waiting]
    rfl
  cases turned with
  | nothing empty => exact ⟨[], ⟨by simp, by simp⟩, fun _ => rfl⟩
  | finished empty => exact ⟨[], ⟨by simp, by simp [Event.pushedTo]⟩, fun _ => rfl⟩
  | finishFailed empty => exact ⟨[], ⟨by simp, by simp [World.stashed, Event.pushedTo]⟩, by simp⟩
  | @started _ payload _ _ waiting =>
    exact ⟨[payload], ⟨by simp, by simp⟩, fun _ => by simpa using taken waiting⟩
  | @appended _ payload _ _ waiting =>
    exact ⟨[payload], ⟨by simp, by simp⟩, fun _ => by simpa using taken waiting⟩
  | @flushed payload _ _ waiting =>
    exact ⟨[payload], ⟨by simp, by simp [Event.pushedTo]⟩, fun _ => by simpa using taken waiting⟩
  | @flushFailed payload _ waiting =>
    exact ⟨[payload], ⟨by simp, by simp [World.stashed, Event.pushedTo]⟩, by simp⟩

theorem turn_drainedIn {world : World} {i : Nat} {burst : Burst}
    (sound : (Control.inner i burst).Sound world) (written : Bool) :
    ∃ taken, DrainedIn burst.drain world (turn Sdk.drainBody written ⟨world, .inner i burst⟩).world taken ∧
      (written = true ∨ (world.statics burst.drain).locality = .sessionLocal →
        (world.statics burst.drain).pending =
          taken ++ ((turn Sdk.drainBody written ⟨world, .inner i burst⟩).world.statics burst.drain).pending) := by
  have turned := turn_innerTurned sound written
  generalize turn Sdk.drainBody written ⟨world, .inner i burst⟩ = next at turned ⊢
  cases turned with
  | emptied only ready empty => exact ⟨[], ⟨by simp, by simp⟩, fun _ => rfl⟩
  | @passed payload rest next only ready waiting again =>
    refine ⟨[payload], ⟨by simp, by simp⟩, fun _ => ?_⟩
    simp [Publisher.taken_pending, waiting]
  | sent remote ready turned =>
    obtain ⟨taken, drained, stays⟩ := turned.drainedIn
    rw [settle_world]
    exact ⟨taken, drained, fun fine => stays (fine.resolve_right remote)⟩

end Turns

section Runs
variable [Target] {system next : System} {ref : PubRef} {act : Act}

/-- What may still be pushed: what can be drained and, without local entries,
what is in flight and may be stashed. -/
def System.held (system : System) (ref : PubRef) : List CdrPayload :=
  (if system.world.locals ref = [] then system.control.flight ref else []) ++ (system.world.statics ref).pending

/-- No message was or can be pushed into a subscription more often than it was sent. -/
def PushedWithin (initial : List CdrPayload) (ref : PubRef) (system : System) : Prop :=
  ∀ payload sub, system.pushCount ref payload sub + (system.held ref).count payload ≤
    (initial ++ system.sent ref).count payload

theorem System.Moves.topic (moves : Moves ref system next act) :
    (next.world.statics ref).topic = (system.world.statics ref).topic := by
  cases moves with
  | stays intake => exact intake.topic
  | drains intake => exact intake.topic
  | discards _ intake => exact intake.topic
  | stamps stamped => rw [Publisher.stamp_eq_some stamped]
  | enqueues entered => rw [(Publisher.enqueue_eq_some entered).2]

theorem System.Stepped.locals_eq (stepped : Stepped system next act) (same : ∀ node, act ≠ .reconnect node) :
    next.world.locals ref = system.world.locals ref := by
  unfold World.locals
  rw [(stepped.moves ref).locality, (stepped.moves ref).topic, stepped.tables same]

theorem System.Moves.unsent {written : Bool} (moves : Moves ref system next (.turn written)) :
    (next.control.flight ref ++ (next.world.statics ref).pending).Sublist
      (system.control.flight ref ++ (system.world.statics ref).pending) := by
  cases moves with
  | stays _ _ box =>
    have same : (next.box ref).batch ++ (next.box ref).pending =
      (system.box ref).batch ++ (system.box ref).pending := by rw [box]
    exact same ▸ .refl _
  | drains _ _ step => exact step.unsent_sublist
  | discards payload _ _ _ waiting _ still =>
    rw [still.1, still.2, waiting]
    exact List.sublist_cons_self _ _

theorem System.Moves.turn_sent {written : Bool} (moves : Moves ref system next (.turn written)) :
    next.sent ref = system.sent ref := by
  cases moves with
  | stays _ sent => exact sent
  | drains _ sent => exact sent
  | discards _ _ sent => exact sent

theorem System.Stepped.held_count_le {written : Bool} (stepped : Stepped system next (.turn written))
    (still : system.world.locals ref = [] ∨ system.control.flight ref = []) (payload : CdrPayload) :
    (next.held ref).count payload ≤ (system.held ref).count payload := by
  have unsent := (stepped.moves ref).unsent.count_le payload
  unfold System.held
  rw [stepped.locals_eq (by simp)]
  by_cases silent : system.world.locals ref = []
  · rwa [if_pos silent, if_pos silent]
  · rw [if_neg silent, if_neg silent]
    rw [still.resolve_left silent, List.count_append] at unsent
    simp only [List.nil_append] at unsent ⊢
    omega

theorem PushedWithin.turn {initial : List CdrPayload} {written : Bool} (within : PushedWithin initial ref system)
    (sound : system.control.Sound system.world) (may : PushesOnce system (.turn written))
    (step : system.step (.turn written) = some next) : PushedWithin initial ref next := by
  have stepped := System.stepped_of_step sound step
  obtain ⟨busy, rfl⟩ := System.step_turn step
  intro payload sub
  rw [(stepped.moves ref).turn_sent]
  have before := within payload sub
  obtain ⟨world, control⟩ := system
  cases control with
  | idle returned => exact absurd rfl (busy returned)
  | outer i buffers =>
    have sized : buffers.Sized := by
      cases sound with
      | outer sized => exact sized
    obtain ⟨control, turned, -⟩ := turn_outer Sdk.drainBody written world i sized
    have held := stepped.held_count_le (.inr rfl : _ ∨ Control.flight ref _ = []) payload
    have same : (turn Sdk.drainBody written ⟨world, .outer i buffers⟩).pushCount ref payload sub =
        System.pushCount ⟨world, .outer i buffers⟩ ref payload sub := by rw [turned]; rfl
    omega
  | inner i burst =>
    obtain ⟨taken, drained, stays⟩ := turn_drainedIn sound written
    obtain ⟨once, fails⟩ := may
    by_cases still : world.locals burst.drain = [] ∨ ref ≠ burst.drain
    -- Nothing is pushed for this publisher in this turn.
    · have count : (turn Sdk.drainBody written ⟨world, .inner i burst⟩).pushCount ref payload sub =
        System.pushCount ⟨world, .inner i burst⟩ ref payload sub := drained.pushCount_eq still payload sub
      have held := stepped.held_count_le (show world.locals ref = [] ∨ (Control.inner i burst).flight ref = [] from by
        by_cases mine : ref = burst.drain
        · exact .inl (mine ▸ still.resolve_right (not_not_intro mine))
        · exact .inr (Control.flight_other mine)) payload
      omega
    · -- The messages that are pushed leave the queue for good.
      obtain ⟨busy, mine⟩ := not_or.mp still
      obtain rfl := Classical.not_not.mp mine
      have fine : written = true ∨ (world.statics burst.drain).locality = .sessionLocal := by
        cases written with
        | true => exact .inl rfl
        | false =>
          refine .inr ?_
          cases locality : (world.statics burst.drain).locality with
          | any => exact absurd (fails rfl locality) busy
          | sessionLocal => rfl
          | remote => exact absurd (by simp [World.locals, locality]) busy
      have count : (turn Sdk.drainBody written ⟨world, .inner i burst⟩).pushCount burst.drain payload sub ≤
        System.pushCount ⟨world, .inner i burst⟩ burst.drain payload sub + taken.count payload :=
        drained.pushCount_le once payload sub
      have held : (System.held ⟨world, .inner i burst⟩ burst.drain).count payload = taken.count payload +
          ((turn Sdk.drainBody written ⟨world, .inner i burst⟩).held burst.drain).count payload := by
        unfold System.held
        rw [stepped.locals_eq (by simp), if_neg busy, if_neg busy, List.nil_append, List.nil_append,
          ← List.count_append]
        exact congrArg _ (stays fine)
      omega

theorem System.held_eq_of_box (box : next.box ref = system.box ref)
    (same : next.world.locals ref = system.world.locals ref) : next.held ref = system.held ref := by
  have batch : next.control.flight ref = system.control.flight ref := congrArg Outbox.Box.batch box
  have pending : (next.world.statics ref).pending = (system.world.statics ref).pending :=
    congrArg Outbox.Box.pending box
  unfold held
  rw [same, batch, pending]

theorem System.held_of_enqueue {payload : CdrPayload} (box : next.box ref = Outbox.enqueue (system.box ref) payload)
    (same : next.world.locals ref = system.world.locals ref) : next.held ref = system.held ref ++ [payload] := by
  have batch : next.control.flight ref = system.control.flight ref := congrArg Outbox.Box.batch box
  have pending : (next.world.statics ref).pending = (system.world.statics ref).pending ++ [payload] :=
    (congrArg Outbox.Box.pending box).trans (List.append_assoc _ _ _).symm
  unfold held
  rw [same, batch, pending, List.append_assoc]

theorem System.held_of_still (still : system.control.flight ref = []) :
    system.held ref = (system.world.statics ref).pending := by
  unfold held
  rw [still]
  split <;> rfl

theorem PushedWithin.step {initial : List CdrPayload} (within : PushedWithin initial ref system)
    (sound : system.control.Sound system.world) (may : PushesOnce system act)
    (step : system.step act = some next) : PushedWithin initial ref next := by
  have stepped := System.stepped_of_step sound step
  have moves := stepped.moves ref
  intro payload sub
  have before := within payload sub
  -- A turn is the one case in which something is pushed. The others move what is held.
  cases act with
  | turn written => exact within.turn sound may step payload sub
  | stamp owner data timestampNs =>
    have log : next.pushCount ref payload sub = system.pushCount ref payload sub := by
      obtain ⟨publisher, _, same⟩ := Option.map_eq_some_iff.mp step
      rw [← same]
      rfl
    have locals : next.world.locals ref = system.world.locals ref := stepped.locals_eq (by simp)
    cases moves with
    | stays _ sent box => rwa [sent, log, System.held_eq_of_box box locals]
    | stamps _ sent box => rwa [sent, log, System.held_eq_of_box box locals]
  | enqueue owner waiting =>
    have log : next.pushCount ref payload sub = system.pushCount ref payload sub := by
      obtain ⟨publisher, _, same⟩ := Option.map_eq_some_iff.mp step
      rw [← same]
      simp [System.pushCount, Event.pushedTo]
    have locals : next.world.locals ref = system.world.locals ref := stepped.locals_eq (by simp)
    cases moves with
    | stays _ sent box => rwa [sent, log, System.held_eq_of_box box locals]
    | enqueues _ sent box =>
      rw [sent, log, System.held_of_enqueue box locals]
      simp only [List.count_append] at before ⊢
      omega
  | call =>
    obtain ⟨⟨returned, idle⟩, rfl⟩ := System.step_call step
    rw [System.held_of_still (by rw [idle]; rfl)] at before
    rwa [System.held_of_still rfl]
  | reconnect node =>
    obtain ⟨⟨returned, idle⟩, rfl⟩ := System.step_reconnect step
    rw [System.held_of_still (by rw [idle]; rfl)] at before
    rwa [System.held_of_still rfl]

/-- If every step pushes once, no message is pushed into a subscription more
often than it was sent: a message sent once is pushed at most once. -/
theorem pushed_at_most_as_sent (statics : PubRef → Publisher) (node : Node) {system : System}
    (run : System.Run PushesOnce (.initial statics node) system) (ref : PubRef) (payload : CdrPayload) (sub : SubRef) :
    system.pushCount ref payload sub ≤
      ((statics ref).pending ++ system.world.log.flatMap (Event.sentBy ref)).count payload := by
  have first : PushedWithin (statics ref).pending ref (.initial statics node) := by
    intro payload sub
    rw [System.held_of_still rfl]
    simp [System.initial, System.pushCount, System.sent]
  have within := System.Run.invariant _ run .idle first fun sound holds may step => holds.step sound may step
  exact Nat.le_trans (Nat.le_add_right _ _) (within payload sub)

omit [Target] in
theorem pushed_at_most_as_sent_once :
    let topic : TopicKeyExpr := ⟨0, "chatter", "String", "hash"⟩
    let payload : CdrPayload := ⟨[0, 1, 0, 0, 5], 0, 0⟩
    let node := { Node.built "robot" "" 0 (ZenohId.fromBytes [7]) 10000 10000 with
      publishers := [0]
      subscribers := [⟨1, .any, topic, 3⟩] }
    letI := target64
    ∃ system, System.Run PushesOnce (.initial (fun _ => .fresh topic .any 144 4) node) system ∧
      system.pushCount 0 payload 3 ≤
        ((Publisher.fresh topic .any 144 4).pending ++ system.world.log.flatMap (Event.sentBy 0)).count payload := by
  intro topic payload node
  let := target64
  obtain ⟨system, run, pushed⟩ : ∃ system,
      System.Run PushesOnce (.initial (fun _ => .fresh topic .any 144 4) node) system ∧
        system.pushCount 0 payload 3 = 1 :=
    Machine.exists_run [.stamp 0 [0, 1, 0, 0, 5] 0, .enqueue 0 0, .call, .turn true, .turn true, .turn true]
      (by decide +kernel)
  exact ⟨system, run, pushed_at_most_as_sent (fun _ => .fresh topic .any 144 4) node run 0 payload 3⟩

omit [Target] in
/-- A message that is drained again after a failed write is pushed again. -/
theorem pushed_twice :
    let topic : TopicKeyExpr := ⟨0, "chatter", "String", "hash"⟩
    let payload : CdrPayload := ⟨[0, 1, 0, 0, 5], 0, 0⟩
    let node := { Node.built "robot" "" 0 (ZenohId.fromBytes [7]) 10000 10000 with
      publishers := [0]
      subscribers := [⟨1, .any, topic, 3⟩] }
    letI := target64
    ∃ system, System.Run anyStep (.initial (fun _ => .fresh topic .any 144 4) node) system ∧
      (system.world.log.flatMap (Event.sentBy 0)).count payload = 1 ∧ system.pushCount 0 payload 3 = 2 := by
  intro topic payload node
  let := target64
  exact Machine.exists_run [.stamp 0 [0, 1, 0, 0, 5] 0, .enqueue 0 0, .call, .turn true, .turn true, .turn false,
    .reconnect node, .call, .turn true, .turn true] (by decide +kernel)

end Runs
end ZenohRos2
