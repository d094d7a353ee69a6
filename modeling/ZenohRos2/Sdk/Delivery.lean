import ZenohRos2.Lib.Machine
import ZenohRos2.Sdk.Accounting

/-! What becomes of the messages of a publisher, over whole runs.

A run mixes sends, calls of the drain, write failures and reconnects in any
order. The theorems are those of the outbox, read back at the machine.
-/

set_option autoImplicit false

namespace ZenohRos2
open Rust

def System.initial (statics : PubRef → Publisher) (node : Node) : System := ⟨⟨statics, node, []⟩, .idle none⟩

def anyStep : System → Act → Prop := fun _ _ => True

/-- The steps of a single publishing task: it waits for room before it stamps
the next message, and the counter does not wrap. -/
def SingleTask (ref : PubRef) (system : System) : Act → Prop
  | .stamp owner _ _ => owner = ref →
    (system.world.statics ref).stamped = [] ∧ (system.world.statics ref).seqNum ≠ Int64.maxValue
  | _ => True

instance (system : System) (act : Act) : Decidable (anyStep system act) := inferInstanceAs (Decidable True)

instance (ref : PubRef) (system : System) : (act : Act) → Decidable (SingleTask ref system act)
  | .stamp .. => inferInstanceAs (Decidable (_ → _ ∧ _))
  | .enqueue .. => inferInstanceAs (Decidable True)
  | .call => inferInstanceAs (Decidable True)
  | .turn _ => inferInstanceAs (Decidable True)
  | .reconnect _ => inferInstanceAs (Decidable True)

section Runs
variable [Target]

abbrev System.Run (allowed : System → Act → Prop) : System → System → Prop := Machine.Run System.step allowed

namespace System
variable {allowed : System → Act → Prop} {start system next : System} {ref : PubRef}

theorem Run.invariant (holds : System → Prop) (run : Run allowed start system)
    (sound : start.control.Sound start.world) (first : holds start)
    (kept : ∀ {system next : System} {act : Act}, system.control.Sound system.world → holds system →
      allowed system act → system.step act = some next → holds next) : holds system := by
  have both : system.control.Sound system.world ∧ holds system := by
    apply Machine.Run.invariant (fun system => system.control.Sound system.world ∧ holds system) run ⟨sound, first⟩
    intro system next act _ before may step
    exact ⟨(stepped_of_step before.1 step).sound, kept before.1 before.2 may step⟩
  exact both.2

theorem Moves.locality {act : Act} (moves : Moves ref system next act) :
    (next.world.statics ref).locality = (system.world.statics ref).locality := by
  cases moves with
  | stays intake => exact intake.locality
  | drains intake => exact intake.locality
  | discards _ intake => exact intake.locality
  | stamps stamped => rw [Publisher.stamp_eq_some stamped]
  | enqueues entered => rw [(Publisher.enqueue_eq_some entered).2]

theorem Moves.all_perm {act : Act} (moves : Moves ref system next act) {initial : List CdrPayload}
    (remote : (system.world.statics ref).locality ≠ .sessionLocal)
    (perm : (initial ++ system.sent ref).Perm (system.box ref).all) :
    (initial ++ next.sent ref).Perm (next.box ref).all := by
  cases moves with
  | stays _ sent box => rwa [sent, box]
  | drains _ sent step =>
    rw [sent]
    exact perm.trans step.all_perm.symm
  | discards _ _ _ only => exact absurd only remote
  | stamps _ sent box => rwa [sent, box]
  | @enqueues _ payload _ sent box =>
    rw [sent, box, ← List.append_assoc]
    exact (List.perm_append_singleton payload.clip _).trans
      ((perm.cons payload.clip).trans (Outbox.enqueue_all_perm _ _).symm)

end System

/-- Between calls, every message that was ever handed to a publisher of the
network is in a frame whose write succeeded, can still be drained, or was lost
with a frame whose write failed without being the message drained last; each
message counts once. -/
theorem drained_messages_accounted (statics : PubRef → Publisher) (node : Node) {system : System}
    (run : System.Run anyStep (.initial statics node) system) (ref : PubRef)
    (remote : (statics ref).locality ≠ .sessionLocal) {returned : Option (Outcome Error Unit)}
    (idle : system.control = .idle returned) :
    ((statics ref).pending ++ system.world.log.flatMap (Event.sentBy ref)).Perm
      (system.world.log.flatMap (Event.wire ref) ++ (system.world.statics ref).pending ++
        system.world.log.flatMap (Event.lost ref)) := by
  let accounted (system : System) : Prop := (system.world.statics ref).locality = (statics ref).locality ∧
    ((statics ref).pending ++ system.sent ref).Perm (system.box ref).all
  have first : accounted (.initial statics node) := by
    refine ⟨rfl, ?_⟩
    simp [System.sent, System.initial, System.box, World.box, Control.flight, Outbox.Box.all, Outbox.Box.line,
      Outbox.Box.pending, Publisher.pending]
  obtain ⟨-, perm⟩ := System.Run.invariant accounted run .idle first fun sound holds _ step => by
    have moves := (System.stepped_of_step sound step).moves ref
    exact ⟨moves.locality.trans holds.1, moves.all_perm (by rwa [holds.1]) holds.2⟩
  simpa [System.sent, System.box, idle, Control.flight, World.box, Outbox.Box.all, Outbox.Box.line,
    Outbox.Box.pending, Publisher.pending] using perm

omit [Target] in
theorem drained_messages_accounted_two :
    let publisher := { Publisher.fresh ⟨0, "chatter", "String", "hash"⟩ .remote 144 4 with
      channel := [⟨[0, 1, 0, 0, 1], 0, 0⟩, ⟨[0, 1, 0, 0, 2], 1, 1000⟩] }
    let node := { Node.built "talker" "" 0 (ZenohId.fromBytes [7]) 10000 10000 with publishers := [0] }
    letI := target64
    ∃ system, System.Run anyStep (.initial (fun _ => publisher) node) system ∧
      (publisher.pending ++ system.world.log.flatMap (Event.sentBy 0)).Perm
        (system.world.log.flatMap (Event.wire 0) ++ (system.world.statics 0).pending ++
          system.world.log.flatMap (Event.lost 0)) := by
  intro publisher node
  let := target64
  obtain ⟨system, run, idle⟩ : ∃ system, System.Run anyStep (.initial (fun _ => publisher) node) system ∧
      system.control = .idle (some (.err (.transport .io))) :=
    Machine.exists_run [.call, .turn true, .turn true, .turn true, .turn false] (by decide +kernel)
  exact ⟨system, run, drained_messages_accounted (fun _ => publisher) node run 0 (by decide) idle⟩

omit [Target] in
/-- Two messages share a frame whose write fails: the first one is gone. -/
theorem drained_message_lost :
    let publisher := { Publisher.fresh ⟨0, "chatter", "String", "hash"⟩ .remote 144 4 with
      channel := [⟨[0, 1, 0, 0, 1], 0, 0⟩, ⟨[0, 1, 0, 0, 2], 1, 1000⟩] }
    let node := { Node.built "talker" "" 0 (ZenohId.fromBytes [7]) 10000 10000 with publishers := [0] }
    letI := target64
    ∃ system, System.Run anyStep (.initial (fun _ => publisher) node) system ∧
      system.control = .idle (some (.err (.transport .io))) ∧
      ¬∀ payload ∈ publisher.pending, payload ∈ system.world.log.flatMap (Event.wire 0) ∨
        payload ∈ (system.world.statics 0).pending := by
  intro publisher node
  let := target64
  exact Machine.exists_run [.call, .turn true, .turn true, .turn true, .turn false] (by decide +kernel)

/-- The messages of a publisher that are not lost, in the order in which they were stamped. -/
def System.line (system : System) (ref : PubRef) : List CdrPayload :=
  (system.box ref).line ++ (system.world.statics ref).stamped.map CdrPayload.clip

/-- The line is numbered upwards, below the number that is given out next. -/
structure System.Ordered (ref : PubRef) (system : System) : Prop where
  sorted : ((system.line ref).map CdrPayload.seqNum).Pairwise (· < ·)
  below : ∀ payload ∈ system.line ref, payload.seqNum < (system.world.statics ref).seqNum
  single : (system.world.statics ref).stamped.length ≤ 1

theorem System.Ordered.sublist {system next : System} {ref : PubRef} (ordered : Ordered ref system)
    (intake : (system.world.statics ref).SameIntake (next.world.statics ref))
    (line : (next.box ref).line.Sublist (system.box ref).line) : Ordered ref next := by
  have whole : (next.line ref).Sublist (system.line ref) := by
    unfold System.line
    rw [intake.stamped]
    exact line.append_right _
  refine ⟨ordered.sorted.sublist (whole.map _), fun payload member => ?_, by rw [intake.stamped]; exact ordered.single⟩
  rw [intake.seqNum]
  exact ordered.below payload (whole.subset member)

omit [Target] in
theorem lt_add_one_of_ne_maxValue {number : Int64} (small : number ≠ Int64.maxValue) : number < number + 1 := by
  have bound := number.toInt_lt
  have above := number.le_toInt
  have different : number.toInt ≠ 2 ^ 63 - 1 := fun same => small (Int64.toInt_inj.mp same)
  have one : (1 : Int64).toInt = 1 := rfl
  rw [Int64.lt_iff_toInt_lt, Int64.toInt_add, one, Int.bmod_eq_of_le (by omega) (by omega)]
  omega

theorem System.Ordered.step {system next : System} {ref : PubRef} {act : Act} (ordered : Ordered ref system)
    (moves : Moves ref system next act) (may : SingleTask ref system act) : Ordered ref next := by
  cases moves with
  | stays intake _ box => exact ordered.sublist intake (box ▸ .refl _)
  | drains intake _ step => exact ordered.sublist intake step.line_sublist
  | discards payload intake _ _ waiting same still =>
    apply ordered.sublist intake
    -- What is drained for the session alone leaves the front of the line.
    have wire := (same []).1
    simp only [System.box, still] at wire ⊢
    change ((next.world.box ref []).wire ++ ([] ++ (next.world.statics ref).pending)).Sublist
      ((system.world.box ref []).wire ++ ([] ++ (system.world.statics ref).pending))
    rw [wire, waiting]
    exact (List.Sublist.refl _).append (List.sublist_cons_self _ _)
  | @stamps data timestampNs stamped _ box =>
    obtain ⟨none, small⟩ := may rfl
    have after := Publisher.stamp_eq_some stamped
    have line : next.line ref = system.line ref ++
        [⟨data.take cdrDrainBuf, (system.world.statics ref).seqNum, timestampNs⟩] := by
      simp [System.line, box, after, none, CdrPayload.clip]
    -- The counter does not wrap, so the new number is above all that were given out.
    have larger := lt_add_one_of_ne_maxValue small
    refine ⟨?_, ?_, by simp [after, none]⟩
    · rw [line, List.map_append, List.pairwise_append]
      refine ⟨ordered.sorted, List.pairwise_singleton _ _, fun number member last same => ?_⟩
      obtain ⟨payload, inside, rfl⟩ := List.mem_map.mp member
      rw [List.mem_singleton.mp same]
      exact ordered.below payload inside
    · intro payload member
      rw [line] at member
      rw [after]
      rcases List.mem_append.mp member with old | new
      · exact Int64.lt_trans (ordered.below payload old) larger
      · rw [List.mem_singleton.mp new]
        exact larger
  | @enqueues waiting payload entered _ box =>
    obtain ⟨found, after⟩ := Publisher.enqueue_eq_some entered
    -- With one task, the message that enters is the only one that waits.
    obtain ⟨inside, same⟩ := List.getElem?_eq_some_iff.mp found
    have only : waiting = 0 ∧ (system.world.statics ref).stamped = [payload] := by
      have count : (system.world.statics ref).stamped.length = 1 := by
        have single := ordered.single
        omega
      obtain ⟨head, alone⟩ := List.length_eq_one_iff.mp count
      have front : waiting = 0 := by omega
      subst front
      simp only [alone, List.getElem_cons_zero] at same
      exact ⟨rfl, by rw [alone, same]⟩
    obtain ⟨rfl, alone⟩ := only
    have line : next.line ref = system.line ref := by
      simp [System.line, box, after, alone]
    have number : (next.world.statics ref).seqNum = (system.world.statics ref).seqNum := by rw [after]
    exact ⟨line ▸ ordered.sorted, by rw [line, number]; exact ordered.below, by simp [after, alone]⟩

/-- The messages of a single task reach the wire in order and at most once,
and no stash overwrites a message. -/
theorem wire_strictly_increasing (statics : PubRef → Publisher) (node : Node) (ref : PubRef)
    {topic : TopicKeyExpr} {locality : Locality} {cdrCap queue : Nat}
    (unused : statics ref = .fresh topic locality cdrCap queue) {system : System}
    (run : System.Run (SingleTask ref) (.initial statics node) system) :
    ((system.world.log.flatMap (Event.wire ref)).map CdrPayload.seqNum).Pairwise (· < ·) ∧
      ∀ event ∈ system.world.log, event.Unoccupied := by
  have first : (System.initial statics node).Ordered ref := by
    have empty : (System.initial statics node).line ref = [] := by
      simp [System.line, System.initial, System.box, World.box, Outbox.Box.line, Outbox.Box.pending,
        Control.flight, unused, Publisher.fresh]
    exact ⟨by simp [empty], by simp [empty], by simp [System.initial, unused, Publisher.fresh]⟩
  have ordered := System.Run.invariant _ run .idle first fun sound holds may step =>
    holds.step ((System.stepped_of_step sound step).moves ref) may
  have clear := System.Run.invariant (fun system => ∀ event ∈ system.world.log, event.Unoccupied) run .idle
    (by simp [System.initial]) fun sound holds _ step => (System.stepped_of_step sound step).unoccupied holds
  refine ⟨ordered.sorted.sublist (List.Sublist.map _ ?_), clear⟩
  unfold System.line Outbox.Box.line
  rw [List.append_assoc]
  exact List.sublist_append_left _ _

omit [Target] in
theorem wire_strictly_increasing_retry :
    let node := { Node.built "talker" "" 0 (ZenohId.fromBytes [7]) 10000 10000 with publishers := [0] }
    letI := target64
    ∃ system, System.Run (SingleTask 0)
        (.initial (fun _ => .fresh ⟨0, "chatter", "String", "hash"⟩ .any 144 4) node) system ∧
      ((system.world.log.flatMap (Event.wire 0)).map CdrPayload.seqNum).Pairwise (· < ·) ∧
        ∀ event ∈ system.world.log, event.Unoccupied := by
  intro node
  let := target64
  obtain ⟨system, run, wired⟩ : ∃ system, System.Run (SingleTask 0)
      (.initial (fun _ => .fresh ⟨0, "chatter", "String", "hash"⟩ .any 144 4) node) system ∧
      (system.world.log.flatMap (Event.wire 0)).length = 2 :=
    Machine.exists_run [.stamp 0 [0, 1, 0, 0, 5] 0, .enqueue 0 0, .call, .turn true, .turn true, .turn false,
      .reconnect node, .stamp 0 [0, 1, 0, 0, 6] 1000, .enqueue 0 0, .call, .turn true, .turn true, .turn true,
      .turn true] (by decide +kernel)
  exact ⟨system, run, wire_strictly_increasing (fun _ => .fresh _ _ _ _) node 0 rfl run⟩

end Runs
end ZenohRos2
