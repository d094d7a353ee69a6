import ZenohRos2.Ros2.Subscription
import ZenohRos2.Sdk.Delivery
import ZenohRos2.Sdk.Wire

/-! The publishing side of a network.

Messages enter by `send`, from one task for each publisher, and leave in the
frames of the drain. The line of a publisher has the messages that are not lost
in the order in which they were sent, and their numbers tell which they are.
-/

set_option autoImplicit false

namespace ZenohRos2
open Rust Cdr

section Line
variable [Target] {system next : System} {ref : PubRef} {act : Act}

theorem System.line_stamp {data : Bytes} {timestampNs : Int64} (step : system.step (.stamp ref data timestampNs) = some next) :
    (next.line ref = system.line ref ++ [⟨data.take cdrDrainBuf, (system.world.statics ref).seqNum, timestampNs⟩] ∧
      (next.world.statics ref).seqNum = (system.world.statics ref).seqNum + 1) ∧
    ∀ other, other ≠ ref → next.line other = system.line other ∧
      (next.world.statics other).seqNum = (system.world.statics other).seqNum := by
  obtain ⟨publisher, stamped, rfl⟩ := Option.map_eq_some_iff.mp step
  have after := Publisher.stamp_eq_some stamped
  refine ⟨⟨?_, by simp [after]⟩, fun other different => ⟨?_, by simp [different]⟩⟩
  · simp [line, box, World.box, after, CdrPayload.clip, Outbox.Box.line, Outbox.Box.pending]
  · simp [line, box, World.box, different]

theorem System.enqueue_line {waiting : Nat} {payload : CdrPayload} (single : (system.world.statics ref).stamped.length ≤ 1)
    (entered : (system.world.statics ref).enqueue waiting = some (payload, next.world.statics ref))
    (box : next.box ref = Outbox.enqueue (system.box ref) payload.clip) : next.line ref = system.line ref := by
  obtain ⟨found, after⟩ := Publisher.enqueue_eq_some entered
  obtain ⟨inside, same⟩ := List.getElem?_eq_some_iff.mp found
  have count : (system.world.statics ref).stamped.length = 1 := by omega
  obtain ⟨head, alone⟩ := List.length_eq_one_iff.mp count
  have front : waiting = 0 := by omega
  subst front
  simp only [alone, List.getElem_cons_zero] at same
  simp [line, box, after, alone, same]

theorem System.Moves.line_sublist (moves : Moves ref system next act)
    (single : (system.world.statics ref).stamped.length ≤ 1)
    (unstamped : ∀ data timestampNs, act ≠ .stamp ref data timestampNs) :
    (next.line ref).Sublist (system.line ref) ∧
      (next.world.statics ref).seqNum = (system.world.statics ref).seqNum := by
  have kept (intake : (system.world.statics ref).SameIntake (next.world.statics ref))
      (line : (next.box ref).line.Sublist (system.box ref).line) : (next.line ref).Sublist (system.line ref) := by
    unfold System.line
    rw [intake.stamped]
    exact line.append_right _
  cases moves with
  | stays intake _ box => exact ⟨kept intake (box ▸ .refl _), intake.seqNum⟩
  | drains intake _ step => exact ⟨kept intake step.line_sublist, intake.seqNum⟩
  | discards payload intake _ _ waiting same still =>
    refine ⟨kept intake ?_, intake.seqNum⟩
    have wire := (same []).1
    simp only [System.box, still] at wire ⊢
    change ((next.world.box ref []).wire ++ ([] ++ (next.world.statics ref).pending)).Sublist
      ((system.world.box ref []).wire ++ ([] ++ (system.world.statics ref).pending))
    rw [wire, waiting]
    exact (List.Sublist.refl _).append (List.sublist_cons_self _ _)
  | @stamps data timestampNs => exact absurd rfl (unstamped data timestampNs)
  | enqueues entered _ box =>
    exact ⟨(enqueue_line single entered box) ▸ .refl _, by rw [(Publisher.enqueue_eq_some entered).2]⟩

theorem System.line_eq (sound : system.control.Sound system.world) (step : system.step act = some next)
    (remote : (system.world.statics ref).locality ≠ .sessionLocal)
    (single : (system.world.statics ref).stamped.length ≤ 1)
    (unstamped : ∀ data timestampNs, act ≠ .stamp ref data timestampNs) (good : act ≠ .turn false) :
    next.line ref = system.line ref := by
  obtain ⟨events, log, -, failed⟩ := writes sound step
  have lost : next.world.log.flatMap (Event.lost ref) = system.world.log.flatMap (Event.lost ref) := by
    rw [log, List.flatMap_append, List.append_right_eq_self, List.flatMap_eq_nil_iff]
    intro event member
    cases event with
    | failed point owner frame => exact absurd member (failed good point owner frame)
    | _ => rfl
  cases (stepped_of_step sound step).moves ref with
  | stays intake _ box => rw [line, box, intake.stamped, line]
  | drains intake _ moved => rw [line, moved.line_eq lost, intake.stamped, line]
  | discards _ _ _ only => exact absurd only remote
  | @stamps data timestampNs => exact absurd rfl (unstamped data timestampNs)
  | enqueues entered _ box => exact enqueue_line single entered box

end Line

def InPlace [Target] (sent : List Message) (payload : CdrPayload) : Prop :=
  ∃ (n : Nat) (message : Message), payload.seqNum.toInt = n ∧ sent[n]? = some message ∧
    message.ty.Within message.value ∧ Addressable message.encoded ∧ payload.data <+: message.encoded

/-- The publishing side: what is in line, or on the wire, are messages that were sent, numbered from 0. -/
structure Sending [Target] (types : PubRef → Ty) (topic : PubRef → TopicKeyExpr) (system : System)
    (sent : PubRef → List Message) : Prop where
  control : system.control.Sound system.world
  topics : ∀ ref, (system.world.statics ref).topic = topic ref
  held : system.Held
  keyed : ∀ event ∈ system.world.log, event.Keyed topic
  ordered : ∀ ref, system.Ordered ref
  count : ∀ ref, (system.world.statics ref).seqNum.toInt = (sent ref).length
  typed : ∀ ref, ∀ message ∈ sent ref, message.ty = types ref
  inPlace : ∀ ref, ∀ payload ∈ system.line ref, InPlace (sent ref) payload

namespace Sending
variable [Target] {types : PubRef → Ty} {topic : PubRef → TopicKeyExpr} {system next : System}
  {sent : PubRef → List Message} {act : Act}

theorem writes (sending : Sending types topic system sent) (step : system.step act = some next) :
    ∃ events, next.world.log = system.world.log ++ events ∧ ∀ event ∈ events, event.Keyed topic := by
  obtain ⟨events, log, from_, -⟩ := System.writes sending.control step
  refine ⟨events, log, fun event member => ?_⟩
  cases event with
  | wrote owner frame =>
    obtain ⟨i, burst, ke, sn, gid, flight, inner, rfl, key, rfl, addressable⟩ := from_ _ member
    exact ⟨ke, sn, gid, flight, sending.topics burst.drain ▸ sending.held i burst ke inner key, rfl, addressable⟩
  | _ => trivial

theorem after (sending : Sending types topic system sent) (step : system.step act = some next)
    (single : ∀ ref, SingleTask ref system act) {more : PubRef → List Message}
    (count : ∀ ref, (next.world.statics ref).seqNum.toInt = (more ref).length)
    (typed : ∀ ref, ∀ message ∈ more ref, message.ty = types ref)
    (inPlace : ∀ ref, ∀ payload ∈ next.line ref, InPlace (more ref) payload) : Sending types topic next more := by
  have stepped := System.stepped_of_step sending.control step
  obtain ⟨events, log, keyed⟩ := sending.writes step
  refine ⟨stepped.sound, fun ref => (stepped.moves ref).topic.trans (sending.topics ref),
    sending.held.step sending.control step, fun event member => ?_,
    fun ref => (sending.ordered ref).step (stepped.moves ref) (single ref), count, typed, inPlace⟩
  rw [log] at member
  exact (List.mem_append.mp member).elim (sending.keyed event) (keyed event)

theorem task (sending : Sending types topic system sent) (unstamped : ∀ ref data timestampNs, act ≠ .stamp ref data timestampNs)
    (step : system.step act = some next) : Sending types topic next sent := by
  have moves (ref : PubRef) := (System.stepped_of_step sending.control step).moves ref
  have less (ref : PubRef) := (moves ref).line_sublist (sending.ordered ref).single (unstamped ref)
  refine sending.after step (fun ref => ?_) (fun ref => ?_) sending.typed fun ref payload member => ?_
  · cases act with
    | stamp owner data timestampNs => exact absurd rfl (unstamped owner data timestampNs)
    | _ => trivial
  · rw [(less ref).2]
    exact sending.count ref
  · exact sending.inPlace ref payload ((less ref).1.subset member)

theorem send (sending : Sending types topic system sent) {ref : PubRef} {value : (types ref).Val}
    (within : (types ref).Within value) (array : (system.world.statics ref).cdrCap ≤ isizeMax)
    (alone : (system.world.statics ref).stamped = []) (small : (system.world.statics ref).seqNum ≠ Int64.maxValue)
    {n : Nat} {raw : Bytes} {timestampNs : Int64}
    (ran : serializeWithHeader (types ref) value (List.replicate (system.world.statics ref).cdrCap 0) = .ok (n, raw))
    (step : system.step (.stamp ref (raw.take n) timestampNs) = some next) :
    Sending types topic next (Function.update sent ref (sent ref ++ [⟨types ref, value⟩])) := by
  obtain ⟨count, front, -, fits⟩ := serializeWithHeader_written within ran
  rw [List.length_replicate] at fits
  obtain ⟨⟨line, number⟩, others⟩ := System.line_stamp step
  refine sending.after step (fun other owner => ?_) (fun other => ?_) (fun other message member => ?_)
    fun other payload member => ?_
  · cases owner
    exact ⟨alone, small⟩
  -- The message is the next one of this publisher, and the others have none more.
  · by_cases mine : other = ref
    · subst mine
      rw [number, toInt_add_one small, sending.count other, Function.update_self, List.length_append,
        List.length_singleton]
      rfl
    · rw [(others other mine).2, Function.update_of_ne mine]
      exact sending.count other
  · by_cases mine : other = ref
    · subst mine
      rw [Function.update_self] at member
      rcases List.mem_append.mp member with before | new
      · exact sending.typed other message before
      · rw [List.mem_singleton.mp new]
    · rw [Function.update_of_ne mine] at member
      exact sending.typed other message member
  · by_cases mine : other = ref
    · subst mine
      rw [line] at member
      rw [Function.update_self]
      rcases List.mem_append.mp member with before | new
      · obtain ⟨n, message, number, found, rest⟩ := sending.inPlace other payload before
        obtain ⟨inside, -⟩ := List.getElem?_eq_some_iff.mp found
        exact ⟨n, message, number, by rw [List.getElem?_append_left inside, found], rest⟩
      · rw [List.mem_singleton.mp new]
        refine ⟨(sent other).length, ⟨types other, value⟩, sending.count other, List.getElem?_concat_length, within, ?_, ?_⟩
        · exact Nat.le_trans (Nat.le_of_eq count.symm) (Nat.le_trans fits array)
        · rw [Message.encoded, ← front]
          exact List.take_prefix _ _
    · rw [(others other mine).1] at member
      rw [Function.update_of_ne mine]
      exact sending.inPlace other payload member

end Sending
end ZenohRos2
