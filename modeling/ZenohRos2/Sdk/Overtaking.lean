import Mathlib.Data.List.InsertIdx
import ZenohRos2.Sdk.Delivery

/-! Several tasks that send through one publisher.

A task takes a number under the lock, gives the lock back and waits for room in
the channel. When there is room, any of the waiting tasks may be the one that
enters, so a message can overtake one with a smaller number.
-/

set_option autoImplicit false

namespace ZenohRos2
open Rust

namespace System

/-- The numbers of a publisher's messages in the order in which they entered its channel. -/
def entered (system : System) (ref : PubRef) : List Int64 := (system.sent ref).map CdrPayload.seqNum

/-- The numbers of the tasks that wait for room, the one that has waited longest first. -/
def waiting (system : System) (ref : PubRef) : List Int64 :=
  (system.world.statics ref).stamped.map CdrPayload.seqNum

def InOrder (ref : PubRef) (system : System) : Prop := (system.entered ref).Pairwise (· < ·)

instance (ref : PubRef) : DecidablePred (InOrder ref) := fun _ => inferInstanceAs (Decidable (List.Pairwise _ _))

/-- A message that waits is behind one with a larger number. -/
def Overtaken (ref : PubRef) (system : System) : Prop :=
  ∃ number ∈ system.entered ref, ∃ late ∈ system.waiting ref, ¬number < late

def Unwrapped (ref : PubRef) (system : System) : Act → Prop
  | .stamp owner _ _ => owner = ref → (system.world.statics ref).seqNum ≠ Int64.maxValue
  | _ => True

/-- Of the tasks that wait, the one enters that took its number first. -/
def FirstIn (ref : PubRef) (_ : System) : Act → Prop
  | .enqueue owner waiting => owner = ref → waiting = 0
  | _ => True

instance (ref : PubRef) (system : System) : (act : Act) → Decidable (Unwrapped ref system act)
  | .stamp .. => inferInstanceAs (Decidable (_ → _))
  | .enqueue .. => inferInstanceAs (Decidable True)
  | .call => inferInstanceAs (Decidable True)
  | .turn _ => inferInstanceAs (Decidable True)
  | .reconnect _ => inferInstanceAs (Decidable True)

instance (ref : PubRef) (system : System) : (act : Act) → Decidable (FirstIn ref system act)
  | .stamp .. => inferInstanceAs (Decidable True)
  | .enqueue .. => inferInstanceAs (Decidable (_ → _))
  | .call => inferInstanceAs (Decidable True)
  | .turn _ => inferInstanceAs (Decidable True)
  | .reconnect _ => inferInstanceAs (Decidable True)

/-- The numbers that wait go up, and the next one is above all that were given out. -/
structure Ticketed (ref : PubRef) (system : System) : Prop where
  sound : system.control.Sound system.world
  waiting : (system.waiting ref).Pairwise (· < ·)
  below : ∀ number ∈ system.entered ref ++ system.waiting ref, number < (system.world.statics ref).seqNum

inductive Served (ref : PubRef) (system next : System) : Act → Prop where
  | still {act : Act} (entered : next.entered ref = system.entered ref)
      (waiting : next.waiting ref = system.waiting ref)
      (counter : (next.world.statics ref).seqNum = (system.world.statics ref).seqNum)
      (owner : ∀ position, act ≠ .enqueue ref position) : Served ref system next act
  | issued {data : Bytes} {timestampNs : Int64} (entered : next.entered ref = system.entered ref)
      (waiting : next.waiting ref = system.waiting ref ++ [(system.world.statics ref).seqNum])
      (counter : (next.world.statics ref).seqNum = (system.world.statics ref).seqNum + 1) :
      Served ref system next (.stamp ref data timestampNs)
  | admitted {position : Nat} {number : Int64} (found : (system.waiting ref)[position]? = some number)
      (entered : next.entered ref = system.entered ref ++ [number])
      (waiting : next.waiting ref = (system.waiting ref).eraseIdx position)
      (counter : (next.world.statics ref).seqNum = (system.world.statics ref).seqNum) :
      Served ref system next (.enqueue ref position)

section Steps
variable [Target] {ref : PubRef} {system next : System} {act : Act}

theorem served_of_enqueue {owner : PubRef} {position : Nat} (step : system.step (.enqueue owner position) = some next) :
    Served ref system next (.enqueue owner position) := by
  obtain ⟨⟨payload, publisher⟩, entered, same⟩ := Option.map_eq_some_iff.mp step
  cases same
  obtain ⟨found, after⟩ := Publisher.enqueue_eq_some entered
  by_cases own : owner = ref
  · subst own
    have first : (system.waiting owner)[position]? = some payload.seqNum := by
      rw [System.waiting, List.getElem?_map, found, Option.map_some]
    apply Served.admitted first
    · simp [System.entered, System.sent, Event.sentBy, CdrPayload.clip]
    · simp [System.waiting, after, List.eraseIdx_map]
    · simp [after]
  · have other : ref ≠ owner := fun same => own same.symm
    apply Served.still
    · simp [System.entered, System.sent, Event.sentBy, own]
    · simp [System.waiting, other]
    · simp [other]
    · intro position same
      exact own (Act.enqueue.inj same).1

theorem served_of_step (ref : PubRef) (sound : system.control.Sound system.world)
    (step : system.step act = some next) : Served ref system next act := by
  have moves := (stepped_of_step sound step).moves ref
  have still (intake : (system.world.statics ref).SameIntake (next.world.statics ref))
      (sent : next.sent ref = system.sent ref) (owner : ∀ position, act ≠ .enqueue ref position) :
      Served ref system next act :=
    .still (by rw [entered, sent, entered]) (by rw [waiting, intake.stamped, waiting]) intake.seqNum owner
  cases act with
  | enqueue owner position => exact served_of_enqueue step
  | stamp owner data timestampNs =>
    cases moves with
    | stays intake sent => exact still intake sent (by simp)
    | stamps stamped sent =>
      have after := Publisher.stamp_eq_some stamped
      apply Served.issued
      · rw [entered, sent, entered]
      · simp [waiting, after]
      · rw [after]
  | call =>
    cases moves with
    | stays intake sent => exact still intake sent (by simp)
  | turn written =>
    cases moves with
    | stays intake sent => exact still intake sent (by simp)
    | drains intake sent => exact still intake sent (by simp)
    | discards _ intake sent => exact still intake sent (by simp)
  | reconnect node =>
    cases moves with
    | stays intake sent => exact still intake sent (by simp)

theorem Ticketed.step (ticketed : Ticketed ref system) (may : Unwrapped ref system act)
    (step : system.step act = some next) : Ticketed ref next := by
  have sound := (stepped_of_step ticketed.sound step).sound
  cases served_of_step ref ticketed.sound step with
  | still entered waiting counter =>
    exact ⟨sound, by rw [waiting]; exact ticketed.waiting, by rw [entered, waiting, counter]; exact ticketed.below⟩
  | issued entered waiting counter =>
    have larger := lt_add_one_of_ne_maxValue (may rfl)
    refine ⟨sound, ?_, ?_⟩
    · rw [waiting, List.pairwise_append]
      refine ⟨ticketed.waiting, List.pairwise_singleton _ _, fun number member last same => ?_⟩
      rw [List.mem_singleton.mp same]
      exact ticketed.below number (List.mem_append_right _ member)
    · intro number member
      rw [entered, waiting, ← List.append_assoc] at member
      rw [counter]
      rcases List.mem_append.mp member with old | new
      · exact Int64.lt_trans (ticketed.below number old) larger
      · rw [List.mem_singleton.mp new]
        exact larger
  | admitted found entered waiting counter =>
    refine ⟨sound, ?_, ?_⟩
    · rw [waiting]
      exact ticketed.waiting.sublist (List.eraseIdx_sublist ..)
    · intro number member
      rw [entered, waiting, List.append_assoc] at member
      rw [counter]
      apply ticketed.below
      rcases List.mem_append.mp member with old | new
      · exact List.mem_append_left _ old
      · apply List.mem_append_right
        rcases List.mem_cons.mp new with rfl | rest
        · exact List.mem_of_getElem? found
        · exact List.mem_of_mem_eraseIdx rest

theorem overtaken_of_not_firstIn (ticketed : Ticketed ref system) (step : system.step act = some next)
    (late : ¬FirstIn ref system act) : Overtaken ref next := by
  cases served_of_step ref ticketed.sound step with
  | still entered waiting counter owner =>
    apply absurd _ late
    cases act with
    | enqueue other position => exact fun own => absurd (own ▸ rfl) (owner position)
    | _ => trivial
  | issued => exact absurd trivial late
  | @admitted position number found entered waiting =>
    -- The one in front still waits, with a smaller number.
    cases position with
    | zero => exact absurd (fun _ => rfl) late
    | succ position =>
      cases front : system.waiting ref with
      | nil =>
        rw [front] at found
        cases found
      | cons first rest =>
        have sorted := ticketed.waiting
        rw [front] at found sorted waiting
        have smaller : first < number :=
          (List.pairwise_cons.mp sorted).1 number (List.mem_of_getElem? found)
        refine ⟨number, by simp [entered], first, by simp [waiting], ?_⟩
        exact fun larger => Int64.lt_irrefl (Int64.lt_trans smaller larger)

structure Orderly (ref : PubRef) (system : System) : Prop extends Ticketed ref system where
  inOrder : InOrder ref system
  ahead : ∀ number ∈ system.entered ref, ∀ late ∈ system.waiting ref, number < late

theorem Orderly.step (orderly : Orderly ref system) (may : Unwrapped ref system act) (first : FirstIn ref system act)
    (step : system.step act = some next) : Orderly ref next := by
  have ticketed := orderly.toTicketed.step may step
  cases served_of_step ref orderly.sound step with
  | still entered waiting =>
    refine ⟨ticketed, ?_, ?_⟩
    · rw [InOrder, entered]
      exact orderly.inOrder
    · rw [entered, waiting]
      exact orderly.ahead
  | issued entered waiting =>
    refine ⟨ticketed, ?_, ?_⟩
    · rw [InOrder, entered]
      exact orderly.inOrder
    · intro number member late inside
      rw [entered] at member
      rw [waiting] at inside
      rcases List.mem_append.mp inside with old | new
      · exact orderly.ahead number member late old
      · rw [List.mem_singleton.mp new]
        exact orderly.below number (List.mem_append_left _ member)
  | @admitted position front found entered waiting =>
    -- The one that enters has the least number of all that wait, and those come in order.
    obtain rfl := first rfl
    cases queue : system.waiting ref with
    | nil =>
      rw [queue] at found
      cases found
    | cons head rest =>
      have sorted := orderly.waiting
      have ahead := orderly.ahead
      rw [queue] at found sorted waiting ahead
      obtain rfl : head = front := Option.some.inj found
      have smallest := (List.pairwise_cons.mp sorted).1
      refine ⟨ticketed, ?_, ?_⟩
      · rw [InOrder, entered, List.pairwise_append]
        refine ⟨orderly.inOrder, List.pairwise_singleton _ _, fun number member last same => ?_⟩
        rw [List.mem_singleton.mp same]
        exact ahead number member head List.mem_cons_self
      · intro number member late inside
        rw [entered] at member
        rw [waiting] at inside
        rcases List.mem_append.mp member with old | new
        · exact ahead number old late (List.mem_cons_of_mem _ inside)
        · rw [List.mem_singleton.mp new]
          exact smallest late inside

theorem Overtaken.step (overtaken : Overtaken ref system) (sound : system.control.Sound system.world)
    (step : system.step act = some next) : Overtaken ref next ∨ ¬InOrder ref next := by
  obtain ⟨number, member, late, waits, behind⟩ := overtaken
  cases served_of_step ref sound step with
  | still entered waiting => exact .inl ⟨number, by rwa [entered], late, by rwa [waiting], behind⟩
  | issued entered waiting =>
    exact .inl ⟨number, by rwa [entered], late, by rw [waiting]; exact List.mem_append_left _ waits, behind⟩
  | @admitted position admitted found entered waiting =>
    by_cases same : late = admitted
    · subst same
      right
      intro sorted
      rw [InOrder, entered, List.pairwise_append] at sorted
      exact behind (sorted.2.2 number member late List.mem_cons_self)
    · left
      obtain ⟨place, held⟩ := List.getElem?_of_mem waits
      refine ⟨number, by simp [entered, member], late, ?_, behind⟩
      rw [waiting, List.mem_eraseIdx_iff_getElem?]
      refine ⟨place, ?_, held⟩
      rintro rfl
      exact same (Option.some.inj (held.symm.trans found))

theorem Overtaken.waits {acts : List Act} {last : System} (overtaken : Overtaken ref system)
    (sound : system.control.Sound system.world) (always : Machine.Always System.step (InOrder ref) system acts)
    (ran : Machine.execute System.step anyStep acts system = some last) : last.waiting ref ≠ [] := by
  induction acts generalizing system with
  | nil =>
    cases ran
    obtain ⟨_, _, late, waits, _⟩ := overtaken
    exact List.ne_nil_of_mem waits
  | cons act acts ih =>
    obtain ⟨-, next, step, rest⟩ := Machine.execute_cons.mp ran
    have later := always.next step
    rcases overtaken.step sound step with again | disorder
    · exact ih again (stepped_of_step sound step).sound later rest
    · exact absurd later.first disorder

theorem firstIn_of_always {acts : List Act} {last : System} (ticketed : Ticketed ref system)
    (unwrapped : Machine.Meets System.step (Unwrapped ref) system acts)
    (always : Machine.Always System.step (InOrder ref) system acts)
    (ran : Machine.execute System.step anyStep acts system = some last) (settled : last.waiting ref = []) :
    Machine.Meets System.step (FirstIn ref) system acts := by
  induction acts generalizing system with
  | nil => trivial
  | cons act acts ih =>
    obtain ⟨-, next, step, rest⟩ := Machine.execute_cons.mp ran
    have later := always.next step
    unfold Machine.Meets at unwrapped ⊢
    rw [step] at unwrapped ⊢
    have after := ticketed.step unwrapped.1 step
    constructor
    · by_contra late
      exact (overtaken_of_not_firstIn ticketed step late).waits after.sound later rest settled
    · exact ih after unwrapped.2 later rest

end Steps

section Runs
variable [Target]

/-- In every run in which each message that enters the channel is the first of
those that wait, the numbers enter it strictly increasing; and a run at whose
end no message waits has no other way to keep them so. -/
theorem inOrder_iff_firstIn (statics : PubRef → Publisher) (node : Node) (ref : PubRef)
    {topic : TopicKeyExpr} {locality : Locality} {cdrCap queue : Nat}
    (unused : statics ref = .fresh topic locality cdrCap queue) (acts : List Act)
    (unwrapped : Machine.Meets System.step (Unwrapped ref) (.initial statics node) acts) :
    (Machine.Meets System.step (FirstIn ref) (.initial statics node) acts →
      Machine.Always System.step (InOrder ref) (.initial statics node) acts) ∧
    ((∃ last, Machine.execute System.step anyStep acts (.initial statics node) = some last ∧ last.waiting ref = []) →
      Machine.Always System.step (InOrder ref) (.initial statics node) acts →
      Machine.Meets System.step (FirstIn ref) (.initial statics node) acts) := by
  have nothing : (System.initial statics node).waiting ref = [] := by
    simp [waiting, System.initial, unused, Publisher.fresh]
  have unsent : (System.initial statics node).entered ref = [] := rfl
  have ticketed : Ticketed ref (.initial statics node) := ⟨.idle, by simp [nothing], by simp [nothing, unsent]⟩
  constructor
  · intro first
    have orderly : Orderly ref (.initial statics node) := ⟨ticketed, by simp [InOrder, unsent], by simp [unsent]⟩
    exact Machine.always_of_meets (fun orderly step may => Orderly.step orderly may.1 may.2 step) Orderly.inOrder
      orderly (unwrapped.and first)
  · rintro ⟨last, ran, settled⟩ always
    exact firstIn_of_always ticketed unwrapped always ran settled

omit [Target] in
theorem inOrder_two_tasks :
    let topic : TopicKeyExpr := ⟨0, "chatter", "String", "hash"⟩
    let node := { Node.built "talker" "" 0 (ZenohId.fromBytes [7]) 10000 10000 with publishers := [0] }
    let start := System.initial (fun _ => .fresh topic .any 144 1) node
    let acts : List Act := [.stamp 0 [0, 1, 0, 0, 5] 0, .stamp 0 [0, 1, 0, 0, 6] 1000, .enqueue 0 0, .call, .turn true,
      .turn true, .enqueue 0 0]
    letI := target64
    Machine.Always System.step (InOrder 0) start acts ∧ Machine.Meets System.step (FirstIn 0) start acts := by
  intro topic node start acts
  let := target64
  obtain ⟨kept, only⟩ := inOrder_iff_firstIn (fun _ => .fresh topic .any 144 1) node 0 rfl acts (by decide +kernel)
  have settled : ∃ last, Machine.execute System.step anyStep acts start = some last ∧ last.waiting 0 = [] := by
    have done : (Machine.execute System.step anyStep acts start).any fun last => decide (last.waiting 0 = []) := by
      decide +kernel
    obtain ⟨last, ran, empty⟩ := (Option.any_eq_true _ _).mp done
    exact ⟨last, ran, of_decide_eq_true empty⟩
  have ordered := kept (by decide +kernel)
  exact ⟨ordered, only settled ordered⟩

omit [Target] in
/-- Two tasks send while the channel is full. The second one enters first. -/
theorem message_overtaken :
    let topic : TopicKeyExpr := ⟨0, "chatter", "String", "hash"⟩
    let node := { Node.built "talker" "" 0 (ZenohId.fromBytes [7]) 10000 10000 with publishers := [0] }
    let start := System.initial (fun _ => .fresh topic .any 144 1) node
    let acts : List Act := [.stamp 0 [0, 1, 0, 0, 5] 0, .enqueue 0 0, .stamp 0 [0, 1, 0, 0, 6] 1000,
      .stamp 0 [0, 1, 0, 0, 7] 2000, .call, .turn true, .turn true, .enqueue 0 1, .turn true, .enqueue 0 0]
    letI := target64
    (Machine.execute System.step anyStep acts start).map (fun last => last.entered 0) = some [0, 2, 1] ∧
      Machine.Meets System.step (Unwrapped 0) start acts ∧ ¬Machine.Always System.step (InOrder 0) start acts := by
  intro topic node start acts
  let := target64
  decide +kernel

end Runs
end System
end ZenohRos2
