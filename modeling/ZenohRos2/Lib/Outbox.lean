import Std

/-! Sending in batches, with one slot for a message that could not be sent.

Messages wait in a queue. A burst takes them one by one into a batch; a batch
is written as a whole, when it is full or when nothing is left to take. If the
write fails, the message taken last goes into the slot, which is taken from
before the queue, and the rest of the batch is lost.

Two facts hold in every run. What is on the wire, in the batch, in the slot and
in the queue stands in the order in which it was enqueued, since every step
only drops messages from this line or moves them forward in it. And no message
disappears but from a batch whose write failed.
-/

set_option autoImplicit false

namespace Outbox
variable {α : Type}

structure Box (α : Type) where
  wire : List α
  batch : List α
  slot : Option α
  queue : List α
  lost : List α

namespace Box

/-- What can still be taken, in the order in which it is taken. -/
def pending (box : Box α) : List α := box.slot.toList ++ box.queue

/-- Everything that is not lost, the oldest first. -/
def line (box : Box α) : List α := box.wire ++ (box.batch ++ box.pending)

def all (box : Box α) : List α := box.line ++ box.lost

end Box

/-- A step of a burst; `m` is the message it takes. -/
inductive Step : Box α → Box α → Prop where
  | append {wire batch queue lost rest : List α} {slot : Option α} {m : α}
      (taken : slot.toList ++ queue = m :: rest) :
      Step ⟨wire, batch, slot, queue, lost⟩ ⟨wire, batch ++ [m], none, rest, lost⟩
  | flush {wire batch queue lost rest : List α} {slot : Option α} {m : α}
      (taken : slot.toList ++ queue = m :: rest) :
      Step ⟨wire, batch, slot, queue, lost⟩ ⟨wire ++ batch, [m], none, rest, lost⟩
  | flushFailed {wire batch queue lost rest : List α} {slot : Option α} {m : α}
      (taken : slot.toList ++ queue = m :: rest) :
      Step ⟨wire, batch, slot, queue, lost⟩ ⟨wire, [], some m, rest, lost ++ batch⟩
  | finish {wire batch lost : List α} :
      Step ⟨wire, batch, none, [], lost⟩ ⟨wire ++ batch, [], none, [], lost⟩
  | finishFailed {wire batch lost : List α} {m : α} :
      Step ⟨wire, batch ++ [m], none, [], lost⟩ ⟨wire, [], some m, [], lost ++ batch⟩

def enqueue (box : Box α) (m : α) : Box α := { box with queue := box.queue ++ [m] }

section Steps
variable {before after : Box α}

theorem Step.line_sublist (step : Step before after) : after.line.Sublist before.line := by
  cases step with
  | append taken => simp [Box.line, Box.pending, taken]
  | flush taken => simp [Box.line, Box.pending, taken]
  | @flushFailed wire batch queue lost rest slot m taken =>
    simp only [Box.line, Box.pending, taken, Option.toList_some, List.nil_append, List.singleton_append]
    exact (List.Sublist.refl wire).append (List.sublist_append_right _ _)
  | finish => simp [Box.line, Box.pending]
  | @finishFailed wire batch lost m =>
    simp only [Box.line, Box.pending, Option.toList_some, Option.toList_none, List.append_nil, List.nil_append]
    exact (List.Sublist.refl wire).append (List.sublist_append_right _ _)

theorem Step.line_eq (step : Step before after) (kept : after.lost = before.lost) : after.line = before.line := by
  cases step with
  | append taken => simp [Box.line, Box.pending, taken]
  | flush taken => simp [Box.line, Box.pending, taken]
  | flushFailed taken =>
    have none := List.append_right_eq_self.mp kept
    simp [Box.line, Box.pending, taken, none]
  | finish => simp [Box.line, Box.pending]
  | finishFailed =>
    have none := List.append_right_eq_self.mp kept
    simp [Box.line, Box.pending, none]

theorem Step.unsent_sublist (step : Step before after) :
    (after.batch ++ after.pending).Sublist (before.batch ++ before.pending) := by
  cases step with
  | append taken => simp [Box.pending, taken]
  | flush taken =>
    simp only [Box.pending, taken, Option.toList_none, List.nil_append, List.singleton_append]
    exact List.sublist_append_right _ _
  | flushFailed taken =>
    simp only [Box.pending, taken, Option.toList_some, List.nil_append, List.singleton_append]
    exact List.sublist_append_right _ _
  | finish => simp [Box.pending]
  | finishFailed => simp [Box.pending]

@[simp] theorem enqueue_line (box : Box α) (m : α) : (enqueue box m).line = box.line ++ [m] := by
  simp [enqueue, Box.line, Box.pending]

-- A failed write moves its batch from the middle of the line to the lost messages; the other steps keep the order.
theorem Step.all_perm (step : Step before after) : after.all.Perm before.all := by
  cases step with
  | append taken => simp [Box.all, Box.line, Box.pending, taken]
  | flush taken => simp [Box.all, Box.line, Box.pending, taken]
  | @flushFailed wire batch queue lost rest slot m taken =>
    simp only [Box.all, Box.line, Box.pending, taken, Option.toList_some, List.nil_append,
      List.singleton_append, List.append_assoc]
    apply List.Perm.append_left wire
    rw [← List.append_assoc (m :: rest)]
    exact List.perm_append_comm
  | finish => simp [Box.all, Box.line, Box.pending]
  | @finishFailed wire batch lost m =>
    simp only [Box.all, Box.line, Box.pending, Option.toList_some, Option.toList_none, List.append_nil,
      List.nil_append, List.append_assoc]
    apply List.Perm.append_left wire
    rw [← List.append_assoc [m]]
    exact List.perm_append_comm

theorem enqueue_all_perm (box : Box α) (m : α) : (enqueue box m).all.Perm (m :: box.all) := by
  rw [Box.all, enqueue_line, List.append_assoc]
  exact List.perm_middle

end Steps
end Outbox
