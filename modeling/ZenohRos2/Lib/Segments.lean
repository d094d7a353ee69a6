import Std

/-! Texts that are put together with a separator.

A part without the separator can be found again at the front or at the back of a
text, whatever stands on the other side of it. A text of such parts alone splits
into them.
-/

set_option autoImplicit false

namespace Segments
variable {α : Type} [BEq α] [LawfulBEq α] {sep : α} {part other rest rest' : List α}

theorem front_unique (plain : sep ∉ part) (plain' : sep ∉ other) (same : part ++ sep :: rest = other ++ sep :: rest') :
    part = other ∧ rest = rest' := by
  have split := congrArg (List.splitOn sep) same
  rw [List.splitOn_append_cons_self_of_not_mem plain, List.splitOn_append_cons_self_of_not_mem plain'] at split
  obtain ⟨rfl, -⟩ := List.cons.inj split
  exact ⟨rfl, (List.cons.inj (List.append_cancel_left same)).2⟩

theorem back_unique (plain : sep ∉ part) (plain' : sep ∉ other) (same : rest ++ sep :: part = rest' ++ sep :: other) :
    rest = rest' ∧ part = other := by
  have mirrored := congrArg List.reverse same
  simp only [List.reverse_append, List.reverse_cons, List.append_assoc, List.singleton_append] at mirrored
  obtain ⟨back, front⟩ := front_unique (by simpa using plain) (by simpa using plain') mirrored
  exact ⟨List.reverse_inj.mp front, List.reverse_inj.mp back⟩

end Segments
