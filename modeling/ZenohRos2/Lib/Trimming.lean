import Mathlib.Data.List.Forall2

/-! Packets on their way.

On the way some packets are lost, and of others only the front gets through.
Those that get through stay in order.
-/

set_option autoImplicit false

namespace Trimming
variable {α : Type} {packets source more others : List (List α)}

abbrev Trimmed (packets source : List (List α)) : Prop := List.SublistForall₂ (· <+: ·) packets source

theorem Trimmed.refl (packets : List (List α)) : Trimmed packets packets :=
  List.sublistForall₂_iff.mpr ⟨packets, List.forall₂_same.mpr fun packet _ => List.prefix_refl packet, .refl packets⟩

theorem Trimmed.of_sublist (lost : packets.Sublist source) : Trimmed packets source :=
  List.sublistForall₂_iff.mpr ⟨packets, List.forall₂_same.mpr fun packet _ => List.prefix_refl packet, lost⟩

theorem Trimmed.cut {packet front : List α} (front_ : front <+: packet) : Trimmed [front] [packet] :=
  .cons front_ .nil

theorem Trimmed.trans (first : Trimmed packets source) (second : Trimmed source more) : Trimmed packets more := by
  have : IsTrans (List α) (· <+: ·) := ⟨fun _ _ _ => List.IsPrefix.trans⟩
  exact IsTrans.trans _ _ _ first second

theorem Trimmed.append (first : Trimmed packets source) (second : Trimmed more others) :
    Trimmed (packets ++ more) (source ++ others) := by
  obtain ⟨kept, fronts, lost⟩ := List.sublistForall₂_iff.mp first
  obtain ⟨held, fronts', lost'⟩ := List.sublistForall₂_iff.mp second
  exact List.sublistForall₂_iff.mpr ⟨kept ++ held, List.rel_append fronts fronts', lost.append lost'⟩

end Trimming
