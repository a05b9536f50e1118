import Mathlib.Data.List.Basic

/-! Greedy selection. A list is gone through in order, and an item is kept unless it clashes with
one that is kept already. What clashes with what need not be transitive. -/

open scoped List

namespace Greedy

variable {α : Type} {clash : α → α → Prop} {list kept dropped : List α}

inductive Chosen (clash : α → α → Prop) : List α → List α → List α → Prop where
  | start : Chosen clash [] [] []
  | keep {list kept dropped a} (before : Chosen clash list kept dropped) (free : ∀ k ∈ kept, ¬clash k a) :
      Chosen clash (list ++ [a]) (kept ++ [a]) dropped
  | drop {list kept dropped a k} (before : Chosen clash list kept dropped) (there : k ∈ kept) (same : clash k a) :
      Chosen clash (list ++ [a]) kept (dropped ++ [a])

namespace Chosen

theorem perm (chosen : Chosen clash list kept dropped) : (kept ++ dropped).Perm list := by
  induction chosen with
  | start => exact List.Perm.refl []
  | @keep list kept dropped a _ _ ih =>
    calc (kept ++ [a]) ++ dropped
      _ = kept ++ ([a] ++ dropped) := List.append_assoc kept [a] dropped
      _ ~ kept ++ (dropped ++ [a]) := List.perm_append_comm.append_left kept
      _ = (kept ++ dropped) ++ [a] := (List.append_assoc kept dropped [a]).symm
      _ ~ list ++ [a] := ih.append_right [a]
  | @drop list kept dropped a k _ _ _ ih =>
    rw [← List.append_assoc]
    exact ih.append_right [a]

theorem mem_iff (chosen : Chosen clash list kept dropped) (a : α) : a ∈ list ↔ a ∈ kept ∨ a ∈ dropped := by
  rw [← chosen.perm.mem_iff, List.mem_append]

theorem sublist (chosen : Chosen clash list kept dropped) : kept.Sublist list := by
  induction chosen with
  | start => exact List.Sublist.refl []
  | keep _ _ ih => exact ih.append (List.Sublist.refl _)
  | drop _ _ _ ih => exact ih.trans (List.sublist_append_left _ _)

theorem apart (chosen : Chosen clash list kept dropped) : kept.Pairwise fun a b => ¬clash a b := by
  induction chosen with
  | start => exact List.Pairwise.nil
  | keep _ free ih =>
    refine List.pairwise_append.mpr ⟨ih, List.pairwise_singleton _ _, ?_⟩
    intro k there a only
    rw [List.mem_singleton.mp only]
    exact free k there
  | drop _ _ _ ih => exact ih

theorem dropped_for {r : α → α → Prop} (chosen : Chosen clash list kept dropped) (ordered : list.Pairwise r) :
    ∀ a ∈ dropped, ∃ k ∈ kept, clash k a ∧ r k a := by
  induction chosen with
  | start => exact fun a member => absurd member List.not_mem_nil
  | keep _ _ ih =>
    intro a member
    obtain ⟨k, there, law⟩ := ih (List.pairwise_append.mp ordered).1 a member
    exact ⟨k, List.mem_append_left _ there, law⟩
  | @drop list kept dropped last k before there same ih =>
    obtain ⟨earlier, -, across⟩ := List.pairwise_append.mp ordered
    intro a member
    rcases List.mem_append.mp member with old | new
    · exact ih earlier a old
    · rw [List.mem_singleton.mp new]
      exact ⟨k, there, same, across k (before.sublist.subset there) last (List.mem_singleton.mpr rfl)⟩

theorem dropped_nil (chosen : Chosen clash list kept dropped) (free : list.Pairwise fun a b => ¬clash a b) : dropped = [] := by
  refine List.eq_nil_iff_forall_not_mem.mpr fun a member => ?_
  obtain ⟨k, _, same, apart⟩ := chosen.dropped_for free a member
  exact apart same

end Chosen

end Greedy
