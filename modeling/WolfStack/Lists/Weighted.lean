import Mathlib.Algebra.BigOperators.Group.List.Basic
import Mathlib.Data.List.Induction
import Mathlib.Tactic.Ring

/-! Sums in which what comes first counts most: the last item counts once, the one before it twice, and so on. They
can be followed along a window that slides over a list. -/

namespace Weighted

variable {R : Type} [CommRing R]

def weighted : List R → R
  | [] => 0
  | x :: rest => (rest.length + 1) * x + weighted rest

theorem weighted_concat (items : List R) (x : R) : weighted (items ++ [x]) = weighted items + items.sum + x := by
  induction items with
  | nil => simp [weighted]
  | cons y rest ih =>
    rw [List.cons_append, weighted, weighted, ih, List.sum_cons, List.length_append, List.length_singleton]
    push_cast
    ring

/-- Both sums are made in one pass, with the first added to the second in each turn. -/
def pass (sums : R × R) (items : List R) : R × R := items.foldl (fun sums x => (sums.1 + x, sums.2 + (sums.1 + x))) sums

theorem pass_concat (sums : R × R) (items : List R) (x : R) : pass sums (items ++ [x]) =
    ((pass sums items).1 + x, (pass sums items).2 + ((pass sums items).1 + x)) := by
  rw [pass, List.foldl_append]
  rfl

theorem pass_eq (items : List R) : pass (0, 0) items = (items.sum, weighted items) := by
  induction items using List.reverseRecOn with
  | nil => rfl
  | append_singleton rest x ih =>
    rw [pass_concat, ih, weighted_concat, List.sum_append, List.sum_singleton]
    exact Prod.ext rfl (add_assoc _ _ _).symm

theorem sum_slide (leaves joins : R) (middle : List R) : (middle ++ [joins]).sum = (leaves :: middle).sum - leaves + joins := by
  rw [List.sum_append, List.sum_singleton, List.sum_cons]
  ring

theorem weighted_slide (leaves joins : R) (middle : List R) : weighted (middle ++ [joins]) =
    weighted (leaves :: middle) - ((leaves :: middle).length : R) * leaves + (middle ++ [joins]).sum := by
  rw [weighted_concat, weighted, List.sum_append, List.sum_singleton, List.length_cons]
  push_cast
  ring

end Weighted
