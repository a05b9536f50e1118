import Mathlib.Data.List.Sort

/-! Entries that are deleted by their numbers, which were read off once. Deleting renumbers what
comes after, so the last goes first. -/

namespace Numbered

variable {α : Type*} {p : α → Bool} {x : α} {l : List α}

def erase (l : List α) (num : Nat) : List α := if num = 0 then l else l.eraseIdx (num - 1)

def numbers (p : α → Bool) (l : List α) : List Nat := (l.zipIdx 1).filterMap fun x => if p x.1 then some x.2 else none

theorem erase_cons {num : Nat} (positive : 0 < num) : erase (x :: l) (num + 1) = x :: erase l num := by
  obtain ⟨num, rfl⟩ := Nat.exists_eq_succ_of_ne_zero (Nat.ne_of_gt positive)
  rfl

theorem numbers_cons : numbers p (x :: l) = (if p x then [1] else []) ++ (numbers p l).map (· + 1) := by
  have later : (l.zipIdx 2).filterMap (fun x => if p x.1 then some x.2 else none) = (numbers p l).map (· + 1) := by
    rw [List.zipIdx_succ, List.filterMap_map, numbers, List.map_filterMap]
    apply List.filterMap_congr
    intro y _
    dsimp only [Function.comp]
    split <;> rfl
  rw [numbers, List.zipIdx_cons, List.filterMap_cons, later]
  split
  · rename_i skipped
    rw [if_neg (by simpa using skipped), List.nil_append]
  · rename_i num counted
    split at counted
    · rename_i chosen
      cases counted
      rw [if_pos chosen, List.singleton_append]
    · cases counted

theorem numbers_positive {num : Nat} (member : num ∈ numbers p l) : 0 < num := by
  obtain ⟨⟨x, i⟩, inside, same⟩ := List.mem_filterMap.mp member
  split at same
  · cases same
    exact List.le_snd_of_mem_zipIdx inside
  · cases same

theorem numbers_sorted : (numbers p l).Pairwise (· < ·) := by
  induction l with
  | nil => exact List.Pairwise.nil
  | cons x l ih =>
    have later : ((numbers p l).map (· + 1)).Pairwise (· < ·) := List.pairwise_map.mpr (ih.imp Nat.succ_lt_succ)
    rw [numbers_cons]
    split
    · refine List.pairwise_cons.mpr ⟨fun num member => ?_, later⟩
      obtain ⟨below, inside, rfl⟩ := List.mem_map.mp member
      exact Nat.succ_lt_succ (numbers_positive inside)
    · exact later

theorem erase_numbers (p : α → Bool) (l : List α) : (numbers p l).reverse.foldl erase l = l.filter fun x => !p x := by
  rw [List.foldl_reverse]
  induction l with
  | nil => rfl
  | cons x l ih =>
    have behind : ∀ nums : List Nat, (∀ num ∈ nums, 0 < num) →
        (nums.map (· + 1)).foldr (fun num rest => erase rest num) (x :: l) = x :: nums.foldr (fun num rest => erase rest num) l := by
      intro nums positive
      induction nums with
      | nil => rfl
      | cons num nums ih =>
        rw [List.map_cons, List.foldr_cons, ih fun num member => positive num (List.mem_cons_of_mem _ member),
          erase_cons (positive num List.mem_cons_self), List.foldr_cons]
    rw [numbers_cons, List.foldr_append, behind _ fun num => numbers_positive, ih]
    cases chosen : p x with
    | true =>
      rw [List.filter_cons_of_neg (by simp [chosen])]
      rfl
    | false =>
      rw [List.filter_cons_of_pos (by simp [chosen])]
      rfl

end Numbered
