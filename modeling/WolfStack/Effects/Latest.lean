import Mathlib.Logic.Function.Basic

/-! A value kept in several places, of which the one accepted last is to win by its rank.
A snapshot counts for as long as nothing has been accepted since it was taken. -/

universe u v

namespace Effects

structure Latest (ι : Type u) (α : Type v) where
  holds : ι → α
  last : Option (ι × α)
  heard : ι → ι → Prop

namespace Latest
variable {ι : Type u} {α : Type v} {rank : α → Nat} {l : Latest ι α}

def Below (rank : α → Nat) (l : Latest ι α) (value : α) : Prop :=
  ∀ author top, l.last = some (author, top) → rank value ≤ rank top ∧ (rank value = rank top → value = top)

structure Valid (rank : α → Nat) (l : Latest ι α) : Prop where
  below : ∀ i, l.Below rank (l.holds i)
  own : ∀ author top, l.last = some (author, top) → l.holds author = top
  heard : ∀ i j, l.heard i j → ∀ top, l.last = some (i, top) → l.holds j = top

variable [DecidableEq ι]

theorem valid_accept (l : Latest ι α) (author : ι) {top : α} (above : ∀ i, rank (l.holds i) < rank top) :
    Valid rank ⟨Function.update l.holds author top, some (author, top), fun _ _ => False⟩ where
  below i := by
    rintro _ _ ⟨⟩
    by_cases same : i = author
    · subst i
      simp
    · simp only [Function.update_of_ne same]
      exact ⟨Nat.le_of_lt (above i), fun equal => absurd equal (Nat.ne_of_lt (above i))⟩
  own := by
    rintro _ _ ⟨⟩
    exact Function.update_self author top l.holds
  heard _ _ told := told.elim

theorem Valid.adopt (valid : l.Valid rank) (here : ι) {value : α} (below : l.Below rank value)
    (newer : rank (l.holds here) < rank value) : Valid rank { l with holds := Function.update l.holds here value } where
  below i := by
    by_cases same : i = here
    · subst i
      simp only [Function.update_self]
      exact below
    · simp only [Function.update_of_ne same]
      exact valid.below i
  own author top accepted := by
    by_cases same : author = here
    · subst author
      have held := valid.own here top accepted
      have bound := (below here top accepted).1
      rw [held] at newer
      omega
    · rw [← valid.own author top accepted]
      exact Function.update_of_ne same value l.holds
  heard i j told top accepted := by
    have held := valid.heard i j told top accepted
    by_cases same : j = here
    · subst j
      have bound := (below i top accepted).1
      rw [held] at newer
      omega
    · rw [← held]
      exact Function.update_of_ne same value l.holds

omit [DecidableEq ι] in
theorem Valid.hear (valid : l.Valid rank) (sender here : ι) {heard : ι → ι → Prop}
    (told : ∀ i j, heard i j → l.heard i j ∨ (i = sender ∧ j = here))
    (current : ∀ top, l.last = some (sender, top) → rank top ≤ rank (l.holds here)) : Valid rank { l with heard } where
  below := valid.below
  own := valid.own
  heard i j hears top accepted := by
    rcases told i j hears with before | ⟨rfl, rfl⟩
    · exact valid.heard i j before top accepted
    · obtain ⟨bound, equal⟩ := valid.below j i top accepted
      exact equal (Nat.le_antisymm bound (current top accepted))

omit [DecidableEq ι] in
theorem Valid.settled (valid : l.Valid rank) (all : ∀ i j, i ≠ j → l.heard i j) {author : ι} {top : α}
    (accepted : l.last = some (author, top)) (i : ι) : l.holds i = top := by
  by_cases same : author = i
  · subst author
    exact valid.own i top accepted
  · exact valid.heard author i (all author i same) top accepted

end Latest
end Effects
