import Mathlib.Data.Set.Insert

/-! Values that carry revisions and are kept in several places. Places ask one another and
take over what has a higher revision. When does that leave the same value everywhere? -/

universe u v

namespace Effects
variable {ι : Type u} {α : Type v}

def OneEach (pairs : Set (Nat × α)) : Prop :=
  ∀ revision first second, (revision, first) ∈ pairs → (revision, second) ∈ pairs → revision ≠ 0 → first = second

theorem OneEach.fewer {pairs fewer : Set (Nat × α)} (one : OneEach pairs) (sub : fewer ⊆ pairs) : OneEach fewer :=
  fun revision first second left right => one revision first second (sub left) (sub right)

theorem OneEach.insert {others : Set (Nat × α)} {revision : Nat} {value : α} (one : OneEach others)
    (alone : ∀ other, (revision, other) ∈ others → revision ≠ 0 → other = value) :
    OneEach (insert (revision, value) others) := by
  intro r first second left right some_
  rcases left with left | left
  · obtain ⟨rfl, rfl⟩ := Prod.mk.inj left
    rcases right with right | right
    · exact (Prod.mk.inj right).2.symm
    · exact (alone second right some_).symm
  · rcases right with right | right
    · obtain ⟨rfl, rfl⟩ := Prod.mk.inj right
      exact alone first left some_
    · exact one r first second left right some_

/-- Who is at which revision, the highest one everybody has come across in asking around,
whom he asked so far, and whom he had asked when he last took over what he found. -/
structure Pulls (ι : Type u) where
  revision : ι → Nat
  found : ι → Option Nat
  asked : ι → ι → Prop
  met : ι → ι → Prop

namespace Pulls
variable {p after : Pulls ι} {first : ι}

/-- Nobody is ahead of the first, and who has asked it is not behind it. -/
structure LedBy (p : Pulls ι) (first : ι) : Prop where
  highest : ∀ i, p.revision i ≤ p.revision first
  asked : ∀ i, p.asked i first → ∃ found, p.found i = some found ∧ p.revision first ≤ found
  met : ∀ i, p.met i first → p.revision first ≤ p.revision i

theorem ledBy_unasked (highest : ∀ i, p.revision i ≤ p.revision first) (asked : ∀ i, ¬p.asked i first)
    (met : ∀ i, ¬p.met i first) : p.LedBy first :=
  ⟨highest, fun i there => (asked i there).elim, fun i there => (met i there).elim⟩

/-- Revisions may rise as long as nobody gets ahead, and who newly counts as having asked
or met the first must not be behind it. -/
theorem LedBy.advance (led : p.LedBy first) (highest : ∀ i, after.revision i ≤ p.revision first)
    (rising : ∀ i, p.revision i ≤ after.revision i)
    (asked : ∀ i, after.asked i first → p.asked i first ∧ after.found i = p.found i ∨
      ∃ found, after.found i = some found ∧ p.revision first ≤ found)
    (met : ∀ i, after.met i first → p.met i first ∨ p.revision first ≤ after.revision i) : after.LedBy first := by
  have same : after.revision first = p.revision first := Nat.le_antisymm (highest first) (rising first)
  constructor
  · intro i
    rw [same]
    exact highest i
  · intro i there
    rw [same]
    rcases asked i there with ⟨before, unchanged⟩ | found
    · rw [unchanged]
      exact led.asked i before
    · exact found
  · intro i there
    rw [same]
    rcases met i there with before | reached
    · exact Nat.le_trans (led.met i before) (rising i)
    · exact reached

theorem LedBy.level (led : p.LedBy first) (all : ∀ i, i ≠ first → p.met i first) (i : ι) :
    p.revision i = p.revision first := by
  by_cases own : i = first
  · rw [own]
  · exact Nat.le_antisymm (led.highest i) (led.met i (all i own))

end Pulls
end Effects
