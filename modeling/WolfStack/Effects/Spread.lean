import Mathlib.Logic.Basic

/-! Facts spread by snapshots. Every party keeps its own facts and sends out all it
knows; a snapshot counts for as long as its sender has come to know nothing new of its
own. Once everybody's latest snapshot has been taken in by everybody, all know all. -/

universe u v

namespace Effects

/-- Who knows which fact, whose fact it is, and whose latest snapshot has reached whom. -/
structure Spread (ι : Type u) (φ : Type v) where
  knows : ι → φ → Prop
  authored : ι → φ → Prop
  heard : ι → ι → Prop

namespace Spread
variable {ι : Type u} {φ : Type v} {before after : Spread ι φ}

def Covers (s : Spread ι φ) (author : ι) (known : φ → Prop) : Prop := ∀ fact, s.authored author fact → known fact

structure Valid (s : Spread ι φ) : Prop where
  own : ∀ i, s.Covers i (s.knows i)
  heard : ∀ i j, s.heard i j → s.Covers i (s.knows j)

theorem Covers.fewer {author : ι} {known : φ → Prop} (covers : before.Covers author known)
    (authored : ∀ fact, after.authored author fact → before.authored author fact) : after.Covers author known :=
  fun fact mine => covers fact (authored fact mine)

theorem Valid.advance (valid : before.Valid) (authored : ∀ i fact, after.authored i fact → before.authored i fact)
    (kept : ∀ i j fact, after.authored i fact → before.knows j fact → after.knows j fact)
    (heard : ∀ i j, after.heard i j → before.heard i j ∨ after.Covers i (after.knows j)) : after.Valid where
  own i fact mine := kept i i fact mine (valid.own i fact (authored i fact mine))
  heard i j told := by
    rcases heard i j told with before_ | covers
    · intro fact mine
      exact kept i j fact mine (valid.heard i j before_ fact (authored i fact mine))
    · exact covers

theorem Valid.edit (valid : before.Valid) (i : ι)
    (authored : ∀ j fact, after.authored j fact → before.authored j fact ∨ j = i)
    (own : after.Covers i (after.knows i))
    (others : ∀ j, j ≠ i → ∀ fact, before.knows j fact → after.knows j fact)
    (quiet : ∀ j k, ¬after.heard j k) : after.Valid where
  own j fact mine := by
    by_cases same : j = i
    · subst j
      exact own fact mine
    · rcases authored j fact mine with before_ | here
      · exact others j same fact (valid.own j fact before_)
      · exact absurd here same
  heard j k told := absurd told (quiet j k)

theorem Valid.settled (valid : before.Valid) (all : ∀ i j, i ≠ j → before.heard i j) {i : ι} {fact : φ}
    (authored : before.authored i fact) (j : ι) : before.knows j fact := by
  by_cases same : i = j
  · subst j
    exact valid.own i fact authored
  · exact valid.heard i j (all i j same) fact authored

end Spread
end Effects
