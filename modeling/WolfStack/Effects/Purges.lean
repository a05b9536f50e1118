import Mathlib.Data.List.Basic
import Mathlib.Data.List.Count

/-! Lists that are brought up to date in steps, each of which takes away what looks like its
own and then adds. How often is a thing there in the end? -/

namespace Purges

variable {R : Type} [DecidableEq R] {r other : R} {chain : List R} {budget : Nat}

/-- Copies are deleted one by one until none is left, or there have been too many. -/
def drain (r : R) : Nat → List R → Nat × List R
  | 0, chain => (0, chain)
  | budget + 1, chain => if r ∈ chain then drain r budget (chain.erase r) else (budget + 1, chain)

theorem drain_zero : drain r 0 chain = (0, chain) := rfl

theorem drain_succ : drain r (budget + 1) chain = if r ∈ chain then drain r budget (chain.erase r) else (budget + 1, chain) := rfl

theorem drain_enough (enough : chain.length ≤ budget) : (drain r budget chain).2.length ≤ (drain r budget chain).1 := by
  induction budget generalizing chain with
  | zero => exact enough
  | succ budget ih =>
    rw [drain_succ]
    split
    · rename_i there
      apply ih
      rw [List.length_erase_of_mem there]
      exact Nat.sub_le_of_le_add enough
    · exact enough

theorem drain_length : (drain r budget chain).2.length ≤ chain.length := by
  induction budget generalizing chain with
  | zero => exact Nat.le_refl _
  | succ budget ih =>
    rw [drain_succ]
    split
    · exact Nat.le_trans ih List.length_erase_le
    · exact Nat.le_refl _

theorem drain_same (enough : chain.length ≤ budget) : (drain r budget chain).2.count r = 0 := by
  induction budget generalizing chain with
  | zero => rw [drain_zero, List.eq_nil_of_length_eq_zero (Nat.le_zero.mp enough), List.count_nil]
  | succ budget ih =>
    rw [drain_succ]
    split
    · rename_i there
      apply ih
      rw [List.length_erase_of_mem there]
      exact Nat.sub_le_of_le_add enough
    · rename_i absent
      exact List.count_eq_zero.mpr absent

theorem drain_other (apart : other ≠ r) : (drain r budget chain).2.count other = chain.count other := by
  induction budget generalizing chain with
  | zero => rfl
  | succ budget ih =>
    rw [drain_succ]
    split
    · rw [ih, List.count_erase_of_ne apart]
    · rfl

theorem drain_mem (member : other ∈ (drain r budget chain).2) : other ∈ chain := by
  induction budget generalizing chain with
  | zero => exact member
  | succ budget ih =>
    rw [drain_succ] at member
    split at member
    · exact List.mem_of_mem_erase (ih member)
    · exact member

theorem drain_absent (absent : r ∉ chain) : drain r budget chain = (budget, chain) := by
  cases budget with
  | zero => rfl
  | succ budget => rw [drain_succ, if_neg absent]

theorem drain_shorter (there : r ∈ chain) : (drain r (budget + 1) chain).2.length < chain.length := by
  rw [drain_succ, if_pos there]
  refine Nat.lt_of_le_of_lt drain_length ?_
  rw [List.length_erase_of_mem there]
  exact Nat.sub_lt (List.length_pos_of_mem there) Nat.one_pos

def sweep {S : Type} (denotes : S → Option R) (specs : List S) (budget : Nat) (chain : List R) : Nat × List R :=
  specs.foldl (fun left spec => match denotes spec with
    | some r => drain r left.1 left.2
    | none => left) (budget, chain)

section Sweep
variable {S : Type} {denotes : S → Option R} {specs : List S}

theorem sweep_cons (spec : S) : sweep denotes (spec :: specs) budget chain = match denotes spec with
    | some r => sweep denotes specs (drain r budget chain).1 (drain r budget chain).2
    | none => sweep denotes specs budget chain := by
  rw [sweep, List.foldl_cons]
  cases denotes spec with
  | some r => rfl
  | none => rfl

theorem sweep_length : (sweep denotes specs budget chain).2.length ≤ chain.length := by
  induction specs generalizing budget chain with
  | nil => exact Nat.le_refl _
  | cons spec rest ih =>
    rw [sweep_cons]
    cases denotes spec with
    | some r => exact Nat.le_trans ih drain_length
    | none => exact ih

theorem sweep_mem (member : r ∈ (sweep denotes specs budget chain).2) : r ∈ chain := by
  induction specs generalizing budget chain with
  | nil => exact member
  | cons spec rest ih =>
    rw [sweep_cons] at member
    cases read : denotes spec with
    | some denoted =>
      rw [read] at member
      exact drain_mem (ih member)
    | none =>
      rw [read] at member
      exact ih member

theorem sweep_spares (apart : ∀ spec ∈ specs, denotes spec ≠ some r) : (sweep denotes specs budget chain).2.count r = chain.count r := by
  induction specs generalizing budget chain with
  | nil => rfl
  | cons spec rest ih =>
    have later := fun s member => apart s (List.mem_cons_of_mem _ member)
    rw [sweep_cons]
    cases read : denotes spec with
    | some denoted =>
      dsimp only
      rw [ih later]
      exact drain_other fun same => apart spec List.mem_cons_self (by rw [read, same])
    | none => exact ih later

theorem sweep_clears (enough : chain.length ≤ budget) (named : ∃ spec ∈ specs, denotes spec = some r) :
    (sweep denotes specs budget chain).2.count r = 0 := by
  induction specs generalizing budget chain with
  | nil =>
    obtain ⟨spec, member, -⟩ := named
    cases member
  | cons spec rest ih =>
    rw [sweep_cons]
    by_cases later : ∃ spec ∈ rest, denotes spec = some r
    · cases denotes spec with
      | some denoted => exact ih (drain_enough enough) later
      | none => exact ih enough later
    · have here : denotes spec = some r := ((List.exists_mem_cons_iff _ _ _).mp named).resolve_right later
      rw [here]
      dsimp only
      rw [sweep_spares fun s member same => later ⟨s, member, same⟩]
      exact drain_same enough

/-- A sweep leaves the chain as it is exactly if nothing that it looks for is there. -/
theorem sweep_same_iff : chain.length ≤ (sweep denotes specs (budget + 1) chain).2.length ↔
    ∀ spec ∈ specs, ∀ r, denotes spec = some r → r ∉ chain := by
  induction specs with
  | nil => simp [sweep]
  | cons spec rest ih =>
    rw [sweep_cons, List.forall_mem_cons]
    cases read : denotes spec with
    | none => simpa using ih
    | some r =>
      dsimp only
      by_cases there : r ∈ chain
      · refine iff_of_false (fun same => ?_) fun absent => absent.1 r rfl there
        exact absurd (Nat.le_trans same sweep_length) (Nat.not_le_of_lt (drain_shorter there))
      · rw [drain_absent there, ih]
        simp [there]

theorem sweep_absent (absent : ∀ spec ∈ specs, ∀ r, denotes spec = some r → r ∉ chain) :
    (sweep denotes specs budget chain).2 = chain := by
  induction specs with
  | nil => rfl
  | cons spec rest ih =>
    have later := ih fun other member => absent other (List.mem_cons_of_mem spec member)
    rw [sweep_cons]
    cases read : denotes spec with
    | none => exact later
    | some r =>
      dsimp only
      rw [drain_absent (absent spec List.mem_cons_self r read)]
      exact later

end Sweep

structure Step (R : Type) where
  purges : R → Bool
  /-- Whether what is there already is added all the same. -/
  again : Bool
  adds : List R

def Step.count (step : Step R) (r : R) (times : Nat) : Nat :=
  let left := if step.purges r then 0 else times
  if step.again then left + step.adds.count r
  else if r ∈ step.adds then max left 1 else left

def countAfter (steps : List (Step R)) (r : R) (times : Nat) : Nat := steps.foldl (fun times step => step.count r times) times

def Step.Replaces (step : Step R) : Prop := step.again = true → ∀ r ∈ step.adds, step.purges r = true

def Step.leaves (step : Step R) (r : R) : Nat := step.count r 0

variable {step : Step R} {steps before after : List (Step R)} {times : Nat}

theorem count_purged (purged : step.purges r = true) : step.count r times = step.leaves r := by
  simp [Step.leaves, Step.count, purged]

theorem count_spared (replaces : step.Replaces) (spared : step.purges r = false) :
    step.count r times = if r ∈ step.adds then max times 1 else times := by
  unfold Step.count
  dsimp only
  rw [spared, if_neg Bool.false_ne_true]
  split
  · rename_i again
    have absent : r ∉ step.adds := fun member => by simpa [spared] using replaces again r member
    rw [List.count_eq_zero.mpr absent, if_neg absent, Nat.add_zero]
  · rfl

theorem kept_iff : 0 < step.count r 1 ↔ step.purges r = false ∨ r ∈ step.adds := by
  unfold Step.count
  dsimp only
  cases purged : step.purges r with
  | true =>
    rw [if_pos rfl, Nat.zero_add, Nat.max_eq_right (Nat.zero_le 1), or_iff_right (by decide)]
    split
    · exact List.count_pos_iff
    · split
      · rename_i member
        exact iff_of_true Nat.one_pos member
      · rename_i absent
        exact iff_of_false (Nat.lt_irrefl 0) absent
  | false =>
    rw [if_neg Bool.false_ne_true]
    refine iff_of_true ?_ (.inl rfl)
    split
    · omega
    · split <;> omega

theorem Step.count_map {S : Type} [DecidableEq S] {named : Step S} {name : S → R} (distinct : Function.Injective name)
    (purges : ∀ s, step.purges (name s) = named.purges s) (again : step.again = named.again) (adds : step.adds = named.adds.map name)
    (s : S) (times : Nat) : step.count (name s) times = named.count s times := by
  unfold Step.count
  rw [purges, again, adds, List.count_map_of_injective _ _ distinct]
  simp only [List.mem_map_of_injective distinct]

theorem leaves_one_iff (few : step.leaves r ≤ 1) : step.leaves r = 1 ↔ r ∈ step.adds := by
  unfold Step.leaves Step.count at *
  simp only [ite_self, Nat.zero_add] at *
  split
  · rename_i again
    rw [if_pos again] at few
    rw [← List.count_pos_iff]
    exact ⟨fun one => one ▸ Nat.one_pos, fun some_ => Nat.le_antisymm few some_⟩
  · split
    · rename_i member
      exact iff_of_true rfl member
    · rename_i absent
      exact iff_of_false Nat.zero_ne_one absent

theorem countAfter_append : countAfter (before ++ step :: after) r times = countAfter after r (step.count r (countAfter before r times)) := by
  rw [countAfter, List.foldl_append, List.foldl_cons]
  rfl

theorem countAfter_spared (replaces : ∀ step ∈ steps, step.Replaces) (spared : ∀ step ∈ steps, step.purges r = false) :
    countAfter steps r times = if ∃ step ∈ steps, r ∈ step.adds then max times 1 else times := by
  induction steps generalizing times with
  | nil => rfl
  | cons step rest ih =>
    have now : step.count r times = _ := count_spared (replaces step List.mem_cons_self) (spared step List.mem_cons_self)
    have later := @ih (step.count r times) (fun s member => replaces s (List.mem_cons_of_mem _ member))
      fun s member => spared s (List.mem_cons_of_mem _ member)
    rw [countAfter, List.foldl_cons, ← countAfter, later, now]
    simp only [List.exists_mem_cons_iff]
    by_cases owned : r ∈ step.adds
    · simp [owned]
    · simp [owned]

/-- The last step that takes the thing away leaves it at most once, and that step or one
after it adds it. Where none takes it away, it was there at most once. -/
structure Settles (steps : List (Step R)) (r : R) (times : Nat) : Prop where
  last : ∀ before step after, steps = before ++ step :: after → step.purges r = true →
    (∀ later ∈ after, later.purges r = false) → step.leaves r ≤ 1 ∧ ∃ later ∈ step :: after, r ∈ later.adds
  first : (∀ step ∈ steps, step.purges r = false) → times ≤ 1

omit [DecidableEq R] in
theorem last_purge (some_ : ∃ step ∈ steps, step.purges r = true) :
    ∃ before step after, steps = before ++ step :: after ∧ step.purges r = true ∧ ∀ later ∈ after, later.purges r = false := by
  induction steps with
  | nil =>
    obtain ⟨step, member, -⟩ := some_
    cases member
  | cons step rest ih =>
    by_cases later : ∃ step ∈ rest, step.purges r = true
    · obtain ⟨before, last, after, split, purges, spared⟩ := ih later
      exact ⟨step :: before, last, after, by rw [split]; rfl, purges, spared⟩
    · have here : step.purges r = true := ((List.exists_mem_cons_iff _ _ _).mp some_).resolve_right later
      refine ⟨[], step, rest, rfl, here, fun s member => ?_⟩
      exact Bool.eq_false_iff.mpr fun purges => later ⟨s, member, purges⟩

theorem countAfter_purged (some_ : ∃ step ∈ steps, step.purges r = true) : countAfter steps r times = countAfter steps r 0 := by
  obtain ⟨before, step, after, rfl, purged, -⟩ := last_purge some_
  rw [countAfter_append, countAfter_append, count_purged purged, count_purged purged]

theorem once_after_iff (replaces : ∀ step ∈ after, step.Replaces) (purged : step.purges r = true)
    (spared : ∀ later ∈ after, later.purges r = false) : countAfter (before ++ step :: after) r times = 1 ↔
      step.leaves r ≤ 1 ∧ ∃ later ∈ step :: after, r ∈ later.adds := by
  rw [countAfter_append, count_purged purged, countAfter_spared replaces spared, List.exists_mem_cons_iff]
  by_cases added : ∃ later ∈ after, r ∈ later.adds
  · rw [if_pos added]
    constructor
    · intro one
      exact ⟨one ▸ Nat.le_max_left _ _, .inr added⟩
    · rintro ⟨few, -⟩
      exact Nat.max_eq_right few
  · rw [if_neg added, or_iff_left added]
    constructor
    · intro one
      have few : step.leaves r ≤ 1 := Nat.le_of_eq one
      exact ⟨few, (leaves_one_iff few).mp one⟩
    · rintro ⟨few, added⟩
      exact (leaves_one_iff few).mpr added

theorem once_iff (replaces : ∀ step ∈ steps, step.Replaces) (owned : ∃ step ∈ steps, r ∈ step.adds) :
    countAfter steps r times = 1 ↔ Settles steps r times := by
  constructor
  · intro one
    constructor
    · intro before step after split purged spared
      subst split
      have later := fun s member => replaces s (List.mem_append_right _ (List.mem_cons_of_mem _ member))
      exact (once_after_iff later purged spared).mp one
    · intro spared
      rw [countAfter_spared replaces spared, if_pos owned] at one
      exact one ▸ Nat.le_max_left _ _
  · intro settles
    by_cases some_ : ∃ step ∈ steps, step.purges r = true
    · obtain ⟨before, step, after, split, purged, spared⟩ := last_purge some_
      have ends := settles.last before step after split purged spared
      subst split
      have later := fun s member => replaces s (List.mem_append_right _ (List.mem_cons_of_mem _ member))
      exact (once_after_iff later purged spared).mpr ends
    · have spared : ∀ step ∈ steps, step.purges r = false := fun s member => Bool.eq_false_iff.mpr fun purges => some_ ⟨s, member, purges⟩
      rw [countAfter_spared replaces spared, if_pos owned]
      exact Nat.max_eq_right (settles.first spared)

end Purges
