import Mathlib.Data.List.Infix

/-! Patterns in which one character stands for any text, and how the parts between these
characters are found one after the other, each where it first occurs. -/

namespace Text

variable {α : Type} {star : α} {parts : List (List α)} {part text rest gap pattern : List α}

inductive Glob (star : α) : List α → List α → Prop where
  | nil : Glob star [] []
  | skip {pattern text : List α} (gap : List α) (rest : Glob star pattern text) : Glob star (star :: pattern) (gap ++ text)
  | literal {pattern text : List α} {c : α} (plain : c ≠ star) (rest : Glob star pattern text) : Glob star (c :: pattern) (c :: text)

/-- Parts in their order up to the end of a text, with anything before each of them. -/
inductive Spread : List (List α) → List α → Prop where
  | nil : Spread [] []
  | cons {parts : List (List α)} {text : List α} (gap part : List α) (rest : Spread parts text) :
      Spread (part :: parts) (gap ++ part ++ text)

theorem glob_plain (plain : star ∉ part) : Glob star (part ++ pattern) text ↔ ∃ rest, text = part ++ rest ∧ Glob star pattern rest := by
  induction part generalizing text with
  | nil => simp
  | cons c part ih =>
    obtain ⟨apart, others⟩ : c ≠ star ∧ star ∉ part := by
      rw [List.mem_cons, not_or] at plain
      exact ⟨fun same => plain.1 same.symm, plain.2⟩
    constructor
    · intro glob
      cases glob with
      | skip => exact absurd rfl apart
      | literal _ later =>
        obtain ⟨rest, rfl, fits⟩ := (ih others).mp later
        exact ⟨rest, rfl, fits⟩
    · rintro ⟨rest, rfl, fits⟩
      exact .literal apart ((ih others).mpr ⟨rest, rfl, fits⟩)

theorem glob_star : Glob star (star :: pattern) text ↔ ∃ gap rest, text = gap ++ rest ∧ Glob star pattern rest := by
  constructor
  · intro glob
    cases glob with
    | skip gap later => exact ⟨gap, _, rfl, later⟩
    | literal plain _ => exact absurd rfl plain
  · rintro ⟨gap, rest, rfl, fits⟩
    exact .skip gap fits

theorem glob_parts (plain : ∀ part ∈ parts, star ∉ part) : Glob star (parts.flatMap (star :: ·)) text ↔ Spread parts text := by
  induction parts generalizing text with
  | nil =>
    constructor
    · intro glob
      cases glob
      exact .nil
    · intro spread
      cases spread
      exact .nil
  | cons part parts ih =>
    have later := fun rest => @ih rest fun other member => plain other (List.mem_cons_of_mem _ member)
    rw [List.flatMap_cons, List.cons_append, glob_star]
    constructor
    · rintro ⟨gap, beyond, rfl, glob⟩
      obtain ⟨rest, rfl, fits⟩ := (glob_plain (plain part List.mem_cons_self)).mp glob
      rw [← List.append_assoc]
      exact .cons gap part ((later rest).mp fits)
    · intro spread
      cases spread with
      | cons gap _ fits =>
        refine ⟨gap, _, List.append_assoc _ _ _, ?_⟩
        exact (glob_plain (plain part List.mem_cons_self)).mpr ⟨_, rfl, (later _).mpr fits⟩

theorem glob_literal (plain : star ∉ pattern) : Glob star pattern text ↔ text = pattern := by
  have whole := @glob_plain α star pattern text [] plain
  rw [List.append_nil] at whole
  rw [whole]
  constructor
  · rintro ⟨rest, rfl, fits⟩
    cases fits
    exact List.append_nil _
  · rintro rfl
    exact ⟨[], (List.append_nil _).symm, .nil⟩

theorem Spread.push (spread : Spread parts text) (some_ : parts ≠ []) (gap : List α) : Spread parts (gap ++ text) := by
  cases spread with
  | nil => exact absurd rfl some_
  | cons inner part rest =>
    have joined := Spread.cons (gap ++ inner) part rest
    rwa [List.append_assoc, List.append_assoc, ← List.append_assoc inner] at joined

theorem Spread.beyond (spread : Spread parts text) (open_ : parts.getLast? = some []) (rest : List α) : Spread parts (text ++ rest) := by
  induction spread with
  | nil => cases open_
  | @cons parts text gap part later ih =>
    cases parts with
    | nil =>
      cases open_
      cases later
      have joined := Spread.cons (gap ++ rest) [] (@Spread.nil α)
      simpa using joined
    | cons next others =>
      rw [List.getLast?_cons_cons] at open_
      rw [List.append_assoc]
      exact .cons gap part (ih open_)

structure First (part text gap : List α) : Prop where
  here : gap ++ part <+: text
  least : ∀ other, other ++ part <+: text → gap <+: other

/-- How far a text is used up when each part is taken where it first occurs. -/
structure Leftmost (parts : List (List α)) (text used : List α) : Prop where
  spread : Spread parts used
  within : used <+: text
  least : ∀ other, other <+: text → Spread parts other → used <+: other

def Absent (parts : List (List α)) (text : List α) : Prop := ∀ other, other <+: text → ¬Spread parts other

theorem first_empty : First [] text [] := ⟨List.nil_prefix, fun _ _ => List.nil_prefix⟩

theorem leftmost_nil : Leftmost [] text [] := ⟨.nil, List.nil_prefix, fun _ _ _ => List.nil_prefix⟩

theorem First.shift {other later : List α} (first : First part (gap ++ part ++ rest) gap) (inside : other ++ part ++ later <+: gap ++ part ++ rest) :
    ∃ more, other ++ part ++ later = gap ++ part ++ (more ++ later) ∧ more ++ later <+: rest := by
  obtain ⟨extra, rfl⟩ := first.least other ((List.prefix_append _ _).trans inside)
  have length : (gap ++ extra ++ part).length = (gap ++ part).length + extra.length := by
    simp
    omega
  obtain ⟨more, shape⟩ : gap ++ part <+: gap ++ extra ++ part := by
    have front : gap ++ part <+: gap ++ part ++ rest := List.prefix_append _ _
    apply List.prefix_of_prefix_length_le front ((List.prefix_append _ _).trans inside)
    rw [length]
    exact Nat.le_add_right _ _
  refine ⟨more, ?_, ?_⟩
  · rw [← shape, List.append_assoc]
  · rw [← shape, List.append_assoc] at inside
    exact (List.prefix_append_right_inj _).mp inside

theorem Leftmost.cons {used : List α} (first : First part (gap ++ part ++ rest) gap) (leftmost : Leftmost parts rest used) :
    Leftmost (part :: parts) (gap ++ part ++ rest) (gap ++ part ++ used) where
  spread := .cons gap part leftmost.spread
  within := (List.prefix_append_right_inj _).mpr leftmost.within
  least other inside spread := by
    cases spread with
    | @cons _ text away _ fits =>
      obtain ⟨more, shape, within⟩ := first.shift inside
      rw [shape]
      apply (List.prefix_append_right_inj _).mpr
      cases parts with
      | nil =>
        have none_ : used = [] := List.prefix_nil.mp (leftmost.least [] List.nil_prefix .nil)
        rw [none_]
        exact List.nil_prefix
      | cons => exact leftmost.least _ within (fits.push (List.cons_ne_nil _ _) more)

theorem absent_part (nowhere : ∀ other, ¬other ++ part <+: text) : Absent (part :: parts) text := by
  intro other inside spread
  cases spread with
  | cons gap _ _ => exact nowhere gap ((List.prefix_append _ _).trans inside)

theorem Absent.cons (first : First part (gap ++ part ++ rest) gap) (absent : Absent parts rest) :
    Absent (part :: parts) (gap ++ part ++ rest) := by
  intro other inside spread
  cases spread with
  | @cons _ text away _ fits =>
    obtain ⟨more, -, within⟩ := first.shift inside
    cases parts with
    | nil => exact absent [] List.nil_prefix .nil
    | cons => exact absent _ within (fits.push (List.cons_ne_nil _ _) more)

end Text
