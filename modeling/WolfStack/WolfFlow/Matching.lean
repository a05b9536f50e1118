import WolfStack.Router.Lines
import WolfStack.Text.Glob
import WolfStack.WolfFlow.Execution

/-! The operator that matches a pattern. Each part of the pattern is taken where it first occurs,
the last one too. -/

namespace WolfFlow
open Auth Router Text

variable {part text pattern first : List Char} {others : List (List Char)}

theorem find_first {found : Nat} (finds : find part text = some found) :
    ∃ gap rest, text = gap ++ part ++ rest ∧ gap.length = found ∧ First part text gap := by
  induction text generalizing found with
  | nil =>
    cases part with
    | nil =>
      cases finds
      exact ⟨[], [], rfl, rfl, first_empty⟩
    | cons => cases finds
  | cons c text ih =>
    by_cases begins : part.isPrefixOf (c :: text) = true
    · rw [find, if_pos begins] at finds
      cases finds
      obtain ⟨rest, shape⟩ := List.isPrefixOf_iff_prefix.mp begins
      exact ⟨[], rest, shape.symm, rfl, ⟨rest, shape⟩, fun _ _ => List.nil_prefix⟩
    · rw [find, if_neg begins] at finds
      obtain ⟨before, later, rfl⟩ := Option.map_eq_some_iff.mp finds
      obtain ⟨gap, rest, shape, rfl, first⟩ := ih later
      refine ⟨c :: gap, rest, congrArg (c :: ·) shape, rfl, List.cons_prefix_cons.mpr ⟨rfl, first.here⟩, fun other inside => ?_⟩
      cases other with
      | nil => exact absurd (List.isPrefixOf_iff_prefix.mpr inside) begins
      | cons d other =>
        obtain ⟨rfl, later⟩ := List.cons_prefix_cons.mp inside
        exact List.cons_prefix_cons.mpr ⟨rfl, first.least other later⟩

theorem find_nowhere (none_ : find part text = none) (other : List Char) : ¬other ++ part <+: text := by
  induction text generalizing other with
  | nil =>
    intro inside
    obtain ⟨rfl, rfl⟩ := List.append_eq_nil_iff.mp (List.prefix_nil.mp inside)
    cases none_
  | cons c text ih =>
    by_cases begins : part.isPrefixOf (c :: text) = true
    · rw [find, if_pos begins] at none_
      cases none_
    · rw [find, if_neg begins] at none_
      intro inside
      cases other with
      | nil => exact begins (List.isPrefixOf_iff_prefix.mpr inside)
      | cons d other => exact ih (Option.map_eq_none_iff.mp none_) other (List.cons_prefix_cons.mp inside).2

theorem find_front (begins : part <+: text) : find part text = some 0 := by
  cases text with
  | nil =>
    rw [List.prefix_nil.mp begins]
    rfl
  | cons c text => rw [find, if_pos (List.isPrefixOf_iff_prefix.mpr begins)]

theorem globRest_leftmost (parts : List (List Char)) (text : List Char) :
    (∃ used rest, globRest false parts text = some rest ∧ text = used ++ rest ∧ Leftmost parts text used) ∨
      (globRest false parts text = none ∧ Absent parts text) := by
  induction parts generalizing text with
  | nil => exact .inl ⟨[], text, rfl, rfl, leftmost_nil⟩
  | cons part parts ih =>
    cases finds : find part text with
    | none =>
      have shown : part.isEmpty = false := by
        cases part with
        | nil =>
          rw [find_front List.nil_prefix] at finds
          cases finds
        | cons => rfl
      refine .inr ⟨?_, absent_part (find_nowhere finds)⟩
      rw [globRest, shown, finds]
      rfl
    | some found =>
      obtain ⟨gap, rest, rfl, rfl, first⟩ := find_first finds
      have goes_on : globRest false (part :: parts) (gap ++ part ++ rest) = globRest false parts rest := by
        cases part with
        | nil =>
          rw [find_front List.nil_prefix] at finds
          have none_ : gap = [] := List.length_eq_zero_iff.mp (Option.some.inj finds).symm
          rw [none_]
          rfl
        | cons c part =>
          have beyond : (gap ++ c :: part ++ rest).drop (gap.length + (c :: part).length) = rest := by
            rw [← List.length_append, List.drop_left]
          rw [globRest, finds]
          dsimp only
          rw [beyond]
          rfl
      rcases ih rest with ⟨used, left, placed, rfl, leftmost⟩ | ⟨placed, absent⟩
      · exact .inl ⟨gap ++ part ++ used, left, goes_on.trans placed, (List.append_assoc _ _ _).symm, .cons first leftmost⟩
      · exact .inr ⟨goes_on.trans placed, .cons first absent⟩

theorem globRest_begins (parts : List (List Char)) (first rest : List Char) : globRest true (first :: parts) (first ++ rest) = globRest false parts rest := by
  cases first with
  | nil => rfl
  | cons c first =>
    rw [globRest, find_front (List.prefix_append _ _)]
    dsimp only
    rw [Nat.zero_add, List.drop_left]
    rfl

theorem globRest_elsewhere (parts : List (List Char)) (elsewhere : ¬first <+: text) : globRest true (first :: parts) text = none := by
  cases first with
  | nil => exact absurd List.nil_prefix elsewhere
  | cons c first =>
    rw [globRest]
    cases finds : find (c :: first) text with
    | none => rfl
    | some found =>
      obtain ⟨gap, rest, rfl, rfl, -⟩ := find_first finds
      cases gap with
      | nil => exact absurd (List.prefix_append _ _) elsewhere
      | cons => rfl

theorem splitOn_shape {c : Char} (shape : splitOn c pattern = first :: others) : pattern = first ++ others.flatMap (c :: ·) := by
  induction pattern generalizing first others with
  | nil =>
    cases shape
    rfl
  | cons d pattern ih =>
    rw [splitOn] at shape
    split at shape
    next same =>
      obtain ⟨rfl, rfl⟩ := List.cons.inj shape
      obtain ⟨part, parts, later⟩ := List.exists_cons_of_ne_nil (@splitOn_ne_nil pattern c)
      rw [later, List.flatMap_cons, List.cons_append, ← ih later, same]
      rfl
    next =>
      obtain ⟨part, parts, later⟩ := List.exists_cons_of_ne_nil (@splitOn_ne_nil pattern c)
      rw [later] at shape
      obtain ⟨rfl, rfl⟩ := List.cons.inj shape
      rw [List.cons_append, ← ih later]

theorem glob_split (shape : splitOn '*' pattern = first :: others) :
    Glob '*' pattern text ↔ ∃ tail, text = first ++ tail ∧ Spread others tail := by
  have plain : ∀ part ∈ first :: others, '*' ∉ part := by
    rw [← shape]
    exact splitOn_part
  rw [splitOn_shape shape, glob_plain (plain first List.mem_cons_self)]
  refine exists_congr fun tail => and_congr_right fun _ => ?_
  exact glob_parts fun part member => plain part (List.mem_cons_of_mem _ member)

theorem splitOn_some {c : Char} (shape : splitOn c pattern = first :: others) (member : c ∈ pattern) : others ≠ [] := by
  rintro rfl
  have whole := splitOn_shape shape
  rw [List.flatMap_nil, List.append_nil] at whole
  have plain : c ∉ first := splitOn_part first (by rw [shape]; exact List.mem_cons_self)
  exact plain (whole ▸ member)

theorem open_iff (shape : splitOn '*' pattern = first :: others) (star : '*' ∈ pattern) :
    pattern.getLast? = some '*' ↔ others.getLast? = some [] := by
  have plain : ∀ part ∈ first :: others, '*' ∉ part := by
    rw [← shape]
    exact splitOn_part
  have whole := splitOn_shape shape
  rcases List.eq_nil_or_concat others with rfl | ⟨front, last, rfl⟩
  · exact absurd rfl (splitOn_some shape star)
  · have clean : '*' ∉ last := plain last (by simp)
    have ends : pattern.getLast? = ('*' :: last).getLast? := by
      rw [whole, List.concat_eq_append, List.flatMap_append, List.flatMap_singleton, ← List.append_assoc]
      exact List.getLast?_append_of_ne_nil _ (List.cons_ne_nil _ _)
    rw [ends]
    cases last with
    | nil => simp
    | cons c last =>
      rw [List.getLast?_cons_cons]
      have other : (c :: last).getLast? ≠ some '*' := fun same => clean (List.mem_of_getLast? same)
      simp [other]

def Shortest (pattern text : List Char) : Prop :=
  Glob '*' pattern text → ∀ front, front <+: text → Glob '*' pattern front → front = text

theorem globMatches_iff (star : '*' ∈ pattern) :
    (globMatches pattern text = true ↔ Glob '*' pattern text) ↔ pattern.getLast? = some '*' ∨ Shortest pattern text := by
  obtain ⟨first, others, shape⟩ := List.exists_cons_of_ne_nil (@splitOn_ne_nil pattern '*')
  have unmatched (fails : globRest true (first :: others) text = none) (other : ¬Glob '*' pattern text) :
      (globMatches pattern text = true ↔ Glob '*' pattern text) ↔ pattern.getLast? = some '*' ∨ Shortest pattern text := by
    have false_ : globMatches pattern text = false := by
      rw [globMatches, shape, fails]
    refine iff_of_true ?_ (.inr fun glob => absurd glob other)
    rw [false_]
    exact iff_of_false Bool.false_ne_true other
  by_cases begins : first <+: text
  · obtain ⟨tail, rfl⟩ := begins
    have glob : ∀ rest, Glob '*' pattern (first ++ rest) ↔ Spread others rest := by
      intro rest
      rw [glob_split shape]
      simp
    rcases globRest_leftmost others tail with ⟨used, rest, placed, rfl, leftmost⟩ | ⟨placed, absent⟩
    · have result : globMatches pattern (first ++ (used ++ rest)) = ((others.getLast?.getD []).isEmpty || rest.isEmpty) := by
        obtain ⟨next, more, rfl⟩ := List.exists_cons_of_ne_nil (splitOn_some shape star)
        rw [globMatches, shape, globRest_begins, placed]
        rfl
      by_cases open_ : others.getLast? = some []
      · have both : Glob '*' pattern (first ++ (used ++ rest)) := (glob _).mpr (leftmost.spread.beyond open_ rest)
        refine iff_of_true ?_ (.inl ((open_iff shape star).mpr open_))
        rw [result, open_]
        exact iff_of_true rfl both
      · have shut : (others.getLast?.getD []).isEmpty = false := by
          cases last : others.getLast? with
          | none => exact absurd (List.getLast?_eq_none_iff.mp last) (splitOn_some shape star)
          | some part =>
            cases part with
            | nil => exact absurd last open_
            | cons => rfl
        rw [shut, Bool.false_or] at result
        rw [result, or_iff_right (fun ends => open_ ((open_iff shape star).mp ends))]
        cases rest with
        | nil =>
          rw [List.append_nil] at *
          have here : Glob '*' pattern (first ++ used) := (glob used).mpr leftmost.spread
          refine iff_of_true (iff_of_true rfl here) fun _ front inside globs => ?_
          obtain ⟨tail, rfl, spread⟩ := (glob_split shape).mp globs
          have within := (List.prefix_append_right_inj first).mp inside
          have longer := leftmost.least tail within spread
          rw [within.eq_of_length_le longer.length_le]
        | cons c rest =>
          have sooner : Glob '*' pattern (first ++ used) := (glob used).mpr leftmost.spread
          have shorter : first ++ used <+: first ++ (used ++ c :: rest) := (List.prefix_append_right_inj first).mpr (List.prefix_append _ _)
          have apart : first ++ used ≠ first ++ (used ++ c :: rest) := by simp
          constructor
          · intro agrees globs
            exact absurd (agrees.mpr globs) Bool.false_ne_true
          · intro shortest
            refine iff_of_false Bool.false_ne_true fun globs => ?_
            exact apart (shortest globs _ shorter sooner)
    · apply unmatched
      · rw [globRest_begins, placed]
      · rw [glob]
        exact absent tail (List.prefix_refl _)
  · apply unmatched (globRest_elsewhere others begins)
    rw [glob_split shape]
    rintro ⟨tail, rfl, -⟩
    exact begins (List.prefix_append _ _)

/-- A text agrees with its pattern exactly where the pattern ends with a star, or no shorter front
of a text that is of the pattern is of it. -/
theorem matches_iff (numbers : Numbers) (expression compareTo : String) (context : WorkflowContext) :
    (evaluateCondition numbers expression compareTo "matches" context = true ↔
      Glob '*' (trimChars compareTo.toList) (trimChars (resolveTemplates expression.toList context))) ↔
      (trimChars compareTo.toList).getLast? = some '*' ∨
        Shortest (trimChars compareTo.toList) (trimChars (resolveTemplates expression.toList context)) := by
  by_cases star : '*' ∈ trimChars compareTo.toList
  · have result : evaluateCondition numbers expression compareTo "matches" context =
        globMatches (trimChars compareTo.toList) (trimChars (resolveTemplates expression.toList context)) := by
      simp [evaluateCondition, star]
    rw [result]
    exact globMatches_iff star
  · have result : evaluateCondition numbers expression compareTo "matches" context =
        decide (trimChars (resolveTemplates expression.toList context) = trimChars compareTo.toList) := by
      simp [evaluateCondition, star]
    refine iff_of_true ?_ (.inr fun globs front inside fits => ?_)
    · rw [result, decide_eq_true_iff, glob_literal star]
    · rw [glob_literal star] at globs fits
      rw [globs, fits]

/-- The last part is found before the end. -/
theorem matches_too_soon : ¬(evaluateCondition (fun _ _ => none) "abab" "*ab" "matches" ⟨fun _ => none⟩ = true ↔
    Glob '*' (trimChars "*ab".toList) (trimChars (resolveTemplates "abab".toList ⟨fun _ => none⟩))) := by
  have fails : evaluateCondition (fun _ _ => none) "abab" "*ab" "matches" ⟨fun _ => none⟩ = false := by decide +kernel
  have globs : Glob '*' ['*', 'a', 'b'] ['a', 'b', 'a', 'b'] :=
    .skip ['a', 'b'] (.literal (by decide) (.literal (by decide) .nil))
  rw [fails]
  intro agrees
  exact Bool.false_ne_true (agrees.mpr globs)

end WolfFlow
