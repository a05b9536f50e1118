import WolfStack.Router.Routes
import Mathlib.Data.List.DropRight

/-! Text that is written line by line and read back. -/

namespace Router
open Auth

variable {chars first rest line keyword value : List Char}

/-- `str::trim_start`. -/
def trimStart (chars : List Char) : List Char := chars.dropWhile isWhitespace

/-- `str::trim_end`. -/
def trimEnd (chars : List Char) : List Char := (chars.reverse.dropWhile isWhitespace).reverse

def trimChars (chars : List Char) : List Char := trimEnd (trimStart chars)

theorem trim_eq (text : String) : trim text = String.ofList (trimChars text.toList) := rfl

theorem trimEnd_append (shown : trimEnd rest ≠ []) : trimEnd (first ++ rest) = first ++ trimEnd rest := by
  unfold trimEnd at *
  rw [List.reverse_append, List.dropWhile_append]
  have some_ : (rest.reverse.dropWhile isWhitespace).isEmpty = false := by simpa using shown
  rw [some_, if_neg Bool.false_ne_true, List.reverse_append, List.reverse_reverse]

theorem trimEnd_white (white : ∀ c ∈ rest, isWhitespace c = true) : trimEnd (first ++ rest) = trimEnd first := by
  unfold trimEnd
  rw [List.reverse_append, List.dropWhile_append]
  have gone : rest.reverse.dropWhile isWhitespace = [] := List.dropWhile_eq_nil_iff.mpr fun c member => white c (List.mem_reverse.mp member)
  rw [gone]
  rfl

theorem trimEnd_nil_iff : trimEnd rest = [] ↔ ∀ c ∈ rest, isWhitespace c = true := by
  rw [trimEnd, List.reverse_eq_nil_iff, List.dropWhile_eq_nil_iff]
  simp only [List.mem_reverse]

theorem trimEnd_dark {last : Char} (dark : isWhitespace last = false) (front value : List Char) :
    trimEnd (front ++ [last] ++ value) = front ++ [last] ++ trimEnd value := by
  by_cases shown : trimEnd value = []
  · have stops : trimEnd (front ++ [last]) = front ++ [last] := by
      rw [trimEnd, List.reverse_append, List.reverse_singleton, List.singleton_append,
        List.dropWhile_cons_of_neg (by simp [dark]), List.reverse_cons, List.reverse_reverse]
    rw [trimEnd_white (trimEnd_nil_iff.mp shown), shown, List.append_nil, stops]
  · exact trimEnd_append shown

theorem trimChars_keyword {c last : Char} {middle : List Char} (dark : isWhitespace c = false) (end_ : isWhitespace last = false)
    (shape : keyword = c :: middle ∧ ∃ front, keyword = front ++ [last]) (value : List Char) :
    trimChars (keyword ++ value) = keyword ++ trimEnd value := by
  obtain ⟨begins, front, ends⟩ := shape
  have started : trimStart (keyword ++ value) = keyword ++ value := by
    rw [begins, List.cons_append, trimStart, List.dropWhile_cons_of_neg (by simp [dark])]
  rw [trimChars, started, ends]
  exact trimEnd_dark end_ front value

theorem dropWhile_trimEnd : trimStart (trimEnd chars) = trimEnd (trimStart chars) := by
  induction chars with
  | nil => rfl
  | cons c rest ih =>
    by_cases shown : trimEnd rest = []
    · by_cases white : isWhitespace c = true
      · have all : ∀ x ∈ c :: rest, isWhitespace x = true := List.forall_mem_cons.mpr ⟨white, trimEnd_nil_iff.mp shown⟩
        have nothing : trimStart (c :: rest) = [] := List.dropWhile_eq_nil_iff.mpr all
        rw [trimEnd_nil_iff.mpr all, nothing]
        rfl
      · have keeps : trimStart (c :: rest) = c :: rest := List.dropWhile_cons_of_neg white
        have only : trimEnd (c :: rest) = [c] := by
          rw [← List.singleton_append, trimEnd_white (trimEnd_nil_iff.mp shown), trimEnd, List.reverse_singleton,
            List.dropWhile_cons_of_neg white, List.reverse_singleton]
        rw [keeps, only]
        exact List.dropWhile_cons_of_neg white
    · have ends : trimEnd (c :: rest) = c :: trimEnd rest := @trimEnd_append [c] rest shown
      rw [ends]
      by_cases white : isWhitespace c = true
      · have now : ∀ tail, trimStart (c :: tail) = trimStart tail := fun tail => List.dropWhile_cons_of_pos white
        rw [now, now, ih]
      · have now : ∀ tail, trimStart (c :: tail) = c :: tail := fun tail => List.dropWhile_cons_of_neg white
        rw [now, now, ends]

theorem trimEnd_idem : trimEnd (trimEnd chars) = trimEnd chars := by
  unfold trimEnd
  rw [List.reverse_reverse, List.dropWhile_idempotent]

theorem trimChars_trimEnd : trimChars (trimEnd chars) = trimChars chars := by
  rw [trimChars, dropWhile_trimEnd, trimEnd_idem, trimChars]

theorem trimChars_white (white : ∀ c ∈ rest, isWhitespace c = true) : trimChars (first ++ rest) = trimChars first := by
  unfold trimChars
  rw [← dropWhile_trimEnd, ← dropWhile_trimEnd, trimEnd_white white]

variable {c : Char}

theorem splitOn_ne_nil : splitOn c chars ≠ [] := by
  cases chars with
  | nil => exact List.cons_ne_nil _ _
  | cons first rest =>
    unfold splitOn
    split
    · exact List.cons_ne_nil _ _
    · split <;> exact List.cons_ne_nil _ _

theorem splitOn_append : splitOn c (first ++ c :: rest) = splitOn c first ++ splitOn c rest := by
  induction first with
  | nil => simp [splitOn]
  | cons x first ih =>
    rw [List.cons_append, splitOn, splitOn, ih]
    split
    · rfl
    · obtain ⟨part, parts, shape⟩ := List.exists_cons_of_ne_nil (@splitOn_ne_nil first c)
      rw [shape]
      rfl

theorem splitOn_plain (plain : c ∉ chars) : splitOn c chars = [chars] := by
  induction chars with
  | nil => rfl
  | cons x rest ih =>
    rw [List.mem_cons, not_or] at plain
    rw [splitOn, if_neg (Ne.symm plain.1), ih plain.2]

theorem splitOn_part : ∀ part ∈ splitOn c chars, c ∉ part := by
  induction chars with
  | nil =>
    intro part member
    rw [List.mem_singleton.mp member]
    exact List.not_mem_nil
  | cons x rest ih =>
    unfold splitOn
    split
    · exact List.forall_mem_cons.mpr ⟨List.not_mem_nil, ih⟩
    · rename_i other
      split
      · rename_i part parts shape
        rw [shape, List.forall_mem_cons] at ih
        refine List.forall_mem_cons.mpr ⟨?_, ih.2⟩
        rw [List.mem_cons, not_or]
        exact ⟨Ne.symm other, ih.1⟩
      · intro part member
        rw [List.mem_singleton.mp member, List.mem_singleton]
        exact Ne.symm other

theorem splitOnce_append (plain : c ∉ first) : splitOnce c (first ++ c :: rest) = some (first, rest) := by
  have apart : ∀ x ∈ first, decide (x ≠ c) = true := fun x member => decide_eq_true fun same => plain (same ▸ member)
  have rest_ : (first ++ c :: rest).dropWhile (· ≠ c) = c :: rest := by
    rw [List.dropWhile_append_of_pos apart, List.dropWhile_cons_of_neg (by simp)]
  have first_ : (first ++ c :: rest).takeWhile (· ≠ c) = first := by
    rw [List.takeWhile_append_of_pos apart, List.takeWhile_cons_of_neg (by simp), List.append_nil]
  rw [splitOnce, rest_]
  dsimp only
  rw [first_]

theorem splitOnce_plain (plain : c ∉ chars) : splitOnce c chars = none := by
  have all : chars.dropWhile (· ≠ c) = [] := List.dropWhile_eq_nil_iff.mpr fun x member => decide_eq_true fun same => plain (same ▸ member)
  rw [splitOnce, all]

def stripCr (line : List Char) : List Char :=
  match line.reverse with
  | '\r' :: front => front.reverse
  | _ => line

/-- `str::lines`. -/
def lines (chars : List Char) : List (List Char) :=
  match (splitOn '\n' chars).reverse with
  | [] => []
  | last :: ended => ended.reverse.map stripCr ++ if last = [] then [] else [last]

def linesText (lines : List (List Char)) : List Char := lines.flatMap (· ++ ['\n'])

def Unbroken (chars : List Char) : Prop := '\n' ∉ chars ∧ '\r' ∉ chars

instance : Decidable (Unbroken chars) := inferInstanceAs (Decidable (_ ∧ _))

theorem unbroken_append {a b : String} (left : Unbroken a.toList) (right : Unbroken b.toList) : Unbroken (a ++ b).toList := by
  rw [String.toList_append]
  exact ⟨fun member => (List.mem_append.mp member).elim left.1 right.1, fun member => (List.mem_append.mp member).elim left.2 right.2⟩

theorem stripCr_unbroken (whole : Unbroken line) : stripCr line = line := by
  unfold stripCr
  split
  · rename_i front shape
    have member : '\r' ∈ line.reverse := shape ▸ List.mem_cons_self
    exact absurd (List.mem_reverse.mp member) whole.2
  · rfl

theorem splitOn_linesText {all : List (List Char)} (single : ∀ line ∈ all, '\n' ∉ line) : splitOn '\n' (linesText all) = all ++ [[]] := by
  induction all with
  | nil => rfl
  | cons line rest ih =>
    have shape : linesText (line :: rest) = line ++ '\n' :: linesText rest := by
      simp [linesText]
    rw [shape, splitOn_append, splitOn_plain (single line List.mem_cons_self), ih fun line member => single line (List.mem_cons_of_mem _ member)]
    rfl

theorem lines_ended {all : List (List Char)} (single : ∀ line ∈ all, '\n' ∉ line) : lines (linesText all) = all.map stripCr := by
  rw [lines, splitOn_linesText single, List.reverse_append, List.reverse_singleton, List.singleton_append]
  dsimp only
  rw [List.reverse_reverse, if_pos rfl, List.append_nil]

theorem lines_linesText {all : List (List Char)} (whole : ∀ line ∈ all, Unbroken line) : lines (linesText all) = all :=
  (lines_ended fun line member => (whole line member).1).trans
    ((List.map_congr_left fun line member => stripCr_unbroken (whole line member)).trans (List.map_id all))

theorem linesText_inj {all other : List (List Char)} (single : ∀ line ∈ all, '\n' ∉ line) (also : ∀ line ∈ other, '\n' ∉ line)
    (same : linesText all = linesText other) : all = other := by
  have split : all ++ [[]] = other ++ [[]] := by
    rw [← splitOn_linesText single, ← splitOn_linesText also, same]
  exact List.append_cancel_right split

theorem joined_eq (all : List (List Char)) (last : List Char) : ['\n'].intercalate (all ++ [last]) = linesText all ++ last := by
  induction all with
  | nil => simp [linesText, List.intercalate]
  | cons line rest ih =>
    obtain ⟨next, others, shape⟩ := List.exists_cons_of_ne_nil (List.append_ne_nil_of_right_ne_nil rest (List.cons_ne_nil last []))
    have more : ['\n'].intercalate (line :: (rest ++ [last])) = line ++ '\n' :: ['\n'].intercalate (rest ++ [last]) := by
      rw [shape]
      simp [List.intercalate]
    rw [List.cons_append, more, ih]
    simp [linesText]

theorem stripCr_append (front : List Char) : stripCr (front ++ ['\r']) = front := by
  simp [stripCr]

theorem stripCr_cases (line : List Char) : stripCr line = line ∧ line.getLast? ≠ some '\r' ∨ line = stripCr line ++ ['\r'] := by
  rcases List.eq_nil_or_concat line with rfl | ⟨front, last, rfl⟩
  · exact .inl ⟨rfl, by simp⟩
  · rw [List.concat_eq_append]
    by_cases cr : last = '\r'
    · subst cr
      exact .inr (congrArg (· ++ ['\r']) (stripCr_append front).symm)
    · refine .inl ⟨?_, by simpa using cr⟩
      rw [stripCr, List.reverse_append, List.reverse_singleton, List.singleton_append]
      split
      · rename_i shape
        exact absurd (List.cons.inj shape).1 cr
      · rfl

theorem stripCr_subset {c : Char} (member : c ∈ stripCr line) : c ∈ line := by
  obtain ⟨same, -⟩ | ended := stripCr_cases line
  · exact same ▸ member
  · rw [ended]
    exact List.mem_append_left _ member

theorem lines_single : ∀ line ∈ lines chars, '\n' ∉ line := by
  have parts : ∀ part ∈ splitOn '\n' chars, '\n' ∉ part := splitOn_part
  intro line member
  unfold lines at member
  split at member
  · cases member
  · rename_i last ended shape
    have inside : ∀ part, part = last ∨ part ∈ ended → '\n' ∉ part := by
      intro part among
      apply parts
      rw [← List.mem_reverse, shape, List.mem_cons]
      exact among
    obtain early | late := List.mem_append.mp member
    · obtain ⟨part, among, rfl⟩ := List.mem_map.mp early
      exact fun newline => inside part (.inr (List.mem_reverse.mp among)) (stripCr_subset newline)
    · split at late
      · cases late
      · rw [List.mem_singleton.mp late]
        exact inside last (.inl rfl)

/-- `str::strip_prefix`. -/
def stripPrefix (keyword chars : List Char) : Option (List Char) :=
  if keyword.isPrefixOf chars then some (chars.drop keyword.length) else none

theorem stripPrefix_append : stripPrefix keyword (keyword ++ value) = some value := by
  rw [stripPrefix, if_pos (List.isPrefixOf_iff_prefix.mpr (List.prefix_append _ _)), List.drop_left]

theorem stripPrefix_other {other : List Char} (apart : keyword.isPrefixOf other = false ∧ other.isPrefixOf keyword = false) :
    stripPrefix other (keyword ++ value) = none := by
  rw [stripPrefix, if_neg]
  intro begins
  have other_ : other <+: keyword ++ value := List.isPrefixOf_iff_prefix.mp begins
  rcases List.prefix_or_prefix_of_prefix (List.prefix_append keyword value) other_ with shorter | longer
  · exact absurd (List.isPrefixOf_iff_prefix.mpr shorter) (by simp [apart.1])
  · exact absurd (List.isPrefixOf_iff_prefix.mpr longer) (by simp [apart.2])

end Router
