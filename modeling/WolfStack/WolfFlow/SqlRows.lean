import WolfStack.Text.Csv
import WolfStack.WolfFlow.Templates

/-! The rows of a query as CSV, and which of them are read back from it. -/

namespace WolfFlow
open Text

/-- A field with a comma, a quote or a line feed in it is put in quotes. -/
def csvEsc (s : List Char) : List Char :=
  if ',' ∈ s ∨ '"' ∈ s ∨ '\n' ∈ s then '"' :: (s.flatMap fun c => if c = '"' then ['"', '"'] else [c]) ++ ['"'] else s

/-- A JSON value, where `none` is null. -/
abbrev Cell := Option Value

def Cell.text (cell : Cell) : List Char := (cell.map fun v => v.shown.toList).getD []

def Cell.csv : Cell → List Char
  | none => []
  | some (.string s) => csvEsc s.toList
  | some (.other json) => csvEsc json.toList

def csvLine (cells : List (List Char)) : List Char := [','].intercalate cells ++ ['\n']

def renderRowsCsv (columns : List String) (rows : List (List Cell)) : List Char :=
  csvLine (columns.map fun c => csvEsc c.toList) ++ rows.flatMap fun row => csvLine (row.map Cell.csv)

def tableOf (columns : List String) (rows : List (List Cell)) : List (List (List Char)) :=
  columns.map String.toList :: rows.map (List.map Cell.text)

variable {r s : Reader} {cell later : List Char} {cells : List (List Char)}

def Enclosed (cell : List Char) : Prop := '\r' ∈ cell → ',' ∈ cell ∨ '"' ∈ cell ∨ '\n' ∈ cell

theorem csvEsc_written (enclosed : Enclosed cell) : Written cell (csvEsc cell) := by
  unfold csvEsc
  split
  next => exact .enclosed
  next open_ =>
    refine .bare fun c member => ⟨?_, ?_, ?_, ?_⟩ <;> rintro rfl
    · exact open_ (.inl member)
    · exact open_ (.inr (.inl member))
    · exact open_ (.inr (.inr member))
    · exact open_ (enclosed member)

theorem csvEsc_torn (torn : ¬Enclosed cell) : ∃ front rest, cell = front ++ '\r' :: rest ∧ Bare front ∧ csvEsc cell = cell := by
  obtain ⟨member, open_⟩ := Classical.not_imp.mp torn
  obtain ⟨front, rest, rfl, before⟩ := List.eq_append_cons_of_mem member
  refine ⟨front, rest, rfl, fun c inside => ⟨?_, ?_, ?_, ?_⟩, if_neg open_⟩ <;> rintro rfl
  · exact open_ (.inl (List.mem_append_left _ inside))
  · exact open_ (.inr (.inl (List.mem_append_left _ inside)))
  · exact open_ (.inr (.inr (List.mem_append_left _ inside)))
  · exact before inside

theorem Cell.csv_text (cell : Cell) : cell.csv = csvEsc cell.text := by
  rcases cell with _ | (_ | _) <;> rfl

theorem csvLine_one (cell : List Char) : csvLine [cell] = cell ++ ['\n'] := by simp [csvLine, List.intercalate]

theorem csvLine_cons (cell next : List Char) (others : List (List Char)) :
    csvLine (cell :: next :: others) = cell ++ ',' :: csvLine (next :: others) := by
  simp [csvLine, List.intercalate]

theorem csvLine_read (begins : r.Begins) (some_ : cells ≠ []) (enclosed : ∀ cell ∈ cells, Enclosed cell) :
    (csvLine (cells.map csvEsc)).foldlM Reader.read r = some ⟨r.records ++ [r.record ++ cells], [], [], .line⟩ := by
  induction cells generalizing r with
  | nil => exact absurd rfl some_
  | cons cell cells ih =>
    obtain ⟨next, reads, holds⟩ := (csvEsc_written (enclosed cell List.mem_cons_self)).read begins
    cases cells with
    | nil =>
      rw [List.map_singleton, csvLine_one, List.foldlM_append, reads]
      change ['\n'].foldlM Reader.read next = _
      rw [List.foldlM_cons, holds.line]
      rfl
    | cons other others =>
      rw [List.map_cons, List.map_cons, csvLine_cons, List.foldlM_append, reads]
      change (',' :: csvLine ((other :: others).map csvEsc)).foldlM Reader.read next = _
      rw [List.foldlM_cons, holds.comma]
      change (csvLine ((other :: others).map csvEsc)).foldlM Reader.read _ = _
      rw [ih ⟨rfl, .inr rfl⟩ (List.cons_ne_nil _ _) fun cell member => enclosed cell (List.mem_cons_of_mem _ member)]
      simp

theorem fronts_eq {α : Type} {first second whole : List α} (left : first <+: whole) (right : second <+: whole)
    (length : first.length = second.length) : first = second :=
  (List.prefix_of_prefix_length_le left right length.le).eq_of_length length

theorem csvLine_torn (begins : r.Begins) (torn : ¬∀ cell ∈ cells, Enclosed cell)
    (reads : (csvLine (cells.map csvEsc) ++ later).foldlM Reader.read r = some s) :
    ∃ other, other ≠ r.record ++ cells ∧ r.records ++ [other] <+: s.records := by
  induction cells generalizing r with
  | nil => exact absurd (fun cell member => by cases member) torn
  | cons cell cells ih =>
    by_cases enclosed : Enclosed cell
    · obtain ⟨next, stops, holds⟩ := (csvEsc_written enclosed).read begins
      have others : ¬∀ cell ∈ cells, Enclosed cell := fun all => torn (List.forall_mem_cons.mpr ⟨enclosed, all⟩)
      cases cells with
      | nil => exact absurd (fun cell member => by cases member) others
      | cons other more =>
        rw [List.map_cons, List.map_cons, csvLine_cons, List.append_assoc, List.foldlM_append, stops] at reads
        change (',' :: (csvLine ((other :: more).map csvEsc) ++ later)).foldlM Reader.read next = some s at reads
        rw [List.foldlM_cons, holds.comma] at reads
        have apart := ih (r := ⟨r.records, r.record ++ [cell], [], .field⟩) ⟨rfl, .inr rfl⟩ others reads
        simpa using apart
    · obtain ⟨front, rest, rfl, bare, same⟩ := csvEsc_torn enclosed
      obtain ⟨beyond, shape⟩ : ∃ beyond, csvLine (((front ++ '\r' :: rest) :: cells).map csvEsc) ++ later = front ++ '\r' :: beyond := by
        cases cells with
        | nil => exact ⟨rest ++ ['\n'] ++ later, by rw [List.map_singleton, csvLine_one, same]; simp⟩
        | cons other more => exact ⟨_, by rw [List.map_cons, List.map_cons, csvLine_cons, same, List.append_assoc, List.append_assoc]; rfl⟩
      rw [shape] at reads
      exact ⟨r.record ++ [front], by simp, read_torn bare begins beyond reads⟩

/-- A table that can be read back: there is a field in each line, and none is torn. -/
def Legible (rows : List (List (List Char))) : Prop := ∀ row ∈ rows, row ≠ [] ∧ ∀ cell ∈ row, Enclosed cell

theorem table_read_iff (rows records : List (List (List Char))) :
    ((rows.flatMap fun row => csvLine (row.map csvEsc)).foldlM Reader.read ⟨records, [], [], .line⟩).bind Reader.finish = some (records ++ rows) ↔
      Legible rows := by
  induction rows generalizing records with
  | nil => simp [Legible, Reader.finish]
  | cons row rows ih =>
    rw [List.flatMap_cons, Legible, List.forall_mem_cons, ← Legible]
    -- a record that is not the row stays in the place of it
    have unread {text : List Char} (astray : ∀ s, text.foldlM Reader.read ⟨records, [], [], .line⟩ = some s →
        ∃ other, other ≠ row ∧ records ++ [other] <+: s.records) :
        ¬(text.foldlM Reader.read ⟨records, [], [], .line⟩).bind Reader.finish = some (records ++ row :: rows) := by
      intro table
      obtain ⟨s, reads, finishes⟩ := Option.bind_eq_some_iff.mp table
      obtain ⟨other, apart, read⟩ := astray s reads
      have wanted : records ++ [row] <+: records ++ row :: rows := ⟨rows, by simp⟩
      have equal := fronts_eq (read.trans (finish_keeps finishes)) wanted (by simp)
      exact apart (by simpa using equal)
    cases row with
    | nil =>
      refine iff_of_false (unread fun s reads => ⟨[[]], by simp, ?_⟩) fun legible => legible.1.1 rfl
      have begun : (csvLine ([].map csvEsc)).foldlM Reader.read ⟨records, [], [], .line⟩ = some ⟨records ++ [[[]]], [], [], .line⟩ := rfl
      rw [List.foldlM_append, begun] at reads
      exact foldlM_keeps reads
    | cons cell cells =>
      have begins : (⟨records, [], [], .line⟩ : Reader).Begins := ⟨rfl, .inl rfl⟩
      by_cases enclosed : ∀ other ∈ cell :: cells, Enclosed other
      · have reads := csvLine_read begins (List.cons_ne_nil _ _) enclosed
        rw [List.foldlM_append, reads, and_iff_right ⟨List.cons_ne_nil _ _, enclosed⟩, ← ih (records ++ [cell :: cells])]
        simp
      · exact iff_of_false (unread fun s reads => csvLine_torn begins enclosed reads) fun legible => enclosed legible.1.2

/-- The table is read back from its CSV exactly where each line has a field, and every field with
a carriage return in it has a comma, a quote or a line feed in it too. -/
theorem rows_csv_round_trip_iff (columns : List String) (rows : List (List Cell)) :
    readCsv (renderRowsCsv columns rows) = some (tableOf columns rows) ↔ Legible (tableOf columns rows) := by
  have text : renderRowsCsv columns rows = (tableOf columns rows).flatMap fun row => csvLine (row.map csvEsc) := by
    simp only [renderRowsCsv, tableOf, List.flatMap_cons, List.flatMap_map, List.map_map]
    congr 1
    refine congrArg (rows.flatMap ·) (funext fun row => congrArg csvLine ?_)
    exact List.map_congr_left fun cell _ => cell.csv_text
  rw [readCsv, text]
  exact table_read_iff (tableOf columns rows) []

/-- A carriage return at the end of a field is taken for a part of the line break. -/
theorem rows_csv_torn : readCsv (renderRowsCsv ["name"] [[some (.string "a\r")]]) = some [["name".toList], [['a']]] ∧
    readCsv (renderRowsCsv ["name"] [[some (.string "a\r")]]) ≠ some (tableOf ["name"] [[some (.string "a\r")]]) := by
  decide +kernel

end WolfFlow
