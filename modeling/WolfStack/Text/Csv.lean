import Mathlib.Data.List.Infix

/-! Tables of text as fields that commas part and line breaks end. Fields may stand in quotes, in
which commas and line breaks are like any other character and a quote is doubled. A line break is
a carriage return, a line feed, or the two of them. -/

namespace Text

inductive Mode where
  | line
  | afterReturn
  | field
  | plain
  | quoted
  | closed
deriving DecidableEq, Repr

/-- What has been read: the records, the fields of the record that has been begun, and what
there is of the field. -/
structure Reader where
  records : List (List (List Char))
  record : List (List Char)
  field : List Char
  mode : Mode
deriving DecidableEq, Repr

namespace Reader
variable (r : Reader)

def start : Reader := ⟨[], [], [], .line⟩

def endField : Reader := ⟨r.records, r.record ++ [r.field], [], .field⟩

def endRecord (mode : Mode) : Reader := ⟨r.records ++ [r.record ++ [r.field]], [], [], mode⟩

def put (c : Char) (mode : Mode) : Reader := ⟨r.records, r.record, r.field ++ [c], mode⟩

/-- A character that ends a field, or is part of one without quotes. -/
def readPlain (c : Char) : Reader :=
  if c = ',' then r.endField
  else if c = '\n' then r.endRecord .line
  else if c = '\r' then r.endRecord .afterReturn
  else r.put c .plain

def readBegin (c : Char) : Reader := if c = '"' then { r with mode := .quoted } else r.readPlain c

def read (c : Char) : Option Reader :=
  match r.mode with
  | .line | .field => some (r.readBegin c)
  | .afterReturn => some (if c = '\n' then { r with mode := .line } else r.readBegin c)
  | .plain => if c = '"' then none else some (r.readPlain c)
  | .quoted => some (if c = '"' then { r with mode := .closed } else r.put c .quoted)
  | .closed =>
    if c = '"' then some (r.put c .quoted)
    else if c = ',' ∨ c = '\n' ∨ c = '\r' then some (r.readPlain c)
    else none

/-- The last record need not have a line break at its end. -/
def finish : Option (List (List (List Char))) :=
  match r.mode with
  | .line | .afterReturn => some r.records
  | .field | .plain | .closed => some (r.records ++ [r.record ++ [r.field]])
  | .quoted => none

end Reader

def readCsv (chars : List Char) : Option (List (List (List Char))) := (chars.foldlM Reader.read Reader.start).bind Reader.finish

def quoted (cell : List Char) : List Char := '"' :: (cell.flatMap fun c => if c = '"' then ['"', '"'] else [c]) ++ ['"']

def Bare (cell : List Char) : Prop := ∀ c ∈ cell, c ≠ ',' ∧ c ≠ '"' ∧ c ≠ '\n' ∧ c ≠ '\r'

inductive Written (cell : List Char) : List Char → Prop where
  | bare (bare : Bare cell) : Written cell cell
  | enclosed : Written cell (quoted cell)

variable {r s : Reader} {cell text front : List Char}

def Reader.Begins (r : Reader) : Prop := r.field = [] ∧ (r.mode = .line ∨ r.mode = .field)

structure Reader.Holds (r : Reader) (cell : List Char) (s : Reader) : Prop where
  records : s.records = r.records
  record : s.record = r.record
  field : s.field = cell
  mode : s.mode ≠ .afterReturn ∧ s.mode ≠ .quoted

theorem read_bare (bare : Bare cell) (mode : r.mode = .line ∨ r.mode = .field ∨ r.mode = .plain) :
    cell.foldlM Reader.read r = some ⟨r.records, r.record, r.field ++ cell, if cell = [] then r.mode else .plain⟩ := by
  induction cell generalizing r with
  | nil => simp
  | cons c cell ih =>
    obtain ⟨comma, quote, feed, return_⟩ := bare c List.mem_cons_self
    have one : r.read c = some (r.put c .plain) := by
      rcases mode with mode | mode | mode <;> simp [Reader.read, Reader.readBegin, Reader.readPlain, mode, comma, quote, feed, return_]
    rw [List.foldlM_cons, one]
    change cell.foldlM Reader.read (r.put c .plain) = _
    rw [ih (fun d member => bare d (List.mem_cons_of_mem _ member)) (.inr (.inr rfl))]
    simp [Reader.put]

theorem read_doubled (mode : r.mode = .quoted) :
    (cell.flatMap fun c => if c = '"' then ['"', '"'] else [c]).foldlM Reader.read r = some { r with field := r.field ++ cell } := by
  induction cell generalizing r with
  | nil => simp
  | cons c cell ih =>
    have one : (if c = '"' then ['"', '"'] else [c]).foldlM Reader.read r = some (r.put c .quoted) := by
      by_cases quote : c = '"'
      · subst quote
        simp [Reader.read, Reader.put, mode]
      · simp [Reader.read, Reader.put, mode, quote]
    rw [List.flatMap_cons, List.foldlM_append, one]
    change (cell.flatMap _).foldlM Reader.read (r.put c .quoted) = _
    rw [ih rfl]
    simp [Reader.put, mode]

theorem Written.read (written : Written cell text) (begins : r.Begins) : ∃ s, text.foldlM Reader.read r = some s ∧ r.Holds cell s := by
  obtain ⟨empty, mode⟩ := begins
  cases written with
  | bare bare =>
    refine ⟨_, read_bare bare (mode.imp_right .inl), rfl, rfl, by simp [empty], ?_⟩
    split
    · rcases mode with mode | mode <;> simp [mode]
    · simp
  | enclosed =>
    have opens : r.read '"' = some { r with mode := .quoted } := by
      rcases mode with mode | mode <;> simp [Reader.read, Reader.readBegin, mode]
    refine ⟨⟨r.records, r.record, cell, .closed⟩, ?_, rfl, rfl, rfl, by simp⟩
    rw [quoted, List.cons_append, List.foldlM_cons, opens]
    change (_ ++ ['"']).foldlM Reader.read { r with mode := .quoted } = _
    rw [List.foldlM_append, read_doubled rfl]
    simp [Reader.read, empty]

theorem Reader.Holds.comma (holds : r.Holds cell s) : s.read ',' = some ⟨r.records, r.record ++ [cell], [], .field⟩ := by
  obtain ⟨records, record, field, mode⟩ := holds
  cases same : s.mode <;> simp_all [Reader.read, Reader.readBegin, Reader.readPlain, Reader.endField]

theorem Reader.Holds.line (holds : r.Holds cell s) : s.read '\n' = some ⟨r.records ++ [r.record ++ [cell]], [], [], .line⟩ := by
  obtain ⟨records, record, field, mode⟩ := holds
  cases same : s.mode <;> simp_all [Reader.read, Reader.readBegin, Reader.readPlain, Reader.endRecord]

theorem read_keeps {c : Char} (reads : r.read c = some s) : r.records <+: s.records := by
  have plain : r.records <+: (r.readPlain c).records := by
    unfold Reader.readPlain
    split
    · exact List.prefix_refl _
    · split
      · exact List.prefix_append _ _
      · split
        · exact List.prefix_append _ _
        · exact List.prefix_refl _
  have begin_ : r.records <+: (r.readBegin c).records := by
    unfold Reader.readBegin
    split
    · exact List.prefix_refl _
    · exact plain
  unfold Reader.read at reads
  split at reads
  · cases reads
    exact begin_
  · cases reads
    exact begin_
  · cases reads
    split
    · exact List.prefix_refl _
    · exact begin_
  · split at reads
    · cases reads
    · cases reads
      exact plain
  · cases reads
    split <;> exact List.prefix_refl _
  · split at reads
    · cases reads
      exact List.prefix_refl _
    · split at reads
      · cases reads
        exact plain
      · cases reads

theorem foldlM_keeps (reads : text.foldlM Reader.read r = some s) : r.records <+: s.records := by
  induction text generalizing r with
  | nil =>
    cases reads
    exact List.prefix_refl _
  | cons c text ih =>
    obtain ⟨next, one, later⟩ := Option.bind_eq_some_iff.mp reads
    exact (read_keeps one).trans (ih later)

theorem finish_keeps {table : List (List (List Char))} (finishes : r.finish = some table) : r.records <+: table := by
  unfold Reader.finish at finishes
  split at finishes <;> cases finishes
  all_goals first | exact List.prefix_refl _ | exact List.prefix_append _ _

theorem read_torn (bare : Bare front) (begins : r.Begins) (later : List Char) (reads : (front ++ '\r' :: later).foldlM Reader.read r = some s) :
    r.records ++ [r.record ++ [front]] <+: s.records := by
  obtain ⟨next, stops, holds⟩ := (Written.bare bare).read begins
  have ends : next.read '\r' = some ⟨r.records ++ [r.record ++ [front]], [], [], .afterReturn⟩ := by
    obtain ⟨records, record, field, mode⟩ := holds
    cases same : next.mode <;> simp_all [Reader.read, Reader.readBegin, Reader.readPlain, Reader.endRecord]
  rw [List.foldlM_append, stops] at reads
  change ('\r' :: later).foldlM Reader.read next = some s at reads
  rw [List.foldlM_cons, ends] at reads
  exact foldlM_keeps reads

end Text
