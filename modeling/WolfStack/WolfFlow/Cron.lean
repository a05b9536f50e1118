import WolfStack.Router.Lines

/-! Schedules of five fields, and what their entries denote. -/

namespace WolfFlow
open Auth Router

def stepRange (rangePart : List Char) (min max : Nat) : Option (Nat × Nat) :=
  if rangePart = ['*'] then some (min, max)
  else match splitOnce '-' rangePart with
    | some (lo, hi) => (parseU32 lo).bind fun lo => (parseU32 hi).map fun hi => (lo, hi)
    | none => none

def singleFieldMatches (part : List Char) (value min max : Nat) : Bool :=
  match splitOnce '/' part with
  | some (rangePart, stepStr) =>
    match parseU32 stepStr with
    | some step =>
      if step = 0 then false
      else match stepRange rangePart min max with
        | some (lo, hi) => if value < lo ∨ hi < value then false else (value - lo) % step = 0
        | none => false
    | none => false
  | none =>
    if part = ['*'] then true
    else match splitOnce '-' part with
      | some (loStr, hiStr) =>
        match parseU32 loStr, parseU32 hiStr with
        | some lo, some hi => lo ≤ value ∧ value ≤ hi
        | _, _ => false
      | none =>
        match parseU32 part with
        | some v =>
          -- only a single value takes 7 for Sunday
          if min = 0 ∧ max = 7 then (if value = 7 then 0 else value) = (if v = 7 then 0 else v)
          else value = v
        | none => false

def fieldMatches (field : List Char) (value min max : Nat) : Bool :=
  (splitOn ',' field).any fun part => singleFieldMatches (trimChars part) value min max

/-- A minute of the calendar; the weekday is counted from Sunday. -/
structure CalendarMinute where
  minute : Nat
  hour : Nat
  day : Nat
  month : Nat
  weekday : Nat
deriving DecidableEq, Repr

def cronMatches (expr : List Char) (now : CalendarMinute) : Bool :=
  match splitWhitespace expr with
  | [minute, hour, day, month, weekday] =>
    fieldMatches minute now.minute 0 59 && fieldMatches hour now.hour 0 23 && fieldMatches day now.day 1 31 &&
      fieldMatches month now.month 1 12 && fieldMatches weekday now.weekday 0 7
  | _ => false

inductive Field where
  | minute
  | hour
  | dayOfMonth
  | month
  | dayOfWeek
deriving DecidableEq, Repr

namespace Field

def min : Field → Nat
  | dayOfMonth | month => 1
  | _ => 0

def max : Field → Nat
  | minute => 59
  | hour => 23
  | dayOfMonth => 31
  | month => 12
  | dayOfWeek => 7

/-- Sunday goes by two numbers. -/
def Same (f : Field) (a b : Nat) : Prop := a = b ∨ f = dayOfWeek ∧ (a = 0 ∧ b = 7 ∨ a = 7 ∧ b = 0)

end Field

structure Number where
  digits : List Char
  some_ : digits ≠ []
  all : ∀ c ∈ digits, c.isDigit = true

def Number.value (n : Number) : Nat := n.digits.foldl (fun value c => 10 * value + (c.toNat - '0'.toNat)) 0

structure Step extends Number where
  positive : 0 < toNumber.value

inductive Entry where
  | any
  | value (n : Number)
  | range (a b : Number)
  | anyStep (s : Step)
  | rangeStep (a b : Number) (s : Step)

namespace Entry

def text : Entry → List Char
  | any => ['*']
  | value n => n.digits
  | range a b => a.digits ++ '-' :: b.digits
  | anyStep s => '*' :: '/' :: s.digits
  | rangeStep a b s => a.digits ++ '-' :: b.digits ++ '/' :: s.digits

def Holds (f : Field) (x : Nat) : Entry → Prop
  | any => f.min ≤ x ∧ x ≤ f.max
  | value n => x = n.value
  | range a b => a.value ≤ x ∧ x ≤ b.value
  | anyStep s => f.min ≤ x ∧ x ≤ f.max ∧ s.value ∣ x - f.min
  | rangeStep a b s => a.value ≤ x ∧ x ≤ b.value ∧ s.value ∣ x - a.value

instance (f : Field) (x : Nat) : DecidablePred (Holds f x)
  | any => inferInstanceAs (Decidable (_ ∧ _))
  | value n => inferInstanceAs (Decidable (x = n.value))
  | range _ _ => inferInstanceAs (Decidable (_ ∧ _))
  | anyStep _ => inferInstanceAs (Decidable (_ ∧ _ ∧ _))
  | rangeStep _ _ _ => inferInstanceAs (Decidable (_ ∧ _ ∧ _))

def Denotes (f : Field) (v : Nat) (e : Entry) : Prop := ∃ x, e.Holds f x ∧ f.Same v x

def numbers : Entry → List Number
  | any | value _ => []
  | range a b => [a, b]
  | anyStep s => [s.toNumber]
  | rangeStep a b s => [a, b, s.toNumber]

/-- A range in which Sunday is found under its other number only, or one of its numbers is
too large. -/
def Misread (f : Field) (v : Nat) (e : Entry) : Prop :=
  match e with
  | any | value _ => False
  | e => ¬e.Holds f v ∨ ∃ n ∈ e.numbers, 4294967295 < n.value

end Entry

def fieldText (entries : List Entry) : List Char := [','].intercalate (entries.map Entry.text)

variable {f : Field} {v : Nat} {e : Entry}

theorem Number.parse (n : Number) : parseU32 n.digits = if 4294967295 < n.value then none else some n.value :=
  parseU32_digits n.some_ n.all

theorem Number.lacks (n : Number) {c : Char} (other : c.isDigit = false) : c ∉ n.digits := by
  intro member
  rw [n.all c member] at other
  cases other

theorem Entry.text_chars : ∀ c ∈ e.text, c.isDigit = true ∨ c = '*' ∨ c = '-' ∨ c = '/' := by
  have digit : ∀ (n : Number) (c : Char), c ∈ n.digits → c.isDigit = true ∨ c = '*' ∨ c = '-' ∨ c = '/' := fun n c member => .inl (n.all c member)
  intro c member
  cases e with
  | any => exact .inr (.inl (List.mem_singleton.mp member))
  | value n => exact digit n c member
  | range a b =>
    simp only [Entry.text, List.mem_append, List.mem_cons] at member
    obtain low | rfl | high := member
    · exact digit a c low
    · simp
    · exact digit b c high
  | anyStep s =>
    simp only [Entry.text, List.mem_cons] at member
    obtain rfl | rfl | every := member
    · simp
    · simp
    · exact digit s.toNumber c every
  | rangeStep a b s =>
    simp only [Entry.text, List.mem_append, List.mem_cons] at member
    obtain (low | rfl | high) | rfl | every := member
    · exact digit a c low
    · simp
    · exact digit b c high
    · simp
    · exact digit s.toNumber c every

theorem dark_of_char {c : Char} (char : c.isDigit = true ∨ c = '*' ∨ c = '-' ∨ c = '/') : isWhitespace c = false ∧ c ≠ ',' := by
  obtain digit | rfl | rfl | rfl := char
  · refine ⟨digit_dark digit, ?_⟩
    rintro rfl
    exact absurd digit (by decide)
  all_goals decide

theorem sunday_bounds : f.min = 0 ∧ f.max = 7 ↔ f = .dayOfWeek := by
  cases f <;> decide

theorem max_small : f.max ≤ 59 := by
  cases f <;> decide

theorem holds_denotes (holds : e.Holds f v) : e.Denotes f v := ⟨v, holds, .inl rfl⟩

theorem value_matches (n : Number) (inside : v ≤ f.max) :
    singleFieldMatches n.digits v f.min f.max = true ↔ (Entry.value n).Denotes f v := by
  have plain : n.digits ≠ ['*'] := fun same => n.lacks (c := '*') (by decide) (same ▸ List.mem_singleton.mpr rfl)
  have bound := @max_small f
  unfold singleFieldMatches
  rw [splitOnce_plain (n.lacks (by decide)), splitOnce_plain (n.lacks (by decide))]
  dsimp only
  rw [if_neg plain, n.parse]
  by_cases large : 4294967295 < n.value
  · rw [if_pos large]
    refine iff_of_false Bool.false_ne_true ?_
    rintro ⟨x, rfl, same | ⟨-, ⟨-, seven⟩ | ⟨-, zero⟩⟩⟩ <;> omega
  · rw [if_neg large]
    dsimp only
    by_cases sunday : f = .dayOfWeek
    · rw [if_pos (sunday_bounds.mpr sunday), decide_eq_true_eq]
      constructor
      · intro same
        refine ⟨n.value, rfl, ?_⟩
        split at same <;> split at same <;> simp only [Field.Same, sunday, true_and] <;> omega
      · rintro ⟨x, rfl, same | ⟨-, ⟨rfl, seven⟩ | ⟨rfl, zero⟩⟩⟩
        · rw [same]
        · rw [seven]
          rfl
        · rw [zero]
          rfl
    · rw [if_neg fun both => sunday (sunday_bounds.mp both), decide_eq_true_eq]
      constructor
      · exact fun same => ⟨n.value, rfl, .inl same⟩
      · rintro ⟨x, rfl, same | ⟨other, -⟩⟩
        · exact same
        · exact absurd other sunday

theorem read_iff (misread : e.Misread f v ↔ ¬e.Holds f v ∨ ∃ n ∈ e.numbers, 4294967295 < n.value) :
    e.Denotes f v ∧ ¬e.Misread f v ↔ (∀ n ∈ e.numbers, n.value ≤ 4294967295) ∧ e.Holds f v := by
  rw [misread, not_or, not_not]
  constructor
  · rintro ⟨-, holds, small⟩
    exact ⟨fun n member => Nat.le_of_not_lt fun large => small ⟨n, member, large⟩, holds⟩
  · rintro ⟨small, holds⟩
    exact ⟨holds_denotes holds, holds, fun ⟨n, member, large⟩ => absurd (small n member) (Nat.not_le.mpr large)⟩

theorem parse_small {n : Number} (small : n.value ≤ 4294967295) : parseU32 n.digits = some n.value :=
  n.parse.trans (if_neg (Nat.not_lt.mpr small))

theorem parse_large {n : Number} (large : ¬n.value ≤ 4294967295) : parseU32 n.digits = none :=
  n.parse.trans (if_pos (Nat.lt_of_not_le large))

theorem range_plain (a b : Number) : '/' ∉ a.digits ++ '-' :: b.digits ∧ a.digits ++ '-' :: b.digits ≠ ['*'] := by
  constructor
  · simp [a.lacks (c := '/') (by decide), b.lacks (c := '/') (by decide)]
  · intro same
    have dash : '-' ∈ ['*'] := same ▸ List.mem_append_right _ List.mem_cons_self
    exact absurd dash (by decide)

theorem range_matches (a b : Number) : singleFieldMatches (Entry.range a b).text v f.min f.max = true ↔
    (Entry.range a b).Denotes f v ∧ ¬(Entry.range a b).Misread f v := by
  obtain ⟨whole, plain⟩ := range_plain a b
  rw [read_iff Iff.rfl, Entry.numbers, List.forall_mem_cons, List.forall_mem_singleton, Entry.text]
  unfold singleFieldMatches
  rw [splitOnce_plain whole, splitOnce_append (a.lacks (by decide))]
  dsimp only
  rw [if_neg plain]
  by_cases low : a.value ≤ 4294967295
  · by_cases high : b.value ≤ 4294967295
    · rw [parse_small low, parse_small high]
      simp [low, high, Entry.Holds]
    · rw [parse_small low, parse_large high]
      simp [high]
  · rw [parse_large low]
    simp [low]

theorem stepped_iff {step lo hi : Nat} (positive : 0 < step) :
    (if step = 0 then false else if v < lo ∨ hi < v then false else decide ((v - lo) % step = 0)) = true ↔
      lo ≤ v ∧ v ≤ hi ∧ step ∣ v - lo := by
  rw [if_neg (Nat.ne_of_gt positive), Nat.dvd_iff_mod_eq_zero]
  split
  · rename_i outside
    refine iff_of_false Bool.false_ne_true ?_
    rintro ⟨above, below, -⟩
    omega
  · rename_i inside
    rw [not_or, Nat.not_lt, Nat.not_lt] at inside
    simp [inside]

theorem anyStep_matches (s : Step) : singleFieldMatches (Entry.anyStep s).text v f.min f.max = true ↔
    (Entry.anyStep s).Denotes f v ∧ ¬(Entry.anyStep s).Misread f v := by
  have split : splitOnce '/' (Entry.anyStep s).text = some (['*'], s.digits) :=
    splitOnce_append (by decide : '/' ∉ ['*'])
  rw [read_iff Iff.rfl, Entry.numbers, List.forall_mem_singleton]
  unfold singleFieldMatches
  rw [split]
  dsimp only
  by_cases small : s.value ≤ 4294967295
  · have range : stepRange ['*'] f.min f.max = some (f.min, f.max) := if_pos rfl
    rw [parse_small small, range]
    exact (stepped_iff s.positive).trans (and_iff_right small).symm
  · rw [parse_large small]
    simp [small]

theorem rangeStep_matches (a b : Number) (s : Step) : singleFieldMatches (Entry.rangeStep a b s).text v f.min f.max = true ↔
    (Entry.rangeStep a b s).Denotes f v ∧ ¬(Entry.rangeStep a b s).Misread f v := by
  obtain ⟨whole, plain⟩ := range_plain a b
  have split : splitOnce '/' (Entry.rangeStep a b s).text = some (a.digits ++ '-' :: b.digits, s.digits) := splitOnce_append whole
  have range : stepRange (a.digits ++ '-' :: b.digits) f.min f.max =
      (parseU32 a.digits).bind fun lo => (parseU32 b.digits).map fun hi => (lo, hi) := by
    rw [stepRange, if_neg plain, splitOnce_append (a.lacks (by decide))]
  rw [read_iff Iff.rfl, Entry.numbers, List.forall_mem_cons, List.forall_mem_cons, List.forall_mem_singleton]
  unfold singleFieldMatches
  rw [split]
  dsimp only
  by_cases every : s.value ≤ 4294967295
  · rw [parse_small every, range]
    dsimp only
    by_cases low : a.value ≤ 4294967295
    · by_cases high : b.value ≤ 4294967295
      · rw [parse_small low, parse_small high]
        exact (stepped_iff s.positive).trans (and_iff_right ⟨low, high, every⟩).symm
      · rw [parse_small low, parse_large high]
        simp [high]
    · rw [parse_large low]
      simp [low]
  · rw [parse_large every]
    simp [every]

theorem singleFieldMatches_iff (e : Entry) (inside : f.min ≤ v ∧ v ≤ f.max) :
    singleFieldMatches e.text v f.min f.max = true ↔ e.Denotes f v ∧ ¬e.Misread f v := by
  cases e with
  | any => exact iff_of_true rfl ⟨holds_denotes inside, id⟩
  | value n => exact (value_matches n inside.2).trans (and_iff_left id).symm
  | range a b => exact range_matches a b
  | anyStep s => exact anyStep_matches s
  | rangeStep a b s => exact rangeStep_matches a b s

theorem trimChars_text (e : Entry) : trimChars e.text = e.text := by
  have clean := trim_clean (String.ofList e.text) fun c member => (dark_of_char (e.text_chars c (by simpa using member))).1
  rw [trim_eq, String.toList_ofList] at clean
  exact String.ofList_injective clean

theorem splitOn_joined {c : Char} (parts : List (List Char)) (some_ : parts ≠ []) (plain : ∀ part ∈ parts, c ∉ part) :
    splitOn c ([c].intercalate parts) = parts := by
  induction parts with
  | nil => exact absurd rfl some_
  | cons part rest ih =>
    have first := splitOn_plain (plain part List.mem_cons_self)
    cases rest with
    | nil =>
      have shape : [c].intercalate [part] = part := by simp [List.intercalate]
      rw [shape, first]
    | cons next others =>
      have shape : [c].intercalate (part :: next :: others) = part ++ c :: [c].intercalate (next :: others) := by
        simp [List.intercalate]
      rw [shape, splitOn_append, first, ih (List.cons_ne_nil _ _) fun part member => plain part (List.mem_cons_of_mem _ member)]
      rfl

theorem fieldMatches_entries (entries : List Entry) (inside : f.min ≤ v ∧ v ≤ f.max) :
    fieldMatches (fieldText entries) v f.min f.max = true ↔ ∃ e ∈ entries, e.Denotes f v ∧ ¬e.Misread f v := by
  cases entries with
  | nil =>
    have nothing : fieldMatches (fieldText []) v f.min f.max = singleFieldMatches [] v f.min f.max := by
      simp [fieldMatches, fieldText, splitOn, List.intercalate, trimChars, trimStart, trimEnd]
    rw [nothing]
    exact iff_of_false Bool.false_ne_true (by simp)
  | cons first rest =>
    have plain : ∀ part ∈ (first :: rest).map Entry.text, ',' ∉ part := by
      intro part member comma
      obtain ⟨e, -, rfl⟩ := List.mem_map.mp member
      exact (dark_of_char (e.text_chars ',' comma)).2 rfl
    rw [fieldMatches, fieldText, splitOn_joined _ (by simp) plain, List.any_eq_true]
    constructor
    · rintro ⟨part, member, matched⟩
      obtain ⟨e, among, rfl⟩ := List.mem_map.mp member
      rw [trimChars_text] at matched
      exact ⟨e, among, (singleFieldMatches_iff e inside).mp matched⟩
    · rintro ⟨e, among, denoted⟩
      refine ⟨e.text, List.mem_map_of_mem among, ?_⟩
      rw [trimChars_text]
      exact (singleFieldMatches_iff e inside).mpr denoted

/-- A field means the union of its entries' sets exactly where an entry that denotes the value
and is misread does not stand alone. -/
theorem fieldMatches_iff (f : Field) (entries : List Entry) (v : Nat) (inside : f.min ≤ v ∧ v ≤ f.max) :
    (fieldMatches (fieldText entries) v f.min f.max = true ↔ ∃ e ∈ entries, e.Denotes f v) ↔
      ∀ e ∈ entries, e.Denotes f v → e.Misread f v → ∃ other ∈ entries, other.Denotes f v ∧ ¬other.Misread f v := by
  rw [fieldMatches_entries entries inside]
  constructor
  · exact fun means e among denoted _ => means.mpr ⟨e, among, denoted⟩
  · intro covered
    constructor
    · rintro ⟨e, among, denoted, -⟩
      exact ⟨e, among, denoted⟩
    · rintro ⟨e, among, denoted⟩
      by_cases misread : e.Misread f v
      · exact covered e among denoted misread
      · exact ⟨e, among, denoted, misread⟩

def single (c : Char) (digit : c.isDigit = true) : Number := ⟨[c], List.cons_ne_nil _ _, by simpa using digit⟩

/-- The days from Friday to Sunday have Friday and Saturday among them. -/
theorem fieldMatches_weekend_friday :
    fieldMatches (fieldText [.range (single '5' rfl) (single '7' rfl)]) 5 0 7 = true ↔
      ∃ e ∈ [Entry.range (single '5' rfl) (single '7' rfl)], e.Denotes .dayOfWeek 5 := by
  apply (fieldMatches_iff .dayOfWeek _ 5 (by decide)).mpr
  intro e among denoted misread
  rw [List.mem_singleton.mp among] at misread
  obtain apart | ⟨n, member, large⟩ := misread
  · exact absurd (by decide) apart
  · simp only [Entry.numbers, List.mem_cons, List.not_mem_nil, or_false] at member
    obtain rfl | rfl := member <;> exact absurd large (by decide)

/-- They do not have Sunday among them. -/
theorem fieldMatches_weekend_sunday :
    ¬(fieldMatches (fieldText [.range (single '5' rfl) (single '7' rfl)]) 0 0 7 = true ↔
      ∃ e ∈ [Entry.range (single '5' rfl) (single '7' rfl)], e.Denotes .dayOfWeek 0) := by
  intro means
  have sunday : fieldMatches (fieldText [.range (single '5' rfl) (single '7' rfl)]) 0 0 7 = true :=
    means.mpr ⟨_, List.mem_cons_self, 7, by decide, .inr ⟨rfl, .inl ⟨rfl, rfl⟩⟩⟩
  exact absurd sunday (by decide)

end WolfFlow
