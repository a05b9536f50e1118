import WolfStack.Router.Lines

/-! Template references in the fields of a step. The program rescans the text after every
replacement; what it is for is to put all values in at once. -/

namespace WolfFlow
open Auth Router

section pairs
variable {α : Type}

/-- What is before the first two of a kind in a row, and what is after them. -/
def breakPair [DecidableEq α] (c : α) : List α → Option (List α × List α)
  | a :: b :: rest =>
    if a = c ∧ b = c then some ([], rest)
    else (breakPair c (b :: rest)).map fun parts => (a :: parts.1, parts.2)
  | _ => none

def Unpaired (c : α) (chars : List α) : Prop := ¬[c, c] <:+: chars ++ [c]

variable {c : α} {chars before after first rest : List α}

theorem breakPair_eq_none [DecidableEq α] : breakPair c chars = none ↔ ¬[c, c] <:+: chars := by
  induction chars with
  | nil => simp [breakPair]
  | cons a chars ih =>
    cases chars with
    | nil =>
      refine iff_of_true rfl fun inside => ?_
      have length := inside.length_le
      simp at length
    | cons b rest =>
      rw [breakPair, List.infix_cons_iff]
      split
      · rename_i both
        obtain ⟨rfl, rfl⟩ := both
        exact iff_of_false (by simp) fun apart => apart (.inl ⟨rest, rfl⟩)
      · rename_i apart
        rw [Option.map_eq_none_iff, ih, not_or]
        refine (and_iff_right fun front => apart ?_).symm
        obtain ⟨tail, same⟩ := front
        simp at same
        exact ⟨same.1.symm, same.2.1.symm⟩

theorem breakPair_shape [DecidableEq α] (found : breakPair c chars = some (before, after)) : chars = before ++ c :: c :: after ∧ Unpaired c before := by
  induction chars generalizing before with
  | nil => cases found
  | cons a chars ih =>
    cases chars with
    | nil => cases found
    | cons b rest =>
      rw [breakPair] at found
      split at found
      · rename_i both
        obtain ⟨rfl, rfl⟩ := both
        cases found
        refine ⟨rfl, fun inside => ?_⟩
        have length := inside.length_le
        simp at length
      · rename_i apart
        obtain ⟨⟨front, back⟩, inside, same⟩ := Option.map_eq_some_iff.mp found
        cases same
        obtain ⟨shape, unpaired⟩ := ih inside
        refine ⟨congrArg (a :: ·) shape, ?_⟩
        rw [Unpaired, List.cons_append, List.infix_cons_iff, not_or]
        refine ⟨fun start => apart ?_, unpaired⟩
        obtain ⟨tail, same⟩ := start
        have next : (front ++ [c]).head? = (b :: rest).head? := by
          rw [shape]
          cases front <;> rfl
        cases front with
        | nil =>
          simp at same next
          exact ⟨same.1.symm, next.symm⟩
        | cons x front =>
          simp at same next
          exact ⟨same.1.symm, next ▸ same.2.1.symm⟩

theorem breakPair_append [DecidableEq α] (unpaired : Unpaired c before) (after : List α) : breakPair c (before ++ c :: c :: after) = some (before, after) := by
  induction before with
  | nil => exact if_pos ⟨rfl, rfl⟩
  | cons a before ih =>
    rw [Unpaired, List.cons_append, List.infix_cons_iff, not_or] at unpaired
    obtain ⟨apart, later⟩ := unpaired
    have rest := ih later
    cases before with
    | nil =>
      have different : ¬(a = c ∧ c = c) := fun both => apart ⟨[], by simp [both.1]⟩
      rw [List.singleton_append, breakPair, if_neg different]
      exact congrArg (Option.map _) rest
    | cons b before =>
      have different : ¬(a = c ∧ b = c) := fun both => apart ⟨before ++ [c], by simp [both.1, both.2]⟩
      rw [List.cons_append, List.cons_append, breakPair, if_neg different]
      exact congrArg (Option.map _) rest

theorem pair_infix_append : [c, c] <:+: first ++ rest ↔
    [c, c] <:+: first ∨ [c, c] <:+: rest ∨ (first.getLast? = some c ∧ rest.head? = some c) := by
  have across : (∃ l₁ l₂, l₁ ≠ [] ∧ l₂ ≠ [] ∧ [c, c] = l₁ ++ l₂ ∧ l₁ <:+ first ∧ l₂ <+: rest) ↔
      first.getLast? = some c ∧ rest.head? = some c := by
    constructor
    · rintro ⟨l₁, l₂, some_, more, same, ⟨front, rfl⟩, ⟨back, rfl⟩⟩
      obtain ⟨x, l₁, rfl⟩ := List.exists_cons_of_ne_nil some_
      obtain ⟨y, l₂, rfl⟩ := List.exists_cons_of_ne_nil more
      have length := congrArg List.length same
      simp at length
      have short : l₁ = [] ∧ l₂ = [] := by
        constructor <;> apply List.eq_nil_of_length_eq_zero <;> omega
      obtain ⟨rfl, rfl⟩ := short
      simp at same
      rw [← same.1, ← same.2]
      simp
    · rintro ⟨last, head⟩
      obtain ⟨front, rfl⟩ := List.getLast?_eq_some_iff.mp last
      obtain ⟨back, rfl⟩ := List.head?_eq_some_iff.mp head
      exact ⟨[c], [c], by simp, by simp, rfl, ⟨front, rfl⟩, ⟨back, rfl⟩⟩
  rw [List.infix_append_iff_ne_nil, across]

def Closed (c : α) (chars : List α) : Prop := ¬[c, c] <:+: chars ∧ chars.getLast? ≠ some c

theorem closed_nil : Closed c [] := ⟨by simp, by simp⟩

theorem unpaired_iff_closed : Unpaired c chars ↔ Closed c chars := by
  rw [Unpaired, pair_infix_append, Closed]
  have alone : ¬[c, c] <:+: [c] := fun inside => by simpa using inside.length_le
  simp [alone]

theorem Closed.append (front : Closed c first) (back : Closed c rest) : Closed c (first ++ rest) := by
  constructor
  · rw [pair_infix_append]
    rintro (inside | inside | ⟨last, -⟩)
    · exact front.1 inside
    · exact back.1 inside
    · exact front.2 last
  · rw [List.getLast?_append]
    cases shape : rest.getLast? with
    | none => exact front.2
    | some x =>
      rw [Option.some_or, ← shape]
      exact back.2

theorem closed_of_not_mem (absent : c ∉ chars) : Closed c chars :=
  ⟨fun inside => absent (inside.subset List.mem_cons_self), fun last => absent (List.mem_of_getLast? last)⟩

theorem Closed.beyond {other : List α} (closed : Closed c first) (shape : first ++ rest = other ++ c :: c :: after) :
    ∃ middle, other = first ++ middle ∧ rest = middle ++ c :: c :: after := by
  obtain ⟨middle, longer, same⟩ | ⟨middle, shorter, same⟩ := List.append_eq_append_iff.mp shape
  · exact ⟨middle, longer, same⟩
  · rcases middle with _ | ⟨x, _ | ⟨y, middle⟩⟩
    · exact ⟨[], by simpa using shorter.symm, by simpa using same.symm⟩
    · rw [← (List.cons.inj same).1] at shorter
      exact absurd (by rw [shorter, List.getLast?_concat]) closed.2
    · obtain ⟨here, next⟩ := List.cons.inj same
      rw [← here, ← (List.cons.inj next).1] at shorter
      exact absurd ⟨other, middle, by rw [shorter]; simp⟩ closed.1

end pairs

inductive Value where
  | string (s : String)
  | other (json : String)
deriving DecidableEq, Repr

def Value.shown : Value → String
  | string s => s
  | other json => json

structure StepOutput where
  text : String
  data : String → Option Value

structure WorkflowContext where
  stepOutputs : String → Option StepOutput

variable {ctx : WorkflowContext}

/-- The text before the first reference, what is between its braces, and the text after it. -/
def nextReference (chars : List Char) : Option (List Char × List Char × List Char) := do
  let (before, rest) ← breakPair '{' chars
  let (inner, after) ← breakPair '}' rest
  return (before, inner, after)

def WorkflowContext.stored (ctx : WorkflowContext) (step key : List Char) : Option Value :=
  (ctx.stepOutputs (String.ofList (trimChars step))).bind fun out => out.data (String.ofList (trimChars key))

def replacement (ctx : WorkflowContext) (inner : List Char) : List Char :=
  match splitOnce '.' (trimChars inner) with
  | some (step, key) => ((ctx.stored step key).map fun v => v.shown.toList).getD []
  | none => "[invalid-ref:".toList ++ trimChars inner ++ [']']

def resolvePass (ctx : WorkflowContext) (result : List Char) : Option (List Char) :=
  (nextReference result).map fun (before, inner, after) => before ++ replacement ctx inner ++ after

def resolveLoop (ctx : WorkflowContext) : Nat → List Char → List Char
  | 0, result => result
  | turns + 1, result => match resolvePass ctx result with
    | some next => resolveLoop ctx turns next
    | none => result

def resolveTemplates (input : List Char) (ctx : WorkflowContext) : List Char := resolveLoop ctx 64 input

def substituteFrom (ctx : WorkflowContext) : Nat → List Char → List Char
  | 0, chars => chars
  | room + 1, chars => match nextReference chars with
    | some (before, inner, after) => before ++ replacement ctx inner ++ substituteFrom ctx room after
    | none => chars

def substitute (ctx : WorkflowContext) (chars : List Char) : List Char := substituteFrom ctx chars.length chars

inductive Origin where
  | input
  | inserted
deriving DecidableEq, Repr

abbrev Mark := Char × Origin

def marked (origin : Origin) (chars : List Char) : List Mark := chars.map fun c => (c, origin)

def interpreted (ctx : WorkflowContext) : Nat → List Mark → List (List Mark)
  | 0, _ => []
  | turns + 1, marks => match nextReference (marks.map Prod.fst) with
    | some (before, inner, _) =>
      let rest := marks.drop before.length
      rest.take (inner.length + 4) ::
        interpreted ctx turns (marks.take before.length ++ marked .inserted (replacement ctx inner) ++ rest.drop (inner.length + 4))
    | none => []

/-- The loop does as if all values were put in at once, and takes nothing that was put in for a reference. -/
structure Simultaneous (ctx : WorkflowContext) (input : List Char) : Prop where
  equal : resolveTemplates input ctx = substitute ctx input
  literal : ∀ span ∈ interpreted ctx 64 (marked .input input), ∀ mark ∈ span, mark.2 = .input

/-- So many references from here on are found one after the other, whatever has been put in
before them. -/
def Undisturbed (ctx : WorkflowContext) : Nat → List Char → List Char → Prop
  | 0, _, todo => substitute ctx todo = todo
  | turns + 1, done, todo => match nextReference todo with
    | some (before, inner, after) =>
      ¬['{', '{'] <:+: done ++ before ++ ['{'] ∧ Undisturbed ctx turns (done ++ before ++ replacement ctx inner) after
    | none => nextReference (done ++ todo) = none

variable {chars before inner after done todo : List Char}

theorem nextReference_shape (found : nextReference chars = some (before, inner, after)) :
    chars = before ++ '{' :: '{' :: (inner ++ '}' :: '}' :: after) ∧ Closed '{' before ∧ Closed '}' inner := by
  obtain ⟨⟨front, rest⟩, opened, found⟩ := Option.bind_eq_some_iff.mp found
  obtain ⟨⟨middle, back⟩, ended, same⟩ := Option.bind_eq_some_iff.mp found
  cases same
  obtain ⟨rfl, unpaired⟩ := breakPair_shape opened
  obtain ⟨rfl, also⟩ := breakPair_shape ended
  exact ⟨rfl, unpaired_iff_closed.mp unpaired, unpaired_iff_closed.mp also⟩

theorem nextReference_append (opens : Closed '{' before) (ends : Closed '}' inner) (after : List Char) :
    nextReference (before ++ '{' :: '{' :: (inner ++ '}' :: '}' :: after)) = some (before, inner, after) := by
  rw [nextReference, breakPair_append (unpaired_iff_closed.mpr opens)]
  dsimp only [Option.bind_eq_bind, Option.bind_some]
  rw [breakPair_append (unpaired_iff_closed.mpr ends)]
  rfl

theorem nextReference_first (opens : Closed '{' before) (rest : List Char) :
    nextReference (before ++ '{' :: '{' :: rest) = (breakPair '}' rest).map fun parts => (before, parts.1, parts.2) := by
  rw [nextReference, breakPair_append (unpaired_iff_closed.mpr opens)]
  dsimp only [Option.bind_eq_bind, Option.bind_some]
  cases breakPair '}' rest <;> rfl

theorem nextReference_none (none_ : nextReference chars = none) :
    ¬['{', '{'] <:+: chars ∨ ∃ before rest, chars = before ++ '{' :: '{' :: rest ∧ Closed '{' before ∧ ¬['}', '}'] <:+: rest := by
  cases opened : breakPair '{' chars with
  | none => exact .inl (breakPair_eq_none.mp opened)
  | some parts =>
    obtain ⟨shape, unpaired⟩ := @breakPair_shape _ _ _ parts.1 parts.2 _ opened
    refine .inr ⟨parts.1, parts.2, shape, unpaired_iff_closed.mp unpaired, breakPair_eq_none.mp ?_⟩
    rw [shape, nextReference_first (unpaired_iff_closed.mp unpaired)] at none_
    exact Option.map_eq_none_iff.mp none_

theorem substituteFrom_eq (ctx : WorkflowContext) (room : Nat) (enough : chars.length ≤ room) :
    substituteFrom ctx room chars = substitute ctx chars := by
  have stable : ∀ (room : Nat) (chars : List Char), chars.length ≤ room → ∀ more, substituteFrom ctx (room + more) chars = substituteFrom ctx room chars := by
    intro room
    induction room with
    | zero =>
      intro chars empty more
      obtain rfl := List.eq_nil_of_length_eq_zero (Nat.le_zero.mp empty)
      cases more <;> rfl
    | succ room ih =>
      intro chars enough more
      rw [Nat.add_right_comm, substituteFrom, substituteFrom]
      split
      · rename_i before inner after found
        have length := congrArg List.length (nextReference_shape found).1
        simp at length
        rw [ih after (by omega)]
      · rfl
  rw [substitute, ← stable chars.length chars (Nat.le_refl _) (room - chars.length), Nat.add_sub_cancel' enough]

theorem substitute_some (found : nextReference chars = some (before, inner, after)) :
    substitute ctx chars = before ++ replacement ctx inner ++ substitute ctx after := by
  have length := congrArg List.length (nextReference_shape found).1
  simp at length
  obtain ⟨room, same⟩ : ∃ room, chars.length = room + 1 := ⟨chars.length - 1, by omega⟩
  rw [substitute, same, substituteFrom, found]
  dsimp only
  rw [substituteFrom_eq ctx room (by omega)]

theorem substitute_none (none_ : nextReference chars = none) : substitute ctx chars = chars := by
  rw [substitute]
  cases chars.length with
  | zero => rfl
  | succ room => rw [substituteFrom, none_]

theorem bare_marked (origin : Origin) (chars : List Char) : (marked origin chars).map Prod.fst = chars := by
  rw [marked, List.map_map]
  exact List.map_id _

theorem closed_marked (closed : Closed '{' chars) : Closed ('{', Origin.input) (marked .input chars) := by
  constructor
  · rintro ⟨front, back, shape⟩
    apply closed.1
    refine ⟨front.map Prod.fst, back.map Prod.fst, ?_⟩
    have same := congrArg (List.map Prod.fst) shape
    rw [bare_marked] at same
    simpa using same
  · intro last
    apply closed.2
    have same := congrArg (Option.map Prod.fst) last
    rw [← List.getLast?_map, bare_marked] at same
    exact same

theorem closed_inserted (chars : List Char) : Closed ('{', Origin.input) (marked .inserted chars) := by
  apply closed_of_not_mem
  intro member
  obtain ⟨c, -, same⟩ := List.mem_map.mp member
  cases same

theorem closed_back {c : Char} {first rest : List Char} (closed : Closed c (first ++ rest)) : Closed c rest := by
  refine ⟨fun inside => closed.1 (pair_infix_append.mpr (.inr (.inl inside))), fun last => closed.2 ?_⟩
  rw [List.getLast?_append, last]
  rfl

theorem input_span {marks : List Mark} (closed : Closed ('{', Origin.input) marks)
    (found : nextReference (marks.map Prod.fst ++ todo) = some (before, inner, after))
    (own : ∀ mark ∈ ((marks ++ marked .input todo).drop before.length).take (inner.length + 4), mark.2 = .input) :
    ∃ middle, before = marks.map Prod.fst ++ middle ∧ nextReference todo = some (middle, inner, after) := by
  obtain ⟨shape, opens, ends⟩ := nextReference_shape found
  have bare : (marks ++ marked .input todo).map Prod.fst = before ++ '{' :: '{' :: (inner ++ '}' :: '}' :: after) := by
    rw [List.map_append, bare_marked, shape]
  obtain ⟨front, back, whole, rfl, pair⟩ := List.map_eq_append_iff.mp bare
  obtain ⟨x, back, rfl, first, pair⟩ := List.map_eq_cons_iff.mp pair
  obtain ⟨y, back, rfl, second, rest⟩ := List.map_eq_cons_iff.mp pair
  rw [whole, List.length_map, List.drop_left] at own
  have x_own := own x (by simp)
  have y_own := own y (by simp)
  obtain rfl : x = ('{', .input) := Prod.ext first x_own
  obtain rfl : y = ('{', .input) := Prod.ext second y_own
  obtain ⟨middle, rfl, own_⟩ := closed.beyond whole
  rw [List.map_append] at opens ⊢
  refine ⟨middle.map Prod.fst, rfl, ?_⟩
  have left : todo = middle.map Prod.fst ++ '{' :: '{' :: (inner ++ '}' :: '}' :: after) := by
    rw [← bare_marked .input todo, own_, List.map_append, List.map_cons, List.map_cons, rest]
  rw [left, nextReference_append (closed_back opens) ends]

theorem nextReference_some (done : List Char) (found : nextReference todo = some (before, inner, after)) :
    nextReference (done ++ todo) ≠ none := by
  intro none_
  obtain ⟨rfl, -, -⟩ := nextReference_shape found
  rw [← List.append_assoc] at none_
  obtain unpaired | ⟨early, rest, shape, closed, open_⟩ := nextReference_none none_
  · exact unpaired ⟨done ++ before, inner ++ '}' :: '}' :: after, by simp⟩
  · obtain ⟨middle, -, same⟩ := closed.beyond shape.symm
    have inside : ['}', '}'] <:+: '{' :: '{' :: rest := ⟨middle ++ '{' :: '{' :: inner, after, by rw [same]; simp⟩
    rw [List.infix_cons_iff, List.infix_cons_iff] at inside
    obtain ⟨tail, start⟩ | ⟨tail, start⟩ | later := inside
    · cases start
    · cases start
    · exact open_ later

theorem turns_iff (turns : Nat) {marks : List Mark} (closed : Closed ('{', Origin.input) marks) (todo : List Char) :
    (resolveLoop ctx turns (marks.map Prod.fst ++ todo) = marks.map Prod.fst ++ substitute ctx todo ∧
        ∀ span ∈ interpreted ctx turns (marks ++ marked .input todo), ∀ mark ∈ span, mark.2 = .input) ↔
      Undisturbed ctx turns (marks.map Prod.fst) todo := by
  induction turns generalizing marks todo with
  | zero =>
    rw [resolveLoop, List.append_cancel_left_eq, Undisturbed]
    exact ⟨fun both => both.1.symm, fun same => ⟨same.symm, fun span member => by cases member⟩⟩
  | succ turns ih =>
    have bare : (marks ++ marked .input todo).map Prod.fst = marks.map Prod.fst ++ todo := by
      rw [List.map_append, bare_marked]
    rw [resolveLoop, resolvePass, interpreted, Undisturbed, bare]
    cases found : nextReference todo with
    | none =>
      dsimp only
      constructor
      · rintro ⟨-, own⟩
        by_contra some_
        obtain ⟨⟨before, inner, after⟩, met⟩ := Option.ne_none_iff_exists'.mp some_
        rw [met] at own
        obtain ⟨middle, -, other⟩ := input_span closed met (own _ List.mem_cons_self)
        rw [found] at other
        cases other
      · intro none_
        rw [none_, substitute_none found]
        exact ⟨rfl, fun span member => by cases member⟩
    | some parts =>
      obtain ⟨before, inner, after⟩ := parts
      dsimp only
      obtain ⟨shape, opens, ends⟩ := nextReference_shape found
      by_cases first : Closed '{' (marks.map Prod.fst ++ before)
      · have met : nextReference (marks.map Prod.fst ++ todo) = some (marks.map Prod.fst ++ before, inner, after) := by
          rw [shape, ← List.append_assoc]
          exact nextReference_append first ends after
        have split : marks ++ marked .input todo =
            (marks ++ marked .input before) ++ (marked .input ('{' :: '{' :: inner ++ ['}', '}']) ++ marked .input after) := by
          rw [shape]
          simp [marked]
        have front : (marks.map Prod.fst ++ before).length = (marks ++ marked .input before).length := by simp [marked]
        have width : inner.length + 4 = (marked .input ('{' :: '{' :: inner ++ ['}', '}'])).length := by simp [marked]
        have onward : Closed ('{', Origin.input) (marks ++ marked .input before ++ marked .inserted (replacement ctx inner)) :=
          (closed.append (closed_marked opens)).append (closed_inserted _)
        have next := ih onward after
        rw [List.map_append, List.map_append, bare_marked, bare_marked] at next
        rw [met]
        dsimp only [Option.map_some]
        rw [split, front, List.drop_left, List.take_left, width, List.drop_left, List.take_left, List.forall_mem_cons,
          substitute_some found]
        have own : ∀ mark ∈ marked .input ('{' :: '{' :: inner ++ ['}', '}']), mark.2 = .input := by
          intro mark member
          obtain ⟨c, -, rfl⟩ := List.mem_map.mp member
          rfl
        have apart : ¬['{', '{'] <:+: marks.map Prod.fst ++ before ++ ['{'] := unpaired_iff_closed.mpr first
        rw [and_iff_right own, and_iff_right apart, ← next]
        simp only [List.append_assoc]
      · refine iff_of_false ?_ fun undisturbed => first (unpaired_iff_closed.mp undisturbed.1)
        rintro ⟨-, own⟩
        obtain ⟨⟨early, other, rest⟩, met⟩ := Option.ne_none_iff_exists'.mp (nextReference_some (marks.map Prod.fst) found)
        rw [met] at own
        obtain ⟨middle, rfl, same⟩ := input_span closed met (own _ List.mem_cons_self)
        rw [found] at same
        cases same
        exact first (nextReference_shape met).2.1

/-- The loop does as if all values were put in at once exactly where references are found one
after the other. -/
theorem simultaneous_iff (ctx : WorkflowContext) (input : List Char) : Simultaneous ctx input ↔ Undisturbed ctx 64 [] input := by
  refine Iff.trans ?_ (@turns_iff ctx 64 [] closed_nil input)
  exact ⟨fun both => ⟨both.equal, both.literal⟩, fun both => ⟨both.1, both.2⟩⟩

def answered : WorkflowContext where
  stepOutputs step := if step = "fetch" then some {
    text := ""
    data := fun key => if key = "body" then some (.string "\x7b\x7bfetch.status\x7d\x7d") else if key = "status" then some (.other "200") else none }
    else none

/-- A reference in an answer is resolved as if it were one of the text. -/
theorem simultaneous_answered : ¬Simultaneous answered "got \x7b\x7bfetch.body\x7d\x7d".toList := by
  intro simultaneous
  exact absurd simultaneous.equal (by decide +kernel)

end WolfFlow
