import Mathlib.Data.List.Infix
import Mathlib.Data.List.TakeWhile

/-! Where a text is first found within another, and when it cannot be found in a part of
it, whatever follows that part. -/

namespace Text

variable {α : Type} {needle front back text more word : List α}

/-- Nothing that is looked for begins in a text, not even where the text goes on. -/
def Clear (needle text : List α) : Prop := ∀ rest ∈ text.tails, rest = [] ∨ ¬needle <+: rest ∧ ¬rest <+: needle

theorem Clear.tail {c : α} (clear : Clear needle (c :: text)) : Clear needle text := by
  intro rest member
  exact clear rest (by rw [List.tails_cons]; exact List.mem_cons_of_mem _ member)

theorem clear_iff : Clear needle text ↔ ∀ front rest, text = front ++ rest → rest ≠ [] → ¬needle <+: rest ∧ ¬rest <+: needle := by
  constructor
  · intro clear front rest shape some_
    exact (clear rest ((List.mem_tails _ _).mpr ⟨front, shape.symm⟩)).resolve_left some_
  · intro clear rest member
    obtain ⟨front, shape⟩ := (List.mem_tails _ _).mp member
    by_cases empty : rest = []
    · exact .inl empty
    · exact .inr (clear front rest shape.symm empty)

theorem clear_of_first {c : α} (first : needle.head? = some c) (apart : c ∉ text) : Clear needle text := by
  obtain ⟨others, rfl⟩ := List.head?_eq_some_iff.mp first
  intro rest member
  cases rest with
  | nil => exact .inl rfl
  | cons d rest =>
    have inside : d ∈ text := ((List.mem_tails _ _).mp member).subset List.mem_cons_self
    have differs : c ≠ d := fun same => apart (same ▸ inside)
    refine .inr ⟨?_, ?_⟩
    · intro begins
      exact differs (List.cons_prefix_cons.mp begins).1
    · intro begins
      exact differs (List.cons_prefix_cons.mp begins).1.symm

theorem clear_barrier {z : α} (plain : z ∉ needle) (apart : ¬needle <:+: text) : Clear needle (text ++ [z]) := by
  rw [clear_iff]
  intro front rest shape some_
  obtain ⟨before, rfl⟩ : ∃ before, rest = before ++ [z] := by
    obtain empty | ⟨before, last, rfl⟩ := List.eq_nil_or_concat rest
    · exact absurd empty some_
    · rw [List.concat_eq_append, ← List.append_assoc] at shape
      exact ⟨before, by rw [List.concat_eq_append, (List.append_singleton_inj.mp shape).2]⟩
  refine ⟨fun begins => ?_, fun begins => plain (begins.subset (by simp))⟩
  rw [← List.append_assoc] at shape
  have whole : text = front ++ before := List.append_cancel_right shape
  apply apart
  rw [whole]
  refine List.IsInfix.trans ?_ (List.suffix_append front before).isInfix
  obtain same | within := List.prefix_concat_iff.mp begins
  · exact absurd (same ▸ List.mem_append_right before List.mem_cons_self) plain
  · exact within.isInfix

/-- What follows something that ends with a mark holds no beginning of what is looked for,
if neither the mark nor an end of it is in what is looked for. -/
theorem clear_mark {mark : List α} (apart : ¬needle <:+: text ++ mark) (inside : ¬mark <:+: needle)
    (loose : ∀ rest ∈ mark.tails, rest = [] ∨ ¬rest <+: needle) : Clear needle (text ++ mark) := by
  rw [clear_iff]
  intro front rest shape some_
  refine ⟨fun begins => apart (shape ▸ begins.isInfix.trans (List.suffix_append front rest).isInfix), fun begins => ?_⟩
  obtain ⟨later, -, same⟩ | ⟨later, -, same⟩ := List.append_eq_append_iff.mp shape
  · exact ((loose rest ((List.mem_tails _ _).mpr ⟨later, same.symm⟩)).resolve_left some_) begins
  · exact inside ((same ▸ List.suffix_append later mark).isInfix.trans begins.isInfix)

theorem infix_front {z : α} (init : List α) (ends : needle = init ++ [z]) (plain : z ∉ back) (inside : needle <:+: front ++ back) :
    needle <:+: front := by
  induction back using List.reverseRecOn with
  | nil => rwa [List.append_nil] at inside
  | append_singleton back last ih =>
    rw [← List.append_assoc, List.infix_concat_iff] at inside
    obtain suffix | within := inside
    · obtain empty | ⟨before, same, -⟩ := List.suffix_concat_iff.mp suffix
      · rw [ends] at empty
        simp at empty
      · rw [ends] at same
        exact absurd (by rw [(List.append_singleton_inj.mp same).2]; simp) plain
    · exact ih (fun member => plain (List.mem_append_left _ member)) within

variable [DecidableEq α]

instance (needle text : List α) : Decidable (Clear needle text) :=
  inferInstanceAs (Decidable (∀ rest ∈ text.tails, rest = [] ∨ ¬needle <+: rest ∧ ¬rest <+: needle))

theorem beyond_first {z : α} {left right lefts rights : List α} (plain : z ∉ left) (clean : z ∉ right)
    (same : left ++ z :: lefts = right ++ z :: rights) : lefts = rights := by
  have dropped : ∀ (others : List α) (rest : List α), z ∉ others → (others ++ z :: rest).dropWhile (· ≠ z) = z :: rest := by
    intro others rest apart
    have passes : ∀ x ∈ others, decide (x ≠ z) = true := fun x member => decide_eq_true fun equal => apart (equal ▸ member)
    rw [List.dropWhile_append_of_pos passes]
    exact List.dropWhile_cons_of_neg (by simp)
  have rest := congrArg (List.dropWhile (· ≠ z)) same
  rw [dropped _ _ plain, dropped _ _ clean] at rest
  exact (List.cons.inj rest).2

theorem clear_word {z : α} (head tail : List α) (shape : needle = head ++ z :: tail) (first : z ∉ head) (plain : z ∉ word)
    (apart : ¬more <+: tail ∧ ¬tail <+: more) (clear : Clear needle (z :: more)) : Clear needle (word ++ z :: more) := by
  have aligned : ∀ left right lefts rights : List α, z ∉ left → z ∉ right → left ++ z :: lefts <+: right ++ z :: rights →
      lefts <+: rights := by
    rintro left right lefts rights outside apart ⟨beyond, same⟩
    rw [List.append_assoc, List.cons_append] at same
    exact ⟨beyond, beyond_first outside apart same⟩
  rw [clear_iff] at clear ⊢
  intro front rest cut some_
  obtain ⟨later, -, same⟩ | ⟨later, rfl, rfl⟩ := List.append_eq_append_iff.mp cut
  · exact clear later rest same some_
  · have outside : z ∉ later := fun member => plain (List.mem_append_right _ member)
    rw [shape]
    exact ⟨fun begins => apart.2 (aligned _ _ _ _ first outside begins), fun begins => apart.1 (aligned _ _ _ _ outside first begins)⟩

/-- What stands before and after the first place of a text within another. -/
def splitAround (needle : List α) : List α → Option (List α × List α)
  | [] => if needle = [] then some ([], []) else none
  | c :: rest =>
    if needle <+: c :: rest then some ([], (c :: rest).drop needle.length)
    else (splitAround needle rest).map fun parts => (c :: parts.1, parts.2)

theorem splitAround_begins (rest : List α) (shown : needle ≠ []) : splitAround needle (needle ++ rest) = some ([], rest) := by
  obtain ⟨c, others, rfl⟩ := List.exists_cons_of_ne_nil shown
  rw [List.cons_append, splitAround, if_pos ⟨rest, rfl⟩, ← List.cons_append, List.drop_left]

theorem splitAround_shape (found : splitAround needle text = some (front, back)) : text = front ++ needle ++ back := by
  induction text generalizing front with
  | nil =>
    rw [splitAround] at found
    split at found
    next empty =>
      cases found
      rw [empty]
      rfl
    next => cases found
  | cons c rest ih =>
    rw [splitAround] at found
    split at found
    next begins =>
      obtain ⟨after, same⟩ := begins
      cases found
      rw [← same, List.drop_left]
      rfl
    next =>
      obtain ⟨parts, later, same⟩ := Option.map_eq_some_iff.mp found
      cases same
      rw [ih later]
      rfl

theorem splitAround_none_iff : splitAround needle text = none ↔ ¬needle <:+: text := by
  induction text with
  | nil => simp [splitAround]
  | cons c rest ih =>
    rw [splitAround, List.infix_cons_iff]
    split
    next begins => simp [begins]
    next elsewhere => simp [elsewhere, ih]

theorem splitAround_append (found : splitAround needle text = some (front, back)) (more : List α) :
    splitAround needle (text ++ more) = some (front, back ++ more) := by
  induction text generalizing front with
  | nil =>
    rw [splitAround] at found
    split at found
    next empty =>
      cases found
      subst empty
      cases more <;> simp [splitAround]
    next => cases found
  | cons c rest ih =>
    have shape := splitAround_shape found
    rw [splitAround] at found
    rw [List.cons_append, splitAround]
    split at found
    next begins =>
      have length := begins.length_le
      cases found
      have further : needle <+: c :: (rest ++ more) := begins.trans (List.prefix_append _ more)
      rw [if_pos further, ← List.cons_append, List.drop_append_of_le_length length]
    next elsewhere =>
      obtain ⟨parts, later, same⟩ := Option.map_eq_some_iff.mp found
      cases same
      -- the text fits in what is there, so nothing that follows makes it begin earlier
      have fits : needle.length ≤ (c :: rest).length := by
        rw [shape]
        simp only [List.length_append, List.length_cons]
        omega
      have still : ¬needle <+: c :: (rest ++ more) := fun begins =>
        elsewhere (List.prefix_of_prefix_length_le begins (List.prefix_append (c :: rest) more) fits)
      rw [if_neg still, ih later, Option.map_some]

theorem Clear.split (clear : Clear needle front) (rest : List α) :
    splitAround needle (front ++ rest) = (splitAround needle rest).map fun parts => (front ++ parts.1, parts.2) := by
  induction front with
  | nil => simp
  | cons c front ih =>
    have apart : ¬needle <+: c :: (front ++ rest) := by
      intro begins
      obtain empty | ⟨first, second⟩ := clear (c :: front) (by simp)
      · cases empty
      · obtain early | late := List.prefix_or_prefix_of_prefix begins (List.prefix_append (c :: front) rest)
        · exact first early
        · exact second late
    rw [List.cons_append, splitAround, if_neg apart, ih clear.tail, Option.map_map]
    rfl

theorem Clear.found (clear : Clear needle front) (shown : needle ≠ []) (rest : List α) :
    splitAround needle (front ++ (needle ++ rest)) = some (front, rest) := by
  rw [clear.split, splitAround_begins rest shown, Option.map_some, List.append_nil]

theorem Clear.absent (clear : Clear needle front) (apart : splitAround needle text = none) : splitAround needle (front ++ text) = none := by
  rw [clear.split, apart]
  rfl

end Text
