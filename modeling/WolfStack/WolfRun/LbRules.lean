import WolfStack.Effects.Numbered
import WolfStack.Router.Lines

/-! How the rules of one VIP are taken out of the nat table: by the numbers that a listing gives
them. The VIP's route and interface address are left out. -/

namespace WolfRun
open Router

/-- A rule as a listing shows it, in one line: what is before its comment, and what is after it. -/
structure NatRule where
  front : List Char
  comment : Option (List Char)
  back : List Char
  line : Unbroken (front ++ (comment.elim [] fun c => "/* ".toList ++ c ++ " */".toList) ++ back)

def NatRule.shown (r : NatRule) : List Char := r.front ++ (r.comment.elim [] fun c => "/* ".toList ++ c ++ " */".toList) ++ r.back

inductive Policy where
  | accept
  | drop
deriving DecidableEq, Repr

def Policy.name : Policy → String
  | accept => "ACCEPT"
  | drop => "DROP"

/-- The kernel counts rules in 32 bits. -/
structure NatRules where
  policy : Policy
  rules : List NatRule
  counted : rules.length < 4294967296

inductive NatChain where
  | prerouting
  | postrouting
  | output
  | other (name : String)
deriving DecidableEq, Repr

def NatChain.name : NatChain → String
  | prerouting => "PREROUTING"
  | postrouting => "POSTROUTING"
  | output => "OUTPUT"
  | other name => name

abbrev NatTable := NatChain → NatRules

/-- `-L <chain> --line-numbers -n`. -/
def header (chain : NatChain) (rules : NatRules) : List (List Char) :=
  ["Chain ".toList ++ chain.name.toList ++ " (policy ".toList ++ rules.policy.name.toList ++ [')'],
    "num  target     prot opt source               destination         ".toList]

def ruleLine (r : NatRule) (num : Nat) : List Char :=
  Nat.toDigits 10 num ++ List.replicate (4 - (Nat.toDigits 10 num).length) ' ' ++ ' ' :: r.shown

def listing (chain : NatChain) (rules : NatRules) : List Char :=
  linesText (header chain rules ++ (rules.rules.zipIdx 1).map fun (r, num) => ruleLine r num)

/-- `-D <chain> <num>`. -/
def NatRules.delete (rules : NatRules) (num : Nat) : NatRules where
  policy := rules.policy
  rules := Numbered.erase rules.rules num
  counted := by
    unfold Numbered.erase
    split
    · exact rules.counted
    · exact Nat.lt_of_le_of_lt (List.length_eraseIdx_le _ _) rules.counted

def lbComment (vip : String) : List Char := ("wolfrun-lb-" ++ vip).toList

def taggedNumbers (comment text : List Char) : List Nat :=
  (((lines text).filter fun line => decide (comment <:+: line)).filterMap fun line => (splitWhitespace line).head?).filterMap parseU32

def removeFromChain (vip : String) (table : NatTable) (chain : NatChain) : NatTable :=
  let nums := taggedNumbers (lbComment vip) (listing chain (table chain))
  Function.update table chain ((nums.mergeSort fun a b => decide (a ≤ b)).reverse.foldl NatRules.delete (table chain))

/-- The chains that rules are taken out of. -/
def swept : List NatChain := [.prerouting, .postrouting, .output]

def removeLbRulesForVip (vip : String) (table : NatTable) : NatTable :=
  swept.foldl (removeFromChain vip) table

/-- The rules with this comment go, and the others stay in their order. -/
def RemovesExactly (vip : String) (table : NatTable) : Prop :=
  ∀ chain, (removeLbRulesForVip vip table chain).rules =
    if chain ∈ swept then (table chain).rules.filter fun r => r.comment ≠ some (lbComment vip)
    else (table chain).rules

variable {vip : String} {table : NatTable} {chain : NatChain} {rules : NatRules} {r : NatRule} {num : Nat} {comment : List Char}

theorem NatRule.comment_shown (same : r.comment = some comment) : comment <:+: r.shown := by
  refine ⟨r.front ++ "/* ".toList, " */".toList ++ r.back, ?_⟩
  rw [NatRule.shown, same]
  simp

theorem infix_beyond {c : Char} {lead part rest : List Char} (absent : c ∉ lead) : c :: part <:+: lead ++ rest ↔ c :: part <:+: rest := by
  induction lead with
  | nil => rfl
  | cons x lead ih =>
    rw [List.cons_append, List.infix_cons_iff, ih fun member => absent (List.mem_cons_of_mem _ member)]
    refine or_iff_right fun front => absent ?_
    obtain ⟨tail, same⟩ := front
    rw [(List.cons.inj same).1]
    exact List.mem_cons_self

theorem ruleLine_contains : lbComment vip <:+: ruleLine r num ↔ lbComment vip <:+: r.shown := by
  have begins : lbComment vip = 'w' :: ("olfrun-lb-" ++ vip).toList := by
    simp [lbComment]
  have absent : 'w' ∉ Nat.toDigits 10 num ++ List.replicate (4 - (Nat.toDigits 10 num).length) ' ' ++ [' '] := by
    intro member
    rcases List.mem_append.mp member with front | blank
    · rcases List.mem_append.mp front with digit | blank
      · exact absurd (Nat.isDigit_of_mem_toDigits (by decide) (by decide) digit) (by decide)
      · exact absurd (List.eq_of_mem_replicate blank) (by decide)
    · exact absurd (List.mem_singleton.mp blank) (by decide)
  have shape : ruleLine r num = (Nat.toDigits 10 num ++ List.replicate (4 - (Nat.toDigits 10 num).length) ' ' ++ [' ']) ++ r.shown := by
    simp [ruleLine]
  rw [begins, shape, infix_beyond absent]

theorem ruleLine_number (small : num < 4294967296) : (splitWhitespace (ruleLine r num)).head?.bind parseU32 = some num := by
  have dark : ∀ c ∈ Nat.toDigits 10 num, Auth.isWhitespace c = false := fun c member =>
    Auth.digit_dark (Nat.isDigit_of_mem_toDigits (by decide) (by decide) member)
  obtain ⟨rest, shape⟩ : ∃ rest, ruleLine r num = Nat.toDigits 10 num ++ ' ' :: rest := by
    rw [ruleLine, List.append_assoc]
    cases 4 - (Nat.toDigits 10 num).length with
    | zero => exact ⟨_, rfl⟩
    | succ blanks => exact ⟨_, rfl⟩
  rw [shape, splitWhitespace_head Nat.toDigits_ne_nil dark]
  exact parseU32_toDigits small

theorem ruleLine_unbroken : Unbroken (ruleLine r num) := by
  have lead : ∀ c ∈ Nat.toDigits 10 num ++ List.replicate (4 - (Nat.toDigits 10 num).length) ' ', c.isDigit = true ∨ c = ' ' := by
    intro c member
    rcases List.mem_append.mp member with digit | blank
    · exact .inl (Nat.isDigit_of_mem_toDigits (by decide) (by decide) digit)
    · exact .inr (List.eq_of_mem_replicate blank)
  constructor <;> intro member <;> rcases List.mem_append.mp member with front | behind
  · exact absurd (lead _ front) (by decide)
  · exact r.line.1 ((List.mem_cons.mp behind).resolve_left (by decide))
  · exact absurd (lead _ front) (by decide)
  · exact r.line.2 ((List.mem_cons.mp behind).resolve_left (by decide))

theorem header_unbroken (member : chain ∈ swept) : ∀ line ∈ header chain rules, Unbroken line := by
  unfold header
  simp only [swept, List.mem_cons, List.not_mem_nil, or_false] at member
  obtain rfl | rfl | rfl := member <;> cases rules.policy <;> decide

theorem header_number (member : chain ∈ swept) : ∀ line ∈ header chain rules, (splitWhitespace line).head?.bind parseU32 = none := by
  unfold header
  simp only [swept, List.mem_cons, List.not_mem_nil, or_false] at member
  obtain rfl | rfl | rfl := member <;> cases rules.policy <;> decide

theorem taggedNumbers_eq (comment text : List Char) : taggedNumbers comment text =
    (lines text).filterMap fun line => if comment <:+: line then (splitWhitespace line).head?.bind parseU32 else none := by
  rw [taggedNumbers, List.filterMap_filterMap, List.filterMap_filter]
  simp only [decide_eq_true_eq]

theorem taggedNumbers_listing (member : chain ∈ swept) :
    taggedNumbers (lbComment vip) (listing chain rules) = Numbered.numbers (fun r => decide (lbComment vip <:+: r.shown)) rules.rules := by
  have whole : ∀ line ∈ header chain rules ++ (rules.rules.zipIdx 1).map fun (r, num) => ruleLine r num, Unbroken line := by
    intro line inside
    rcases List.mem_append.mp inside with top | rule
    · exact header_unbroken member line top
    · obtain ⟨⟨r, num⟩, -, rfl⟩ := List.mem_map.mp rule
      exact ruleLine_unbroken
  rw [taggedNumbers_eq, listing, lines_linesText whole, List.filterMap_append, List.filterMap_map, Numbered.numbers]
  have top : (header chain rules).filterMap (fun line => if lbComment vip <:+: line then (splitWhitespace line).head?.bind parseU32 else none) = [] := by
    apply List.filterMap_eq_nil_iff.mpr
    intro line inside
    rw [header_number member line inside, ite_self]
  rw [top, List.nil_append]
  apply List.filterMap_congr
  rintro ⟨r, num⟩ inside
  have small : num < 4294967296 := by
    have bound := List.snd_lt_of_mem_zipIdx inside
    have counted := rules.counted
    omega
  dsimp only [Function.comp]
  rw [ruleLine_number small, if_congr (ruleLine_contains) rfl rfl]
  simp only [decide_eq_true_eq]

theorem removeFromChain_same (member : chain ∈ swept) : (removeFromChain vip table chain chain).rules =
    (table chain).rules.filter fun r => !decide (lbComment vip <:+: r.shown) := by
  have sorted : (Numbered.numbers (fun r => decide (lbComment vip <:+: r.shown)) (table chain).rules).mergeSort (fun a b => decide (a ≤ b)) =
      Numbered.numbers (fun r => decide (lbComment vip <:+: r.shown)) (table chain).rules :=
    List.mergeSort_of_pairwise (Numbered.numbers_sorted.imp fun less => decide_eq_true (Nat.le_of_lt less))
  have deletes : ∀ (nums : List Nat) (rules : NatRules), (nums.foldl NatRules.delete rules).rules = nums.foldl Numbered.erase rules.rules := by
    intro nums
    induction nums with
    | nil => exact fun rules => rfl
    | cons num nums ih => exact fun rules => ih (rules.delete num)
  rw [removeFromChain, Function.update_self, taggedNumbers_listing member, sorted, deletes, Numbered.erase_numbers]

theorem removeFromChain_other {other : NatChain} (apart : other ≠ chain) : removeFromChain vip table chain other = table other :=
  Function.update_of_ne apart _ _

theorem removeLbRulesForVip_rules (vip : String) (table : NatTable) (chain : NatChain) : (removeLbRulesForVip vip table chain).rules =
    if chain ∈ swept then (table chain).rules.filter fun r => !decide (lbComment vip <:+: r.shown) else (table chain).rules := by
  unfold removeLbRulesForVip swept
  simp only [List.foldl_cons, List.foldl_nil]
  cases chain with
  | prerouting =>
    rw [removeFromChain_other (by decide), removeFromChain_other (by decide), removeFromChain_same (by decide)]
    rfl
  | postrouting =>
    rw [removeFromChain_other (by decide), removeFromChain_same (by decide), removeFromChain_other (by decide)]
    rfl
  | output =>
    rw [removeFromChain_same (by decide), removeFromChain_other (by decide), removeFromChain_other (by decide)]
    rfl
  | other name =>
    rw [removeFromChain_other (by simp), removeFromChain_other (by simp), removeFromChain_other (by simp), if_neg (by simp)]

theorem RemovesExactly.own (removes : RemovesExactly vip table) (member : chain ∈ swept) (present : r ∈ (table chain).rules)
    (shows : lbComment vip <:+: r.shown) : r.comment = some (lbComment vip) := by
  by_contra other
  have same := removes chain
  rw [removeLbRulesForVip_rules, if_pos member, if_pos member] at same
  have stays : r ∈ (table chain).rules.filter fun r => decide (r.comment ≠ some (lbComment vip)) :=
    List.mem_filter.mpr ⟨present, decide_eq_true other⟩
  rw [← same] at stays
  have hidden := (List.mem_filter.mp stays).2
  rw [decide_eq_true shows] at hidden
  cases hidden

/-- Exactly the VIP's own rules go exactly where no other rule shows its comment, as the comment
of a VIP that this one begins does. -/
theorem removesExactly_iff (vip : String) (table : NatTable) : RemovesExactly vip table ↔
    ∀ chain ∈ swept, ∀ r ∈ (table chain).rules, lbComment vip <:+: r.shown → r.comment = some (lbComment vip) := by
  constructor
  · exact fun removes chain member r present shows => removes.own member present shows
  · intro only chain
    rw [removeLbRulesForVip_rules]
    split
    · rename_i member
      apply List.filter_congr
      intro r present
      rw [← decide_not, decide_eq_decide]
      exact not_congr ⟨only chain member r present, NatRule.comment_shown⟩
    · rfl

def backendRule (vip : String) (line : Unbroken ("DNAT 6 -- 0.0.0.0/0 10.10.10.50 ".toList ++ "/* ".toList ++ lbComment vip ++ " */".toList ++ " to:10.10.10.101".toList)) : NatRule where
  front := "DNAT 6 -- 0.0.0.0/0 10.10.10.50 ".toList
  comment := some (lbComment vip)
  back := " to:10.10.10.101".toList
  line := by simpa using line

/-- The rules of 10.10.10.50 go with those of 10.10.10.5. -/
theorem removesExactly_longer : ¬RemovesExactly "10.10.10.5" fun _ => ⟨.accept, [backendRule "10.10.10.50" (by decide)], by decide⟩ := by
  intro removes
  have own := removes.own (by decide : NatChain.prerouting ∈ swept) List.mem_cons_self (by decide +kernel)
  exact absurd own (by decide)

end WolfRun
