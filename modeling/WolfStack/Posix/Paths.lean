import Mathlib.Data.List.Basic

/-! Trees of files in which a name may be a symbolic link: where a path leads, and which entry
an operation works on that does not follow the last link, as in path_resolution(7). -/

universe u

namespace Posix

abbrev Name := List Char

abbrev Location := List Name

inductive Node (α : Type u) where
  | file (content : α)
  | dir
  | link (target : List Char)
  | other
deriving DecidableEq

abbrev Tree (α : Type u) := Location → Option (Node α)

def components (path : List Char) : List Name := path.splitOn '/'

/-- How many links a path may pass through. -/
def maxLinks : Nat := 40

def Proper (name : Name) : Prop := name ≠ [] ∧ name ≠ ['.'] ∧ name ≠ ['.', '.']

namespace Tree
variable {α : Type u} (tree : Tree α)

/-- One pass over components; `expand` goes on after a link. The last component is followed
only if `follow` says so. -/
def pass (follow : Bool) (expand : Location → List Name → Option Location) : Location → List Name → Option Location
  | here, [] => some here
  | here, name :: rest =>
    if name = [] ∨ name = ['.'] then pass follow expand here rest
    else if name = ['.', '.'] then pass follow expand here.dropLast rest
    else
      match tree (here ++ [name]) with
      | some .dir => pass follow expand (here ++ [name]) rest
      | some (.link target) =>
        if rest = [] ∧ follow = false then some (here ++ [name])
        else expand (if target.head? = some '/' then [] else here) (components target ++ rest)
      | _ => if rest = [] then some (here ++ [name]) else none

def walk (follow : Bool) : Nat → Location → List Name → Option Location
  | 0 => tree.pass follow fun _ _ => none
  | links + 1 => tree.pass follow (walk follow links)

/-- Where a path leads, links followed. There may be nothing yet. -/
def leadsTo (path : List Char) : Option Location := tree.walk true maxLinks [] (components path)

def entry (path : List Char) : Option Location := tree.walk false maxLinks [] (components path)

def directory (path : List Char) : Option Location :=
  tree.walk true maxLinks [] ((components path).dropLast ++ [['.']])

variable {tree} {front : List Name} {name : Name} {here : Location}

theorem pass_proper (proper : Proper name) (follow : Bool) (expand : Location → List Name → Option Location) (rest : List Name) :
    tree.pass follow expand here (name :: rest) =
      match tree (here ++ [name]) with
      | some .dir => tree.pass follow expand (here ++ [name]) rest
      | some (.link target) =>
        if rest = [] ∧ follow = false then some (here ++ [name])
        else expand (if target.head? = some '/' then [] else here) (components target ++ rest)
      | _ => if rest = [] then some (here ++ [name]) else none := by
  rw [pass, if_neg (not_or.mpr ⟨proper.1, proper.2.1⟩), if_neg proper.2.2]

theorem pass_entry {expand follows : Location → List Name → Option Location} (proper : Proper name)
    (each : ∀ base front, expand base (front ++ [name]) = (follows base (front ++ [['.']])).map (· ++ [name])) :
    tree.pass false expand here (front ++ [name]) = (tree.pass true follows here (front ++ [['.']])).map (· ++ [name]) := by
  induction front generalizing here with
  | nil =>
    rw [List.nil_append, List.nil_append, pass_proper proper]
    have stays : tree.pass true follows here [['.']] = some here := rfl
    rw [stays]
    cases tree (here ++ [name]) with
    | none => rfl
    | some node => cases node <;> rfl
  | cons c front ih =>
    rw [List.cons_append, List.cons_append, pass, pass]
    by_cases skipped : c = [] ∨ c = ['.']
    · rw [if_pos skipped, if_pos skipped, ih]
    · rw [if_neg skipped, if_neg skipped]
      by_cases back : c = ['.', '.']
      · rw [if_pos back, if_pos back, ih]
      · rw [if_neg back, if_neg back]
        cases tree (here ++ [c]) with
        | none => simp
        | some node =>
          cases node with
          | dir => exact ih
          | link target =>
            dsimp only
            rw [if_neg (show ¬(front ++ [name] = [] ∧ false = false) by simp),
              if_neg (show ¬(front ++ [['.']] = [] ∧ true = false) by simp), ← List.append_assoc, each, List.append_assoc]
          | file content => simp
          | other => simp

theorem walk_entry (proper : Proper name) (links : Nat) (here : Location) (front : List Name) :
    tree.walk false links here (front ++ [name]) = (tree.walk true links here (front ++ [['.']])).map (· ++ [name]) := by
  induction links generalizing here front with
  | zero => exact pass_entry proper fun _ _ => rfl
  | succ links ih => exact pass_entry proper ih

theorem pass_leads {expand : Location → List Name → Option Location} (proper : Proper name)
    (each : ∀ base front, match expand base (front ++ [['.']]) with
      | none => expand base (front ++ [name]) = none
      | some dir => (∀ target, tree (dir ++ [name]) ≠ some (.link target)) →
          expand base (front ++ [name]) = some (dir ++ [name])) :
    match tree.pass true expand here (front ++ [['.']]) with
    | none => tree.pass true expand here (front ++ [name]) = none
    | some dir => (∀ target, tree (dir ++ [name]) ≠ some (.link target)) →
        tree.pass true expand here (front ++ [name]) = some (dir ++ [name]) := by
  induction front generalizing here with
  | nil =>
    have stays : tree.pass true expand here ([] ++ [['.']]) = some here := rfl
    rw [stays]
    intro plain
    rw [List.nil_append, pass_proper proper]
    cases held : tree (here ++ [name]) with
    | none => rfl
    | some node =>
      cases node with
      | link target => exact absurd held (plain target)
      | dir => rfl
      | file content => rfl
      | other => rfl
  | cons c front ih =>
    rw [List.cons_append, List.cons_append, pass, pass]
    by_cases skipped : c = [] ∨ c = ['.']
    · rw [if_pos skipped, if_pos skipped]
      exact ih
    · rw [if_neg skipped, if_neg skipped]
      by_cases back : c = ['.', '.']
      · rw [if_pos back, if_pos back]
        exact ih
      · rw [if_neg back, if_neg back]
        cases tree (here ++ [c]) with
        | none => simp
        | some node =>
          cases node with
          | dir => exact ih
          | link target =>
            dsimp only
            rw [if_neg (show ¬(front ++ [name] = [] ∧ true = false) by simp),
              if_neg (show ¬(front ++ [['.']] = [] ∧ true = false) by simp), ← List.append_assoc, ← List.append_assoc]
            exact each _ _
          | file content => simp
          | other => simp

variable (tree) in
theorem walk_leads (proper : Proper name) (links : Nat) (here : Location) (front : List Name) :
    match tree.walk true links here (front ++ [['.']]) with
    | none => tree.walk true links here (front ++ [name]) = none
    | some dir => (∀ target, tree (dir ++ [name]) ≠ some (.link target)) →
        tree.walk true links here (front ++ [name]) = some (dir ++ [name]) := by
  induction links generalizing here front with
  | zero => exact pass_leads proper fun _ _ => rfl
  | succ links ih => exact pass_leads proper ih

def Plain : Option (Node α) → Prop
  | some .dir | some (.link _) => False
  | _ => True

def Alike (tree other : Tree α) : Prop := ∀ place, tree place = other place ∨ Plain (tree place) ∧ Plain (other place)

variable {other : Tree α}

theorem pass_alike {expand expand' : Location → List Name → Option Location} (alike : Alike tree other) (follow : Bool)
    (same : ∀ base comps, expand base comps = expand' base comps) (here : Location) (comps : List Name) :
    tree.pass follow expand here comps = other.pass follow expand' here comps := by
  induction comps generalizing here with
  | nil => rfl
  | cons c rest ih =>
    rw [pass, pass]
    simp only [ih, same]
    by_cases skipped : c = [] ∨ c = ['.']
    · rw [if_pos skipped, if_pos skipped]
    · rw [if_neg skipped, if_neg skipped]
      by_cases back : c = ['.', '.']
      · rw [if_pos back, if_pos back]
      · rw [if_neg back, if_neg back]
        rcases alike (here ++ [c]) with equal | ⟨plain, plain'⟩
        · rw [equal]
        · unfold Plain at plain plain'
          split at plain <;> split at plain' <;> simp_all

theorem walk_alike (alike : Alike tree other) (follow : Bool) (links : Nat) (here : Location) (comps : List Name) :
    tree.walk follow links here comps = other.walk follow links here comps := by
  induction links generalizing here comps with
  | zero => exact pass_alike alike follow (fun _ _ => rfl) here comps
  | succ links ih => exact pass_alike alike follow ih here comps

theorem Alike.trans {third : Tree α} (left : Alike tree other) (right : Alike other third) : Alike tree third := by
  intro place
  rcases left place with same | ⟨plain, _⟩
  · rw [same]
    exact right place
  · rcases right place with same | ⟨_, plain'⟩
    · rw [← same]
      exact left place
    · exact .inr ⟨plain, plain'⟩

theorem alike_update {place : Location} {node : Option (Node α)} (before : Plain (tree place)) (after : Plain node) :
    Alike tree (Function.update tree place node) := by
  intro spot
  by_cases here : spot = place
  · subst here
    rw [Function.update_self]
    exact .inr ⟨before, after⟩
  · rw [Function.update_of_ne here]
    exact .inl rfl

section
variable {path : List Char}

theorem components_below (base rel : List Char) : components (base ++ '/' :: rel) = components base ++ components rel :=
  List.splitOn_append_cons_self _ _

theorem components_suffix {suffix : List Char} (flat : '/' ∉ suffix) (path : List Char) :
    ∃ front name, components path = front ++ [name] ∧ components (path ++ suffix) = front ++ [name ++ suffix] := by
  unfold components
  induction path with
  | nil => exact ⟨[], [], by simp, by simp [List.splitOn_eq_singleton flat]⟩
  | cons c path ih =>
    obtain ⟨front, name, whole, longer⟩ := ih
    rw [List.cons_append, List.splitOn_cons_eq_if_modifyHead, List.splitOn_cons_eq_if_modifyHead, whole, longer]
    split
    · exact ⟨[] :: front, name, rfl, rfl⟩
    · cases front with
      | nil => exact ⟨[], c :: name, rfl, rfl⟩
      | cons first front => exact ⟨(c :: first) :: front, name, rfl, rfl⟩

variable (tree) in
theorem entry_eq (named : components path = front ++ [name]) (proper : Proper name) :
    tree.entry path = (tree.directory path).map (· ++ [name]) := by
  unfold entry directory
  rw [named, List.dropLast_concat]
  exact walk_entry proper maxLinks [] front

theorem leadsTo_eq {dir : Location} (named : components path = front ++ [name]) (proper : Proper name)
    (inside : tree.directory path = some dir) (plain : ∀ target, tree (dir ++ [name]) ≠ some (.link target)) :
    tree.leadsTo path = some (dir ++ [name]) := by
  unfold directory at inside
  rw [named, List.dropLast_concat] at inside
  have leads := walk_leads tree proper maxLinks [] front
  rw [inside] at leads
  unfold leadsTo
  rw [named]
  exact leads plain

theorem directory_alike (alike : Alike tree other) (path : List Char) : tree.directory path = other.directory path :=
  walk_alike alike true maxLinks [] _

theorem directory_some {place : Location} (named : components path = front ++ [name]) (proper : Proper name)
    (leads : tree.leadsTo path = some place) : ∃ dir, tree.directory path = some dir := by
  cases inside : tree.directory path with
  | some dir => exact ⟨dir, rfl⟩
  | none =>
    unfold directory at inside
    rw [named, List.dropLast_concat] at inside
    have nowhere := walk_leads tree proper maxLinks [] front
    rw [inside] at nowhere
    unfold leadsTo at leads
    rw [named] at leads
    exact absurd (leads.symm.trans nowhere) nofun

end

end Tree

/-- The directory itself is an entry of the one above it, and not below. -/
def Below (root place : Location) : Prop := root <+: place ∧ root ≠ place

instance (root place : Location) : Decidable (Below root place) := inferInstanceAs (Decidable (_ ∧ _))

theorem below_entry {root dir : Location} {name : Name} : Below root (dir ++ [name]) ↔ root <+: dir := by
  unfold Below
  rw [List.prefix_concat_iff]
  constructor
  · intro ⟨either, apart⟩
    exact either.resolve_left apart
  · intro within
    refine ⟨.inr within, fun same => ?_⟩
    have short := within.length_le
    rw [same, List.length_append, List.length_singleton] at short
    omega

end Posix
