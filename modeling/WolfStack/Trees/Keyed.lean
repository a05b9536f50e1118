import Mathlib.Data.List.Basic
import Mathlib.Data.List.Nodup

/-! Documents of settings: trees, where the branches of a table have names. They are looked into by paths of
names, converted scalar by scalar, merged one over the other, and written to at a path. -/

open scoped List

inductive Doc (α : Type) where
  | scalar (a : α)
  | array (items : List (Doc α))
  | table (entries : List (String × Doc α))

namespace Doc
variable {α β : Type}

theorem induct {motive : Doc α → Prop} (scalar : ∀ a, motive (.scalar a)) (array : ∀ items, (∀ t ∈ items, motive t) → motive (.array items))
    (table : ∀ entries, (∀ entry ∈ entries, motive entry.2) → motive (.table entries)) (t : Doc α) : motive t := by
  refine Doc.rec (motive_1 := motive) (motive_2 := fun items => ∀ t ∈ items, motive t)
    (motive_3 := fun entries => ∀ entry ∈ entries, motive entry.2) (motive_4 := fun entry => motive entry.2)
    scalar (fun items held => array items held) (fun entries held => table entries held) ?_ ?_ ?_ ?_ ?_ t
  · exact fun _ member => (nomatch member)
  · exact fun head tail first rest => List.forall_mem_cons.mpr ⟨first, rest⟩
  · exact fun _ member => (nomatch member)
  · exact fun head tail first rest => List.forall_mem_cons.mpr ⟨first, rest⟩
  · exact fun _ child held => held

def isTable : Doc α → Bool
  | .table _ => true
  | _ => false

mutual

def map (f : α → β) : Doc α → Doc β
  | .scalar a => .scalar (f a)
  | .array items => .array (mapItems f items)
  | .table entries => .table (mapEntries f entries)

def mapItems (f : α → β) : List (Doc α) → List (Doc β)
  | [] => []
  | t :: rest => t.map f :: mapItems f rest

def mapEntries (f : α → β) : List (String × Doc α) → List (String × Doc β)
  | [] => []
  | (k, t) :: rest => (k, t.map f) :: mapEntries f rest

end

mutual

def sift (g : α → Option β) : Doc α → Option (Doc β)
  | .scalar a => (g a).map .scalar
  | .array items => some (.array (siftItems g items))
  | .table entries => some (.table (siftEntries g entries))

def siftItems (g : α → Option β) : List (Doc α) → List (Doc β)
  | [] => []
  | t :: rest =>
    match t.sift g with
    | none => siftItems g rest
    | some s => s :: siftItems g rest

def siftEntries (g : α → Option β) : List (String × Doc α) → List (String × Doc β)
  | [] => []
  | (k, t) :: rest =>
    match t.sift g with
    | none => siftEntries g rest
    | some s => (k, s) :: siftEntries g rest

end

mutual

def all (p : α → Bool) : Doc α → Bool
  | .scalar a => p a
  | .array items => allItems p items
  | .table entries => allEntries p entries

def allItems (p : α → Bool) : List (Doc α) → Bool
  | [] => true
  | t :: rest => t.all p && allItems p rest

def allEntries (p : α → Bool) : List (String × Doc α) → Bool
  | [] => true
  | (_, t) :: rest => t.all p && allEntries p rest

end

theorem mapItems_eq (f : α → β) (items : List (Doc α)) : mapItems f items = items.map (map f) := by
  induction items with
  | nil => rfl
  | cons t rest ih => rw [mapItems, ih, List.map_cons]

theorem mapEntries_eq (f : α → β) (entries : List (String × Doc α)) :
    mapEntries f entries = entries.map fun entry => (entry.1, entry.2.map f) := by
  induction entries with
  | nil => rfl
  | cons entry rest ih => rw [mapEntries, ih, List.map_cons]

theorem siftItems_eq (g : α → Option β) (items : List (Doc α)) : siftItems g items = items.filterMap (sift g) := by
  induction items with
  | nil => rfl
  | cons t rest ih =>
    rw [siftItems, List.filterMap_cons, ih]
    cases t.sift g <;> rfl

theorem siftEntries_eq (g : α → Option β) (entries : List (String × Doc α)) :
    siftEntries g entries = entries.filterMap fun entry => (entry.2.sift g).map fun s => (entry.1, s) := by
  induction entries with
  | nil => rfl
  | cons entry rest ih =>
    rw [siftEntries, List.filterMap_cons, ih]
    cases entry.2.sift g <;> rfl

theorem allItems_eq (p : α → Bool) (items : List (Doc α)) : allItems p items = items.all (all p) := by
  induction items with
  | nil => rfl
  | cons t rest ih => rw [allItems, ih, List.all_cons]

theorem allEntries_eq (p : α → Bool) (entries : List (String × Doc α)) : allEntries p entries = entries.all fun entry => entry.2.all p := by
  induction entries with
  | nil => rfl
  | cons entry rest ih => rw [allEntries, ih, List.all_cons]

theorem sift_map {f : α → β} {g : β → Option α} {p : α → Bool} (kept : ∀ a, g (f a) = some a ↔ p a = true) (t : Doc α) :
    (t.map f).sift g = some t ↔ t.all p = true := by
  induction t using induct with
  | scalar a => simp [map, sift, all, kept]
  | array items ih =>
    have back : (items.map (map f)).filterMap (sift g) = items.filterMap fun t => (t.map f).sift g := by rw [List.filterMap_map]; rfl
    have each := @List.filterMap_eq_map_iff_forall_eq_some _ _ (fun t => (t.map f).sift g) id items
    rw [List.map_id] at each
    simp only [map, sift, all, mapItems_eq, siftItems_eq, allItems_eq, Option.some.injEq, Doc.array.injEq, back, each, id, List.all_eq_true]
    exact ⟨fun held t member => (ih t member).mp (held t member), fun held t member => (ih t member).mpr (held t member)⟩
  | table entries ih =>
    have back : (entries.map fun entry => (entry.1, entry.2.map f)).filterMap (fun entry => (entry.2.sift g).map fun s => (entry.1, s)) =
        entries.filterMap fun entry => ((entry.2.map f).sift g).map fun s => (entry.1, s) := by rw [List.filterMap_map]; rfl
    have each := @List.filterMap_eq_map_iff_forall_eq_some _ _ (fun entry : String × Doc α => ((entry.2.map f).sift g).map fun s => (entry.1, s))
      id entries
    rw [List.map_id] at each
    simp only [map, sift, all, mapEntries_eq, siftEntries_eq, allEntries_eq, Option.some.injEq, Doc.table.injEq, back, each, id,
      List.all_eq_true]
    have one : ∀ entry : String × Doc α, (((entry.2.map f).sift g).map fun s => (entry.1, s)) = some entry ↔ (entry.2.map f).sift g = some entry.2 := by
      rintro ⟨k, t⟩
      cases (t.map f).sift g <;> simp
    simp only [one]
    exact ⟨fun held entry member => (ih entry member).mp (held entry member), fun held entry member => (ih entry member).mpr (held entry member)⟩

theorem isTable_map (f : α → β) (t : Doc α) : (t.map f).isTable = t.isTable := by cases t <;> rfl

theorem isTable_sift {g : α → Option β} {t : Doc α} {s : Doc β} (converted : t.sift g = some s) : s.isTable = t.isTable := by
  cases t with
  | scalar a =>
    obtain ⟨b, -, rfl⟩ := Option.map_eq_some_iff.mp converted
    rfl
  | array => cases converted; rfl
  | table => cases converted; rfl

theorem all_sift {g : α → Option β} {p : β → Bool} (kind : ∀ a b, g a = some b → p b = true) {t : Doc α} {s : Doc β} (converted : t.sift g = some s) :
    s.all p = true := by
  induction t using induct generalizing s with
  | scalar a =>
    obtain ⟨b, scalar, rfl⟩ := Option.map_eq_some_iff.mp converted
    exact kind a b scalar
  | array items ih =>
    cases converted
    rw [all, allItems_eq, siftItems_eq, List.all_eq_true]
    intro s member
    obtain ⟨t, among, converted⟩ := List.mem_filterMap.mp member
    exact ih t among converted
  | table entries ih =>
    cases converted
    rw [all, allEntries_eq, siftEntries_eq, List.all_eq_true]
    intro entry member
    obtain ⟨old, among, paired⟩ := List.mem_filterMap.mp member
    obtain ⟨s, converted, rfl⟩ := Option.map_eq_some_iff.mp paired
    exact ih old among converted

def isDead (dead : α → Bool) : Doc α → Bool
  | .scalar a => dead a
  | _ => false

mutual

def prune (dead : α → Bool) : Doc α → Doc α
  | .scalar a => .scalar a
  | .array items => .array (pruneItems dead items)
  | .table entries => .table (pruneEntries dead entries)

def pruneItems (dead : α → Bool) : List (Doc α) → List (Doc α)
  | [] => []
  | t :: rest => t.prune dead :: pruneItems dead rest

def pruneEntries (dead : α → Bool) : List (String × Doc α) → List (String × Doc α)
  | [] => []
  | (k, t) :: rest => if t.isDead dead = true then pruneEntries dead rest else (k, t.prune dead) :: pruneEntries dead rest

end

mutual

def fits (dead p : α → Bool) : Doc α → Bool
  | .scalar a => p a
  | .array items => fitsItems dead p items
  | .table entries => fitsEntries dead p entries

def fitsItems (dead p : α → Bool) : List (Doc α) → Bool
  | [] => true
  | t :: rest => t.fits dead p && fitsItems dead p rest

def fitsEntries (dead p : α → Bool) : List (String × Doc α) → Bool
  | [] => true
  | (_, t) :: rest => (t.isDead dead || t.fits dead p) && fitsEntries dead p rest

end

/-- What a conversion and the way back make of scalars: the dead ones get lost, others come back if they
are of a kind. -/
structure Converts (dead p : α → Bool) (g : α → Option β) (f : β → α) : Prop where
  gone : ∀ a, g a = none ↔ dead a = true
  kept : ∀ a b, g a = some b → (f b = a ↔ p a = true)
  lost : ∀ a, dead a = true → p a = false

theorem Converts.sift_none {dead p : α → Bool} {g : α → Option β} {f : β → α} (converts : Converts dead p g f) (t : Doc α) :
    t.sift g = none ↔ t.isDead dead = true := by
  cases t <;> simp [sift, isDead, converts.gone]

theorem map_sift {dead p : α → Bool} {g : α → Option β} {f : β → α} (converts : Converts dead p g f) (t : Doc α) :
    (t.sift g).map (map f) = some (t.prune dead) ↔ t.fits dead p = true := by
  induction t using induct with
  | scalar a =>
    cases converted : g a with
    | none => simp [sift, prune, fits, converted, converts.lost a ((converts.gone a).mp converted)]
    | some b => simp [sift, prune, fits, converted, map, converts.kept a b converted]
  | array items ih =>
    simp only [sift, prune, fits, Option.map_some, map, Option.some.injEq, Doc.array.injEq]
    induction items with
    | nil => simp [siftItems, mapItems, pruneItems, fitsItems]
    | cons t rest again =>
      obtain ⟨first, others⟩ := List.forall_mem_cons.mp ih
      rw [siftItems, pruneItems, fitsItems, Bool.and_eq_true, ← first, ← again others]
      cases converted : t.sift g with
      | some s => simp [mapItems]
      | none =>
        have fewer : (mapItems f (siftItems g rest)).length ≤ rest.length := by
          rw [mapItems_eq, siftItems_eq, List.length_map]
          exact List.length_filterMap_le _ _
        have pruned : ∀ items : List (Doc α), (pruneItems dead items).length = items.length := by
          intro items
          induction items with
          | nil => rfl
          | cons t rest ih => rw [pruneItems, List.length_cons, ih, List.length_cons]
        constructor
        · intro same
          have longer := congrArg List.length same
          rw [List.length_cons, pruned] at longer
          dsimp only at longer
          omega
        · exact fun impossible => (nomatch impossible.1)
  | table entries ih =>
    simp only [sift, prune, fits, Option.map_some, map, Option.some.injEq, Doc.table.injEq]
    induction entries with
    | nil => simp [siftEntries, mapEntries, pruneEntries, fitsEntries]
    | cons entry rest again =>
      obtain ⟨k, t⟩ := entry
      obtain ⟨first, others⟩ := List.forall_mem_cons.mp ih
      rw [siftEntries, pruneEntries, fitsEntries, Bool.and_eq_true, ← again others]
      cases converted : t.sift g with
      | none => simp [(converts.sift_none t).mp converted]
      | some s =>
        have live : t.isDead dead = false := by
          rw [← Bool.not_eq_true, ← converts.sift_none, converted]
          exact Option.some_ne_none s
        rw [converted] at first
        simp [live, mapEntries, ← first]

/-! ### Paths -/

def entries : Doc α → List (String × Doc α)
  | .table entries => entries
  | _ => []

def child (t : Doc α) (k : String) : Option (Doc α) := t.entries.lookup k

def look (t : Doc α) : List String → Option (Doc α)
  | [] => some t
  | k :: path => (t.child k).bind fun c => look c path

theorem look_append (t : Doc α) (path rest : List String) : t.look (path ++ rest) = (t.look path).bind fun c => c.look rest := by
  induction path generalizing t with
  | nil => rfl
  | cons k path ih =>
    simp only [List.cons_append, look]
    cases t.child k with
    | none => rfl
    | some c => exact ih c

theorem look_none {t : Doc α} (closed : t.isTable = false) (k : String) (path : List String) : t.look (k :: path) = none := by
  cases t with
  | scalar => rfl
  | array => rfl
  | table => cases closed

theorem child_map (f : α → β) (t : Doc α) (k : String) : (t.map f).child k = (t.child k).map (map f) := by
  cases t with
  | scalar => rfl
  | array => rfl
  | table items =>
    simp only [child, map, entries, mapEntries_eq]
    induction items with
    | nil => rfl
    | cons entry rest ih =>
      rw [List.map_cons, List.lookup_cons, List.lookup_cons, ih]
      split <;> rfl

theorem look_map (f : α → β) (t : Doc α) (path : List String) : (t.map f).look path = (t.look path).map (map f) := by
  induction path generalizing t with
  | nil => rfl
  | cons k path ih =>
    simp only [look, child_map]
    cases t.child k with
    | none => rfl
    | some c => exact ih c

def Distinct (t : Doc α) : Prop := ∀ path c, t.look path = some c → (c.entries.map fun entry => entry.1).Nodup

theorem Distinct.names {t : Doc α} (distinct : t.Distinct) : (t.entries.map fun entry => entry.1).Nodup := distinct [] t rfl

theorem Distinct.child {t c : Doc α} {k : String} (distinct : t.Distinct) (there : t.child k = some c) : c.Distinct := by
  intro path d found
  apply distinct (k :: path) d
  rw [look, there]
  exact found

theorem Distinct.look {t c : Doc α} {path : List String} (distinct : t.Distinct) (found : t.look path = some c) : c.Distinct := by
  intro rest d beneath
  apply distinct (path ++ rest) d
  rw [look_append, found]
  exact beneath

theorem distinct_of {t : Doc α} (names : (t.entries.map fun entry => entry.1).Nodup) (children : ∀ k c, t.child k = some c → c.Distinct) :
    t.Distinct := by
  intro path c found
  cases path with
  | nil =>
    cases found
    exact names
  | cons k path =>
    obtain ⟨d, there, found⟩ := Option.bind_eq_some_iff.mp found
    exact children k d there path c found

mutual

/-- `Distinct`, as it can be checked, and of tables in arrays too. -/
def named : Doc α → Bool
  | .scalar _ => true
  | .array items => namedItems items
  | .table entries => decide (entries.map fun entry => entry.1).Nodup && namedEntries entries

def namedItems : List (Doc α) → Bool
  | [] => true
  | t :: rest => t.named && namedItems rest

def namedEntries : List (String × Doc α) → Bool
  | [] => true
  | (_, t) :: rest => t.named && namedEntries rest

end

theorem lookup_mem {items : List (String × Doc α)} {k : String} {t : Doc α} (found : items.lookup k = some t) : (k, t) ∈ items := by
  obtain ⟨front, back, split, -⟩ := List.lookup_eq_some_iff.mp found
  rw [split]
  simp

theorem lookup_none {items : List (String × Doc α)} {k : String} (apart : k ∉ items.map fun entry => entry.1) : items.lookup k = none := by
  rw [List.lookup_eq_none_iff]
  intro entry member
  have other : k ≠ entry.1 := by
    rintro rfl
    exact apart (List.mem_map.mpr ⟨entry, member, rfl⟩)
  simpa using other

theorem lookup_of_mem {items : List (String × Doc α)} (names : (items.map fun entry => entry.1).Nodup) {entry : String × Doc α}
    (member : entry ∈ items) : items.lookup entry.1 = some entry.2 := by
  obtain ⟨front, back, rfl⟩ := List.append_of_mem member
  rw [List.map_append, List.map_cons, List.nodup_append] at names
  refine List.lookup_eq_some_iff.mpr ⟨front, back, rfl, fun other before => ?_⟩
  have apart := names.2.2 other.1 (List.mem_map_of_mem before) entry.1 List.mem_cons_self
  simpa using apart.symm

theorem distinct_of_named {t : Doc α} (checked : t.named = true) : t.Distinct := by
  induction t using induct with
  | scalar => exact distinct_of List.nodup_nil fun _ _ impossible => (nomatch impossible)
  | array => exact distinct_of List.nodup_nil fun _ _ impossible => (nomatch impossible)
  | table items ih =>
    rw [named, Bool.and_eq_true, decide_eq_true_eq] at checked
    refine distinct_of checked.1 fun k c there => ?_
    have each : ∀ entry ∈ items, entry.2.named = true := by
      have rest := checked.2
      clear ih there checked
      induction items with
      | nil => exact fun _ member => (nomatch member)
      | cons entry items again =>
        rw [namedEntries, Bool.and_eq_true] at rest
        exact List.forall_mem_cons.mpr ⟨rest.1, again rest.2⟩
    exact ih (k, c) (lookup_mem there) (each (k, c) (lookup_mem there))

theorem all_iff_look {p : α → Bool} {t : Doc α} (distinct : t.Distinct) :
    t.all p = true ↔ ∀ path v, t.look path = some v → v.isTable = false → v.all p = true := by
  induction t using induct with
  | scalar a =>
    refine ⟨fun held path v found _ => ?_, fun held => held [] _ rfl rfl⟩
    cases path with
    | nil =>
      cases found
      exact held
    | cons => cases found
  | array items =>
    refine ⟨fun held path v found _ => ?_, fun held => held [] _ rfl rfl⟩
    cases path with
    | nil =>
      cases found
      exact held
    | cons => cases found
  | table items ih =>
    have names : (items.map fun entry => entry.1).Nodup := distinct.names
    rw [all, allEntries_eq, List.all_eq_true]
    constructor
    · intro held path v found closed
      cases path with
      | nil =>
        cases found
        cases closed
      | cons k path =>
        obtain ⟨c, there, beneath⟩ := Option.bind_eq_some_iff.mp found
        have member := lookup_mem there
        exact (ih (k, c) member (distinct.child there)).mp (held (k, c) member) path v beneath closed
    · intro held entry member
      have there : (Doc.table items).child entry.1 = some entry.2 := lookup_of_mem names member
      refine (ih entry member (distinct.child there)).mpr fun path v found closed => held (entry.1 :: path) v ?_ closed
      rw [look, there]
      exact found

theorem Distinct.map {t : Doc α} (distinct : t.Distinct) (f : α → β) : (t.map f).Distinct := by
  intro path c found
  rw [look_map, Option.map_eq_some_iff] at found
  obtain ⟨old, there, rfl⟩ := found
  have names := distinct path old there
  cases old with
  | scalar => exact List.nodup_nil
  | array => exact List.nodup_nil
  | table items =>
    simpa [Doc.map, entries, mapEntries_eq, Function.comp_def] using names

theorem child_sift {g : α → Option β} {t : Doc α} {s : Doc β} (names : (t.entries.map fun entry => entry.1).Nodup) (converted : t.sift g = some s)
    (k : String) : s.child k = (t.child k).bind (sift g) := by
  cases t with
  | scalar a =>
    obtain ⟨b, -, rfl⟩ := Option.map_eq_some_iff.mp converted
    rfl
  | array items =>
    cases converted
    rfl
  | table items =>
    cases converted
    simp only [Doc.child, entries] at names ⊢
    induction items with
    | nil => rfl
    | cons entry rest ih =>
      obtain ⟨j, c⟩ := entry
      obtain ⟨apart, others⟩ := List.nodup_cons.mp names
      rw [siftEntries, List.lookup_cons]
      cases same : k == j with
      | false =>
        cases converted : c.sift g with
        | none => exact ih others
        | some d =>
          dsimp only
          rw [List.lookup_cons, same]
          exact ih others
      | true =>
        obtain rfl := beq_iff_eq.mp same
        cases converted : c.sift g with
        | none =>
          dsimp only
          rw [ih others, lookup_none apart]
          simp [converted]
        | some d =>
          dsimp only
          rw [List.lookup_cons, same]
          simp [converted]

theorem look_sift {g : α → Option β} {t : Doc α} {s : Doc β} (distinct : t.Distinct) (converted : t.sift g = some s) (path : List String) :
    s.look path = (t.look path).bind (sift g) := by
  induction path generalizing t s with
  | nil => exact converted.symm
  | cons k path ih =>
    simp only [look, child_sift distinct.names converted]
    cases there : t.child k with
    | none => rfl
    | some c =>
      cases kept : c.sift g with
      | some d =>
        simp only [Option.bind_some, kept]
        exact ih (distinct.child there) kept
      | none =>
        simp only [Option.bind_some, kept, Option.bind_none]
        -- What is not converted is a scalar, and has nothing beneath it.
        cases c with
        | scalar a =>
          cases path with
          | nil => exact kept.symm
          | cons => rfl
        | array => cases kept
        | table => cases kept

def Covers (template : Doc α) (actual : Doc β) : Prop :=
  ∀ path leaf, template.look path = some leaf → leaf.isTable = false → actual.look path ≠ none

theorem covers_map {γ δ : Type} {template : Doc α} {actual : Doc β} (f : α → γ) (h : β → δ) :
    Covers (template.map f) (actual.map h) ↔ Covers template actual := by
  constructor
  · intro covers path leaf found closed
    have there := covers path (leaf.map f) (by rw [look_map, found]; rfl) (by rw [isTable_map, closed])
    rw [look_map] at there
    exact fun gone => there (by rw [gone]; rfl)
  · intro covers path leaf found closed
    rw [look_map, Option.map_eq_some_iff] at found
    obtain ⟨old, found, rfl⟩ := found
    rw [isTable_map] at closed
    rw [look_map, ne_eq, Option.map_eq_none_iff]
    exact covers path old found closed

def put (k : String) (t : Doc α) : List (String × Doc α) → List (String × Doc α)
  | [] => [(k, t)]
  | (j, c) :: rest => if j = k then (k, t) :: rest else (j, c) :: put k t rest

theorem lookup_put (k j : String) (t : Doc α) (items : List (String × Doc α)) :
    (put k t items).lookup j = if j = k then some t else items.lookup j := by
  induction items with
  | nil =>
    rw [put, List.lookup_cons]
    by_cases same : j = k
    · simp [same]
    · simp [same, beq_false_of_ne same]
  | cons entry rest ih =>
    obtain ⟨i, c⟩ := entry
    rw [put]
    by_cases here : i = k
    · subst here
      rw [if_pos rfl, List.lookup_cons, List.lookup_cons]
      by_cases same : j = i
      · simp [same]
      · simp [same, beq_false_of_ne same]
    · rw [if_neg here, List.lookup_cons, List.lookup_cons, ih]
      by_cases same : j = i
      · subst same
        simp [here]
      · simp [beq_false_of_ne same]

theorem put_names {k : String} {t : Doc α} {items : List (String × Doc α)} (names : (items.map fun entry => entry.1).Nodup) :
    ((put k t items).map fun entry => entry.1).Nodup := by
  have among : ∀ (items : List (String × Doc α)) i, i ∈ (put k t items).map (fun entry => entry.1) → i = k ∨ i ∈ items.map fun entry => entry.1 := by
    intro items i member
    induction items with
    | nil => exact .inl (List.mem_singleton.mp member)
    | cons entry rest ih =>
      rw [put] at member
      split at member
      · rename_i here
        rw [List.map_cons, List.mem_cons] at member
        exact member.imp_right (List.mem_cons_of_mem _)
      · rw [List.map_cons, List.mem_cons] at member
        rcases member with rfl | later
        · exact .inr List.mem_cons_self
        · exact (ih later).imp_right (List.mem_cons_of_mem _)
  induction items with
  | nil => simp [put]
  | cons entry rest ih =>
    obtain ⟨apart, others⟩ := List.nodup_cons.mp names
    rw [put]
    split
    · rename_i here
      exact List.nodup_cons.mpr ⟨here ▸ apart, others⟩
    · rename_i elsewhere
      refine List.nodup_cons.mpr ⟨fun member => ?_, ih others⟩
      exact (among rest _ member).elim elsewhere apart

/-- A value is set at a path, whatever is in its way; nothing is done for the empty path. -/
def setAt (t : Doc α) : List String → Doc α → Doc α
  | [], _ => t
  | [k], value => .table (put k value t.entries)
  | k :: path, value => .table (put k (setAt ((t.child k).getD (.table [])) path value) t.entries)

theorem setAt_child (t : Doc α) (k j : String) (path : List String) (value : Doc α) : (t.setAt (k :: path) value).child j =
    if j = k then some (if path = [] then value else setAt ((t.child k).getD (.table [])) path value) else t.child j := by
  cases path with
  | nil => exact lookup_put k j value t.entries
  | cons i path =>
    rw [if_neg (List.cons_ne_nil i path)]
    exact lookup_put k j _ t.entries

theorem setAt_beneath (t value : Doc α) {path : List String} (some_ : path ≠ []) (rest : List String) :
    (t.setAt path value).look (path ++ rest) = value.look rest := by
  induction path generalizing t with
  | nil => exact absurd rfl some_
  | cons k path ih =>
    rw [List.cons_append, look, setAt_child, if_pos rfl]
    split
    · rename_i last
      rw [last]
      rfl
    · rename_i more
      exact ih _ more

theorem setAt_beside (t value : Doc α) {path other : List String} (beneath : ¬path <+: other) (above : ¬other <+: path) :
    (t.setAt path value).look other = t.look other := by
  induction path generalizing t other with
  | nil => exact absurd List.nil_prefix beneath
  | cons k path ih =>
    cases other with
    | nil => exact absurd List.nil_prefix above
    | cons j other =>
      rw [look, look, setAt_child]
      split
      · rename_i same
        subst same
        rw [List.cons_prefix_cons] at beneath above
        have past : ¬path <+: other := fun leads => beneath ⟨rfl, leads⟩
        have before : ¬other <+: path := fun leads => above ⟨rfl, leads⟩
        have more : path ≠ [] := by
          rintro rfl
          exact past List.nil_prefix
        rw [if_neg more, Option.bind_some, ih _ past before]
        cases t.child j with
        | some c => rfl
        | none =>
          cases other with
          | nil => exact absurd List.nil_prefix before
          | cons => rfl
      · rfl

theorem setAt_distinct {t value : Doc α} (distinct : t.Distinct) (new : value.Distinct) (path : List String) : (t.setAt path value).Distinct := by
  induction path generalizing t with
  | nil => exact distinct
  | cons k path ih =>
    apply distinct_of
    · cases path <;> exact put_names distinct.names
    · intro j c there
      rw [setAt_child] at there
      split at there
      · cases there
        split
        · exact new
        · apply ih
          cases old : t.child k with
          | some c => exact distinct.child old
          | none => exact distinct_of List.nodup_nil fun _ _ impossible => (nomatch impossible)
      · exact distinct.child there

/-! ### Merging -/

mutual

/-- What the second tree has goes over what the first has; its dead scalars leave the first alone. -/
def merge (dead : α → Bool) (dst : Doc α) : Doc α → Doc α
  | .scalar a => if dead a = true then dst else .scalar a
  | .array items => .array items
  | .table new =>
    match dst with
    | .table old => .table (mergeEntries dead old new)
    | _ => .table new

def mergeEntries (dead : α → Bool) (old : List (String × Doc α)) : List (String × Doc α) → List (String × Doc α)
  | [] => old
  | (k, t) :: rest =>
    if t.isDead dead = true then mergeEntries dead old rest
    else
      match old.lookup k with
      | some c => mergeEntries dead (put k (merge dead c t) old) rest
      | none => mergeEntries dead (put k t old) rest

end

def overlay (dead : α → Bool) (old : Option (Doc α)) (t : Doc α) : Doc α := old.elim t fun c => merge dead c t

variable {dead : α → Bool}

theorem mergeEntries_cons (old : List (String × Doc α)) (k : String) (t : Doc α) (rest : List (String × Doc α)) :
    mergeEntries dead old ((k, t) :: rest) =
      mergeEntries dead (if t.isDead dead = true then old else put k (overlay dead (old.lookup k) t) old) rest := by
  rw [mergeEntries]
  split
  · rfl
  · cases old.lookup k <;> rfl

theorem merge_leaf {dst src : Doc α} (live : src.isDead dead = false) (closed : src.isTable = false) : merge dead dst src = src := by
  cases src with
  | scalar a =>
    have alive : dead a = false := live
    rw [merge, alive]
    rfl
  | array => rfl
  | table => cases closed

theorem merge_dead {dst src : Doc α} (gone : src.isDead dead = true) : merge dead dst src = dst := by
  cases src with
  | scalar a => exact if_pos gone
  | array => cases gone
  | table => cases gone

theorem merge_closed {dst src : Doc α} (closed : dst.isTable = false) (live : src.isDead dead = false) : merge dead dst src = src := by
  cases opened : src.isTable with
  | false => exact merge_leaf live opened
  | true =>
    cases src with
    | scalar => cases opened
    | array => cases opened
    | table new =>
      cases dst with
      | scalar => rfl
      | array => rfl
      | table => cases closed

theorem overlay_leaf {old : Option (Doc α)} {t : Doc α} (live : t.isDead dead = false) (closed : t.isTable = false) : overlay dead old t = t := by
  cases old with
  | none => rfl
  | some c => exact merge_leaf live closed

theorem overlay_live {old : Option (Doc α)} {t : Doc α} (live : t.isDead dead = false) : (overlay dead old t).isDead dead = false := by
  cases old with
  | none => exact live
  | some c =>
    cases t with
    | scalar a =>
      rw [overlay, Option.elim_some, merge_leaf live rfl]
      exact live
    | array => rfl
    | table => cases c <;> rfl

theorem lookup_merge {old new : List (String × Doc α)} (names : (new.map fun entry => entry.1).Nodup) (k : String) :
    (mergeEntries dead old new).lookup k = match new.lookup k with
      | none => old.lookup k
      | some t => if t.isDead dead = true then old.lookup k else some (overlay dead (old.lookup k) t) := by
  induction new generalizing old with
  | nil => rfl
  | cons entry rest ih =>
    obtain ⟨j, t⟩ := entry
    obtain ⟨apart, others⟩ := List.nodup_cons.mp names
    rw [mergeEntries_cons, ih others]
    by_cases same : k = j
    · subst same
      rw [lookup_none apart, List.lookup_cons]
      simp only [beq_self_eq_true]
      split
      · rfl
      · rw [lookup_put, if_pos rfl]
    · have kept : (if t.isDead dead = true then old else put j (overlay dead (old.lookup j) t) old).lookup k = old.lookup k := by
        split
        · rfl
        · rw [lookup_put, if_neg same]
      rw [List.lookup_cons, beq_false_of_ne same, kept]

theorem merge_names {old new : List (String × Doc α)} (names : (old.map fun entry => entry.1).Nodup) :
    ((mergeEntries dead old new).map fun entry => entry.1).Nodup := by
  induction new generalizing old with
  | nil => exact names
  | cons entry rest ih =>
    rw [mergeEntries_cons]
    apply ih
    split
    · exact names
    · exact put_names names

theorem merge_distinct {dst src : Doc α} (first : dst.Distinct) (second : src.Distinct) : (merge dead dst src).Distinct := by
  induction src using induct generalizing dst with
  | scalar a =>
    rw [merge]
    split
    · exact first
    · exact second
  | array => exact second
  | table new ih =>
    cases dst with
    | scalar => exact second
    | array => exact second
    | table old =>
      refine distinct_of (merge_names first.names) fun k c there => ?_
      have found : (mergeEntries dead old new).lookup k = some c := there
      have distinct : (new.map fun entry => entry.1).Nodup := second.names
      rw [lookup_merge distinct] at found
      split at found
      · exact first.child found
      · rename_i t among
        have below : t.Distinct := Distinct.child second among
        split at found
        · exact first.child found
        · cases found
          cases older : old.lookup k with
          | none => exact below
          | some c =>
            have above : c.Distinct := Distinct.child first older
            exact ih (k, t) (lookup_mem among) above below

theorem look_merge {dst src t : Doc α} (distinct : src.Distinct) {path : List String} (there : src.look path = some t)
    (live : t.isDead dead = false) : (merge dead dst src).look path = some (overlay dead (dst.look path) t) := by
  induction path generalizing dst src with
  | nil =>
    cases there
    rfl
  | cons k path ih =>
    obtain ⟨c, among, found⟩ := Option.bind_eq_some_iff.mp there
    cases src with
    | scalar => cases among
    | array => cases among
    | table new =>
      have below : c.Distinct := distinct.child among
      have alive : c.isDead dead = false := by
        cases c with
        | scalar a =>
          cases path with
          | nil =>
            cases found
            exact live
          | cons => cases found
        | array => rfl
        | table => rfl
      cases dst with
      | scalar =>
        rw [merge_closed rfl rfl, there]
        rfl
      | array =>
        rw [merge_closed rfl rfl, there]
        rfl
      | table old =>
        have here : (merge dead (.table old) (.table new)).child k = some (overlay dead (old.lookup k) c) := by
          have found : new.lookup k = some c := among
          have merged := @lookup_merge α dead old new distinct.names k
          rw [found] at merged
          simp only [alive, Bool.false_eq_true, if_false] at merged
          exact merged
        have older : (Doc.table old).child k = old.lookup k := rfl
        rw [look, look, here, older]
        cases before : old.lookup k with
        | none =>
          simp only [Option.bind_some, Option.bind_none, overlay, Option.elim_none]
          exact found
        | some d => exact ih below found

/-- The second tree has a value at the path, or one that is in the way. -/
def touches (dead : α → Bool) (t : Doc α) : List String → Bool
  | [] => !t.isDead dead
  | k :: path =>
    match t with
    | .table new => (new.lookup k).any fun c => touches dead c path
    | t => !t.isDead dead

theorem untouched_dead {src t : Doc α} {path : List String} (spared : src.touches dead path = false) (found : src.look path = some t) :
    t.isDead dead = true := by
  induction path generalizing src with
  | nil =>
    cases found
    simpa [touches] using spared
  | cons k path ih =>
    obtain ⟨c, among, beneath⟩ := Option.bind_eq_some_iff.mp found
    cases src with
    | scalar => cases among
    | array => cases among
    | table new =>
      have here : new.lookup k = some c := among
      rw [touches, here, Option.any_some] at spared
      exact ih spared beneath

theorem look_spared {dst src : Doc α} (distinct : src.Distinct) {path : List String} (spared : src.touches dead path = false) :
    (merge dead dst src).look path = dst.look path ∨
      (dst.look path = none ∧ ∀ t, (merge dead dst src).look path = some t → t.isDead dead = true) := by
  induction path generalizing dst src with
  | nil =>
    rw [merge_dead (by simpa [touches] using spared)]
    exact .inl rfl
  | cons k path ih =>
    cases src with
    | scalar a =>
      rw [merge_dead (by simpa [touches] using spared)]
      exact .inl rfl
    | array => cases spared
    | table new =>
      cases opened : dst.isTable with
      | false =>
        right
        rw [merge_closed opened rfl]
        exact ⟨look_none opened k path, fun t found => untouched_dead spared found⟩
      | true =>
        cases dst with
        | scalar => cases opened
        | array => cases opened
        | table old =>
          have merged := @lookup_merge α dead old new distinct.names k
          have here : (merge dead (.table old) (.table new)).child k = (mergeEntries dead old new).lookup k := rfl
          have older : (Doc.table old).child k = old.lookup k := rfl
          rw [look, look, here, older, merged]
          cases among : new.lookup k with
          | none => exact .inl rfl
          | some c =>
            rw [touches, among, Option.any_some] at spared
            dsimp only
            split
            · exact .inl rfl
            · cases before : old.lookup k with
              | some d => exact ih (distinct.child among) spared
              | none =>
                right
                exact ⟨rfl, fun t found => untouched_dead spared found⟩

theorem touches_cases {t : Doc α} {path : List String} (touched : t.touches dead path = true) :
    (∃ c, t.look path = some c ∧ c.isDead dead = false) ∨
      ∃ above beneath c, path = above ++ beneath ∧ beneath ≠ [] ∧ t.look above = some c ∧ c.isTable = false ∧ c.isDead dead = false := by
  induction path generalizing t with
  | nil => exact .inl ⟨t, rfl, by simpa [touches] using touched⟩
  | cons k path ih =>
    cases t with
    | scalar a => exact .inr ⟨[], k :: path, _, rfl, List.cons_ne_nil _ _, rfl, rfl, by simpa [touches] using touched⟩
    | array items => exact .inr ⟨[], k :: path, _, rfl, List.cons_ne_nil _ _, rfl, rfl, rfl⟩
    | table new =>
      rw [touches, Option.any_eq_true] at touched
      obtain ⟨c, there, beneath⟩ := touched
      have here : (Doc.table new).child k = some c := there
      rcases ih beneath with ⟨d, found, live⟩ | ⟨above, rest, d, rfl, more, found, closed, live⟩
      · exact .inl ⟨d, by rw [look, here]; exact found, live⟩
      · exact .inr ⟨k :: above, rest, d, rfl, more, by rw [look, here]; exact found, closed, live⟩

theorem touches_above {t c : Doc α} {above beneath : List String} (found : t.look (above ++ beneath) = some c) (more : beneath ≠ []) :
    (∃ items, t.look above = some (.table items)) ∧ t.touches dead above = true := by
  rw [look_append] at found
  obtain ⟨d, there, below⟩ := Option.bind_eq_some_iff.mp found
  have opened : ∃ items, d = .table items := by
    cases beneath with
    | nil => exact absurd rfl more
    | cons k rest =>
      cases d with
      | scalar => cases below
      | array => cases below
      | table items => exact ⟨items, rfl⟩
  obtain ⟨items, rfl⟩ := opened
  refine ⟨⟨items, there⟩, ?_⟩
  cases touched : t.touches dead above with
  | true => rfl
  | false => cases untouched_dead touched there

theorem touches_dead {t c : Doc α} {path : List String} (found : t.look path = some c) (gone : c.isDead dead = true) : t.touches dead path = false := by
  cases touched : t.touches dead path with
  | false => rfl
  | true =>
    exfalso
    rcases touches_cases touched with ⟨d, there, live⟩ | ⟨above, rest, d, rfl, more, there, closed, live⟩
    · rw [found] at there
      cases there
      rw [gone] at live
      cases live
    · obtain ⟨k, rest, rfl⟩ := List.exists_cons_of_ne_nil more
      rw [look_append, there, Option.bind_some, look_none closed] at found
      cases found

end Doc
