import Mathlib.Data.List.Forall2
import WolfStack.WolfRun.Grace

/-! Where a new instance is put, and where standbys are: the choice among the nodes of the
registry, and what it has to do with the id that an instance is recorded under. -/

namespace WolfRun
open Effects
open Cluster (Node nodeMatchesId)

/-- How two nodes compare, each with the number of instances counted for it. -/
abbrev Outcome := Node × Nat → Node × Nat → Ordering

section
variable {α : Type} (cmp : α → α → Ordering)

def lesser (a b : α) : α := if cmp a b = .gt then b else a

/-- `Iterator::min_by`: the first of the least. -/
def minBy : List α → Option α
  | [] => none
  | a :: rest => some (rest.foldl (lesser cmp) a)

end

section
variable (installed : Runtime → Bool) (outcome : Outcome) (nodes : List Node) (service : WolfRunService)

def runtimePresent (n : Node) : Bool := runtimeOf n service.runtime || (n.isSelf && installed service.runtime)

def placeable (n : Node) : Bool :=
  match service.placement with
  | .requireNode nid => nodeMatchesId n nid
  | .any | .preferNode _ => true

def schedulable : List Node := nodes.filter fun n => eligible service n && runtimePresent installed service n && placeable service n

def preferred : Option Node :=
  match service.placement with
  | .preferNode id => (schedulable installed nodes service).find? fun n => nodeMatchesId n id && n.online
  | .any | .requireNode _ => none

def counted (i : ServiceInstance) : Bool := i.status = "running" || i.status = "pending"

def instanceCount (instances : List ServiceInstance) (id : String) : Nat := (instances.filter fun i => counted i && i.nodeId = id).length

def schedule : Option String :=
  match preferred installed nodes service with
  | some n => some n.id
  | none => ((minBy fun a b => outcome (a, instanceCount service.instances a.id) (b, instanceCount service.instances b.id))
      (schedulable installed nodes service)).map Node.id

def occupied (instances : List ServiceInstance) (id : String) : Bool := instances.any fun i => i.status ≠ "lost" && i.nodeId = id

def standbyNodes : List Node :=
  if service.failover && (standbySource service).isSome then
    nodes.filter fun n => eligible service n && runtimePresent installed service n && !occupied service.instances n.id
  else []

end

variable {installed : Runtime → Bool} {nodes : List Node} {service : WolfRunService} {reply : {β : Type} → Ask β → β} {time : Nat} {store : Store}

theorem occupied_iff {instances : List ServiceInstance} {id : String} : occupied instances id = true ↔ ∃ i ∈ instances, i.status ≠ "lost" ∧ i.nodeId = id := by
  simp [occupied]

def Interchangeable (nodes : List Node) (a b : String) : Prop := a = b ∨ ∃ n ∈ nodes, nodeMatchesId n a = true ∧ nodeMatchesId n b = true

def Rewritten (nodes : List Node) (i i' : ServiceInstance) : Prop := i' = { i with nodeId := i'.nodeId } ∧ Interchangeable nodes i.nodeId i'.nodeId

/-- Whatever ids the instances are under, and however nodes score, the same node is picked, and
the same nodes get standbys. -/
structure SameForms (installed : Runtime → Bool) (nodes : List Node) (service : WolfRunService) : Prop where
  schedule : ∀ (outcome : Outcome) (instances : List ServiceInstance), List.Forall₂ (Rewritten nodes) service.instances instances →
    schedule installed outcome nodes { service with instances } = schedule installed outcome nodes service
  standbys : ∀ instances : List ServiceInstance, List.Forall₂ (Rewritten nodes) service.instances instances →
    standbyNodes installed nodes { service with instances } = standbyNodes installed nodes service

/-- Where nodes are compared, no counted instance can be under another id of which one is the key
of a node in question, unless no other is. -/
def CountsSettled (installed : Runtime → Bool) (nodes : List Node) (service : WolfRunService) : Prop :=
  preferred installed nodes service = none → ∀ i ∈ service.instances, counted i = true → ∀ b, Interchangeable nodes i.nodeId b → b ≠ i.nodeId →
    ∀ n ∈ schedulable installed nodes service, n.id = i.nodeId ∨ n.id = b → ∀ m ∈ schedulable installed nodes service, m.id = n.id

/-- Where standbys are made, a node that has an instance has one under its key, and no other id. -/
def StandbysSettled (installed : Runtime → Bool) (nodes : List Node) (service : WolfRunService) : Prop :=
  service.failover = true → (standbySource service).isSome = true → ∀ n ∈ nodes, eligible service n = true → runtimePresent installed service n = true →
    (∃ i ∈ service.instances, i.status ≠ "lost" ∧ Interchangeable nodes i.nodeId n.id) →
      occupied service.instances n.id = true ∧ ∀ b, Interchangeable nodes n.id b → b = n.id

section
variable {α β : Type} {R : α → β → Prop} {l : List α} {l' : List β}

theorem forall₂_left (related : List.Forall₂ R l l') {a : α} (member : a ∈ l) : ∃ b ∈ l', R a b := by
  induction related with
  | nil => cases member
  | cons here _ ih =>
    rcases List.mem_cons.mp member with rfl | later
    · exact ⟨_, List.mem_cons_self, here⟩
    · obtain ⟨b, inside, same⟩ := ih later
      exact ⟨b, List.mem_cons_of_mem _ inside, same⟩

theorem forall₂_right (related : List.Forall₂ R l l') {b : β} (member : b ∈ l') : ∃ a ∈ l, R a b := by
  induction related with
  | nil => cases member
  | cons here _ ih =>
    rcases List.mem_cons.mp member with rfl | later
    · exact ⟨_, List.mem_cons_self, here⟩
    · obtain ⟨a, inside, same⟩ := ih later
      exact ⟨a, List.mem_cons_of_mem _ inside, same⟩

end

variable {instances : List ServiceInstance} {i i' : ServiceInstance} {id b : String}

theorem Rewritten.refl (nodes : List Node) (i : ServiceInstance) : Rewritten nodes i i := ⟨rfl, .inl rfl⟩

theorem Rewritten.same (rewritten : Rewritten nodes i i') : i'.status = i.status ∧ i'.standby = i.standby := by
  obtain ⟨same, -⟩ := rewritten
  rw [same]
  exact ⟨rfl, rfl⟩

theorem standbySource_rewritten (rewritten : List.Forall₂ (Rewritten nodes) service.instances instances) :
    (standbySource { service with instances }).isSome = (standbySource service).isSome := by
  have found : ∀ p : ServiceInstance → Bool, (∀ i i', Rewritten nodes i i' → p i' = p i) →
      (instances.find? p).isSome = (service.instances.find? p).isSome := by
    intro p same
    rw [Bool.eq_iff_iff, List.find?_isSome, List.find?_isSome]
    constructor
    · rintro ⟨i', member, holds⟩
      obtain ⟨i, inside, rewrite⟩ := forall₂_right rewritten member
      exact ⟨i, inside, (same i i' rewrite) ▸ holds⟩
    · rintro ⟨i, member, holds⟩
      obtain ⟨i', inside, rewrite⟩ := forall₂_left rewritten member
      exact ⟨i', inside, (same i i' rewrite).trans holds⟩
  unfold standbySource
  rw [Option.isSome_or, Option.isSome_or, found _ ?_, found _ ?_]
  · intro i i' rewrite
    rw [rewrite.same.1]
  · intro i i' rewrite
    rw [rewrite.same.1, rewrite.same.2]

theorem standbyNodes_settled (settled : StandbysSettled installed nodes service)
    (rewritten : List.Forall₂ (Rewritten nodes) service.instances instances) :
    standbyNodes installed nodes { service with instances } = standbyNodes installed nodes service := by
  unfold standbyNodes
  rw [standbySource_rewritten rewritten]
  split
  · rename_i made
    rw [Bool.and_eq_true] at made
    apply List.filter_congr
    intro n member
    change (eligible service n && runtimePresent installed service n && _) = _
    cases fits : eligible service n && runtimePresent installed service n with
    | false => rfl
    | true =>
      rw [Bool.and_eq_true] at fits
      have here := settled made.1 made.2 n member fits.1 fits.2
      congr 2
      rw [Bool.eq_iff_iff, occupied_iff, occupied_iff]
      constructor
      · rintro ⟨i', inside, present, same⟩
        obtain ⟨i, before, rewrite⟩ := forall₂_right rewritten inside
        have interchange := rewrite.2
        rw [same] at interchange
        exact occupied_iff.mp (here ⟨i, before, rewrite.same.1 ▸ present, interchange⟩).1
      · rintro ⟨i, inside, present, same⟩
        obtain ⟨i', after, rewrite⟩ := forall₂_left rewritten inside
        have interchange := rewrite.2
        rw [same] at interchange
        refine ⟨i', after, rewrite.same.1 ▸ present, (here ⟨i, inside, present, .inl same⟩).2 _ interchange⟩
  · rfl

theorem standbysSettled_of (sameForms : SameForms installed nodes service) : StandbysSettled installed nodes service := by
  intro failover source n member fits runs there
  have candidate : ∀ instances, List.Forall₂ (Rewritten nodes) service.instances instances →
      occupied instances n.id = occupied service.instances n.id := by
    intro instances rewritten
    have same := sameForms.standbys instances rewritten
    unfold standbyNodes at same
    rw [standbySource_rewritten rewritten] at same
    change (if service.failover && _ then nodes.filter fun n => eligible service n && runtimePresent installed service n &&
      !occupied instances n.id else []) = _ at same
    rw [failover, source, Bool.and_self, if_pos rfl, if_pos rfl] at same
    have both := congrArg (n ∈ ·) same
    simp only [List.mem_filter, member, fits, runs, Bool.true_and, true_and, eq_iff_iff] at both
    exact Bool.not_inj (Bool.eq_iff_iff.mpr both)
  have here : occupied service.instances n.id = true := by
    obtain ⟨i, inside, present, interchange⟩ := there
    let f : ServiceInstance → ServiceInstance := fun j => if j = i then { j with nodeId := n.id } else j
    have rewritten : List.Forall₂ (Rewritten nodes) service.instances (service.instances.map f) := by
      rw [List.forall₂_map_right_iff, List.forall₂_same]
      intro j _
      dsimp only [f]
      split
      · rename_i same
        exact ⟨rfl, same ▸ interchange⟩
      · exact .refl nodes j
    rw [← candidate _ rewritten, occupied_iff]
    refine ⟨f i, List.mem_map_of_mem inside, ?_⟩
    dsimp only [f]
    rw [if_pos rfl]
    exact ⟨present, rfl⟩
  refine ⟨here, fun b interchange => ?_⟩
  by_contra apart
  let f : ServiceInstance → ServiceInstance := fun j => if j.nodeId = n.id then { j with nodeId := b } else j
  have rewritten : List.Forall₂ (Rewritten nodes) service.instances (service.instances.map f) := by
    rw [List.forall₂_map_right_iff, List.forall₂_same]
    intro j _
    dsimp only [f]
    split
    · rename_i same
      exact ⟨rfl, same ▸ interchange⟩
    · exact .refl nodes j
  rw [← candidate _ rewritten, occupied_iff] at here
  obtain ⟨j', inside, -, same⟩ := here
  obtain ⟨j, -, rfl⟩ := List.mem_map.mp inside
  dsimp only [f] at same
  split at same
  · exact apart same
  · rename_i other
    exact other same

/-! ### Scheduling -/

section
variable {α : Type} {cmp : α → α → Ordering} {l : List α} {a z : α} {p : α → Prop}

theorem mem_lesser {x b : α} (member : x ∈ lesser cmp a b :: l) : x ∈ a :: b :: l := by
  rcases List.mem_cons.mp member with rfl | later
  · unfold lesser
    split <;> simp
  · exact List.mem_cons_of_mem _ (List.mem_cons_of_mem _ later)

theorem foldl_lesser_mem (a : α) (l : List α) : l.foldl (lesser cmp) a ∈ a :: l := by
  induction l generalizing a with
  | nil => exact List.mem_cons_self
  | cons x l ih => exact mem_lesser (ih (lesser cmp a x))

theorem minBy_mem (least : minBy cmp l = some z) : z ∈ l := by
  cases l with
  | nil => cases least
  | cons a l =>
    cases least
    exact foldl_lesser_mem a l

theorem minBy_some (filled : l ≠ []) : ∃ x, minBy cmp l = some x := by
  cases l with
  | nil => exact absurd rfl filled
  | cons a l => exact ⟨_, rfl⟩

theorem foldl_lesser_of_less (less : ∀ x ∈ a :: l, p x → ∀ y ∈ a :: l, ¬p y → cmp x y = .lt ∧ cmp y x = .gt) (some_ : ∃ x ∈ a :: l, p x) :
    p (l.foldl (lesser cmp) a) := by
  induction l generalizing a with
  | nil =>
    obtain ⟨x, member, holds⟩ := some_
    exact List.mem_singleton.mp member ▸ holds
  | cons b l ih =>
    have first : p a ∨ p b → p (lesser cmp a b) := by
      intro one
      by_cases left : p a <;> by_cases right : p b
      · unfold lesser
        split <;> assumption
      · rw [lesser, (less a List.mem_cons_self left b (by simp) right).1]
        exact left
      · rw [lesser, (less b (by simp) right a List.mem_cons_self left).2]
        exact right
      · exact absurd one (not_or.mpr ⟨left, right⟩)
    refine ih (fun x member holds y also => less x (mem_lesser member) holds y (mem_lesser also)) ?_
    obtain ⟨x, member, holds⟩ := some_
    rcases List.mem_cons.mp member with rfl | later
    · exact ⟨_, List.mem_cons_self, first (.inl holds)⟩
    · rcases List.mem_cons.mp later with rfl | behind
      · exact ⟨_, List.mem_cons_self, first (.inr holds)⟩
      · exact ⟨x, List.mem_cons_of_mem _ behind, holds⟩

theorem minBy_of_less (less : ∀ x ∈ l, p x → ∀ y ∈ l, ¬p y → cmp x y = .lt ∧ cmp y x = .gt) (some_ : ∃ x ∈ l, p x) :
    ∃ x, minBy cmp l = some x ∧ p x := by
  cases l with
  | nil =>
    obtain ⟨x, member, -⟩ := some_
    cases member
  | cons a l => exact ⟨_, rfl, foldl_lesser_of_less less some_⟩

theorem minBy_congr {other : α → α → Ordering} (same : ∀ x ∈ l, ∀ y ∈ l, cmp x y = other x y) : minBy cmp l = minBy other l := by
  cases l with
  | nil => rfl
  | cons a l =>
    rw [minBy, minBy]
    congr 1
    induction l generalizing a with
    | nil => rfl
    | cons b l ih =>
      have here : lesser cmp a b = lesser other a b := by
        rw [lesser, lesser, same a List.mem_cons_self b (by simp)]
      rw [List.foldl_cons, List.foldl_cons, here]
      exact ih _ fun x member y also => same x (mem_lesser member) y (mem_lesser also)

end

theorem instanceCount_rewritten {l l' : List ServiceInstance} (rewritten : List.Forall₂ (Rewritten nodes) l l')
    (elsewhere : ∀ i ∈ l, counted i = true → ∀ b, Interchangeable nodes i.nodeId b → b ≠ i.nodeId → id ≠ i.nodeId ∧ id ≠ b) :
    instanceCount l' id = instanceCount l id := by
  induction rewritten with
  | nil => rfl
  | @cons i i' l l' rewrite _ ih =>
    have later := ih fun i member => elsewhere i (List.mem_cons_of_mem _ member)
    have same : (counted i' && decide (i'.nodeId = id)) = (counted i && decide (i.nodeId = id)) := by
      have status : counted i' = counted i := by
        rw [counted, counted, rewrite.same.1]
      rw [status]
      cases counts : counted i with
      | false => rfl
      | true =>
        by_cases moved : i'.nodeId = i.nodeId
        · rw [moved]
        · obtain ⟨first, second⟩ := elsewhere i List.mem_cons_self counts _ rewrite.2 moved
          rw [decide_eq_false (Ne.symm second), decide_eq_false (Ne.symm first)]
    unfold instanceCount at later ⊢
    rw [List.filter_cons, List.filter_cons, same]
    split
    · rw [List.length_cons, List.length_cons, later]
    · exact later

theorem schedule_settled (settled : CountsSettled installed nodes service) (outcome : Outcome)
    (rewritten : List.Forall₂ (Rewritten nodes) service.instances instances) :
    schedule installed outcome nodes { service with instances } = schedule installed outcome nodes service := by
  change (match preferred installed nodes service with
    | some n => some n.id
    | none => ((minBy fun a b => outcome (a, instanceCount instances a.id) (b, instanceCount instances b.id))
      (schedulable installed nodes service)).map Node.id) = _
  rw [schedule]
  cases given : preferred installed nodes service with
  | some n => rfl
  | none =>
    dsimp only
    by_cases one : ∀ n ∈ schedulable installed nodes service, ∀ m ∈ schedulable installed nodes service, m.id = n.id
    · by_cases empty : schedulable installed nodes service = []
      · rw [empty]
        rfl
      · obtain ⟨x, left⟩ := @minBy_some _ (fun a b => outcome (a, instanceCount instances a.id) (b, instanceCount instances b.id)) _ empty
        obtain ⟨y, right⟩ :=
          @minBy_some _ (fun a b => outcome (a, instanceCount service.instances a.id) (b, instanceCount service.instances b.id)) _ empty
        rw [left, right, Option.map_some, Option.map_some, one y (minBy_mem right) x (minBy_mem left)]
    · have counts : ∀ n ∈ schedulable installed nodes service, instanceCount instances n.id = instanceCount service.instances n.id := by
        intro n member
        apply instanceCount_rewritten rewritten
        intro i inside counts b interchange apart
        by_contra met
        rw [not_and_or, not_ne_iff, not_ne_iff] at met
        have alone := settled given i inside counts b interchange apart n member met
        exact one fun x also m other => (alone m other).trans (alone x also).symm
      congr 1
      apply minBy_congr
      intro a first b second
      rw [counts a first, counts b second]

def contested (base : String → Nat) (first second : String) : Outcome := fun a b =>
  let score (x : Node × Nat) : Int := (if x.1.id = first then -50 else if x.1.id = second then 0 else 1000) - 100 * base x.1.id + 100 * x.2
  compare (score a) (score b)

theorem contested_pick {l : List Node} {n m : Node} (present : n ∈ l) (also : m ∈ l) (apart : m.id ≠ n.id) {base counts : String → Nat} {e : String}
    (more : ∀ id, counts id = base id + if e = id then 1 else 0) :
    (minBy (fun a b : Node => contested base n.id m.id (a, counts a.id) (b, counts b.id)) l).map Node.id = some (if e = n.id then m.id else n.id) := by
  have picked : ∃ x, minBy (fun a b : Node => contested base n.id m.id (a, counts a.id) (b, counts b.id)) l = some x ∧
      x.id = if e = n.id then m.id else n.id := by
    apply minBy_of_less
    · intro x _ holds y _ other
      unfold contested
      dsimp only
      rw [compare_lt_iff_lt, compare_gt_iff_gt, more x.id, more y.id]
      by_cases taken : e = n.id
      · rw [if_pos taken] at holds other
        rw [holds, if_neg apart, if_pos rfl, if_neg other, taken, if_neg (Ne.symm apart)]
        by_cases top : y.id = n.id
        · rw [if_pos top, if_pos top.symm]
          push_cast
          omega
        · rw [if_neg top, if_neg (Ne.symm top)]
          push_cast
          omega
      · rw [if_neg taken] at holds other
        rw [holds, if_pos rfl, if_neg other, if_neg taken]
        split <;> split <;> push_cast <;> omega
    · split
      · exact ⟨m, also, rfl⟩
      · exact ⟨n, present, rfl⟩
  obtain ⟨x, found, same⟩ := picked
  rw [found, Option.map_some, same]

theorem instanceCount_split (l₁ l₂ : List ServiceInstance) (counts : counted i = true) (id : String) :
    instanceCount (l₁ ++ i :: l₂) id = instanceCount (l₁ ++ l₂) id + if i.nodeId = id then 1 else 0 := by
  unfold instanceCount
  rw [List.filter_append, List.filter_append, List.length_append, List.length_append, List.filter_cons, counts, Bool.true_and, Nat.add_assoc]
  congr 1
  by_cases here : i.nodeId = id
  · rw [decide_eq_true here, if_pos rfl, if_pos here, List.length_cons]
  · rw [decide_eq_false here, if_neg Bool.false_ne_true, if_neg here, Nat.add_zero]

theorem countsSettled_of (sameForms : SameForms installed nodes service) : CountsSettled installed nodes service := by
  intro open_ i inside counts b interchange apart n member keyed m other
  by_contra different
  obtain ⟨l₁, l₂, split⟩ := List.append_of_mem inside
  have rewritten : List.Forall₂ (Rewritten nodes) service.instances (l₁ ++ { i with nodeId := b } :: l₂) := by
    rw [split]
    exact List.rel_append (List.forall₂_same.mpr fun j _ => .refl nodes j) (.cons ⟨rfl, interchange⟩ (List.forall₂_same.mpr fun j _ => .refl nodes j))
  have same := sameForms.schedule (contested (instanceCount (l₁ ++ l₂)) n.id m.id) _ rewritten
  change (match preferred installed nodes service with
    | some n => some n.id
    | none => ((minBy fun a b_ => contested (instanceCount (l₁ ++ l₂)) n.id m.id (a, instanceCount (l₁ ++ { i with nodeId := b } :: l₂) a.id)
      (b_, instanceCount (l₁ ++ { i with nodeId := b } :: l₂) b_.id)) (schedulable installed nodes service)).map Node.id) = _ at same
  rw [schedule, open_] at same
  dsimp only at same
  have moved : counted { i with nodeId := b } = true := counts
  rw [contested_pick member other different (instanceCount_split l₁ l₂ moved), split,
    contested_pick member other different (instanceCount_split l₁ l₂ counts)] at same
  dsimp only at same
  rcases keyed with here | here
  · rw [if_neg (here ▸ apart), if_pos here.symm] at same
    exact different (Option.some.inj same).symm
  · rw [if_pos here.symm, if_neg (here ▸ Ne.symm apart)] at same
    exact different (Option.some.inj same)

/-- Which of its ids an instance is recorded under makes no difference exactly where no counted
instance has two that matter, and no node that may get a standby has an instance under another. -/
theorem sameForms_iff (installed : Runtime → Bool) (nodes : List Node) (service : WolfRunService) :
    SameForms installed nodes service ↔ CountsSettled installed nodes service ∧ StandbysSettled installed nodes service := by
  constructor
  · exact fun sameForms => ⟨countsSettled_of sameForms, standbysSettled_of sameForms⟩
  · rintro ⟨counts, standbys⟩
    exact ⟨fun outcome _ rewritten => schedule_settled counts outcome rewritten, fun _ rewritten => standbyNodes_settled standbys rewritten⟩

def remoteNode : Node := { Cluster.sampleNode "node-1" "10.0.0.2" with selfId := some "ws-1" }

def doubled : WolfRunService :=
  { sampleService "web" with failover := true, instances := [⟨"ws-1", "web-wolfrun-1", none, "running", 0, false⟩] }

/-- The node gets a standby for the instance that it has. -/
theorem sameForms_doubled : ¬SameForms (fun _ => false) [remoteNode] doubled := by
  intro sameForms
  have settled := standbysSettled_of sameForms rfl (by decide) remoteNode List.mem_cons_self (by decide) (by decide)
    ⟨_, List.mem_cons_self, by decide, .inr ⟨remoteNode, List.mem_cons_self, by decide, by decide⟩⟩
  exact absurd settled.1 (by decide)

end WolfRun
