import WolfStack.Cluster.Removal

/-! Is a node in the list once only? A merge decides by a copy of the list, and does not
see what has been added since the copy was made, nor what the copy passes over. -/

namespace Cluster
open Effects

/-- `unseen` are the nodes that a task's copy does not show, by their own ids. -/
structure Census where
  registry : Registry
  now : Nat
  unseen : Nat → List String

def Census.noted (c : Census) (task : Nat) {β : Type} (operation : Section β) (value : β) (other : Nat) : List String :=
  match operation with
  | .allNodes =>
    if other = task then (c.registry.nodes.values.filterMap knownSid).filter fun s => ∀ n ∈ value, knownSid n ≠ some s
    else c.unseen other
  | .updateRemote entry => (knownSid entry).toList ++ c.unseen other
  | _ => c.unseen other

def Census.Shown (c : Census) (task : Nat) : {β : Type} → Section β → β → Prop
  | _, .updateRemote entry, _ => ∀ s ∈ knownSid entry, s ∉ c.unseen task
  | _, _, _ => True

def censusSystem (me : Me) (permitted : Census → Nat → {β : Type} → Section β → β → Prop) : System Census Section Nat Unit where
  moves before after := ∃ secs, after = { before with now := before.now + secs }
  bodies _ := { task | Membership me task }
  commits task _ before operation value after := permitted before task operation value ∧ ∃ registry,
    operation.Runs me before.now before.registry value registry ∧
    after = { before with registry, unseen := before.noted task operation value }
  stops _ _ := False

def Census.Single (c : Census) : Prop :=
  ∀ a ∈ c.registry.nodes.values, ∀ b ∈ c.registry.nodes.values, a.isSelf = false → b.isSelf = false →
    ∀ s ∈ knownSid a, knownSid b = some s → a = b

def Covers (current : List Node) (task : Nat) (c : Census) : Prop :=
  ∀ n ∈ c.registry.nodes.values, ∀ s ∈ knownSid n, (∃ shown ∈ current, knownSid shown = some s) ∨ s ∈ c.unseen task

structure Enrolling (before after : Census) (task : Nat) : Prop where
  enrolled : ∀ n ∈ after.registry.nodes.values, ∀ s ∈ knownSid n,
    (∃ old ∈ before.registry.nodes.values, knownSid old = some s) ∨ s ∈ after.unseen task
  unseen : ∀ s ∈ before.unseen task, s ∈ after.unseen task

def censusPromise (task : Nat) (before after : Census) : Prop := ∀ other, other ≠ task → Enrolling before after other

abbrev censusRules (me : Me) (task : Nat) : Rules Census Section :=
  (censusSystem me Census.Shown).rules Census.Single censusPromise task

variable {me : Me} {task : Nat} {before after : Census}

theorem Covers.enrolled {current : List Node} (covers : Covers current task before) (enrolling : Enrolling before after task) :
    Covers current task after := by
  intro n member s sid
  rcases enrolling.enrolled n member s sid with ⟨old, there, same⟩ | noted
  · rcases covers old there s same with shown | unseen
    · exact .inl shown
    · exact .inr (enrolling.unseen s unseen)
  · exact .inr noted

theorem covers_stable (current : List Node) : (censusRules me task).Stable (Covers current task) := by
  rintro before after _ _ (⟨secs, rfl⟩ | ⟨other, apart, promise⟩) covers
  · exact covers
  · exact covers.enrolled (promise task apart.symm)

theorem single_plain {β : Type} {operation : Section β} {value : β} (plain : operation.Plain) (single : before.Single)
    (law : (censusSystem me Census.Shown).commits task before operation value after) :
    after.Single ∧ ∀ other, (∀ s ∈ before.unseen other, s ∈ after.unseen other) → Enrolling before after other := by
  obtain ⟨-, registry, runs, rfl⟩ := law
  constructor
  · intro a left b right aPeer bPeer s aSid bSid
    rcases plain_origin plain runs left with none_ | ⟨first, aThere, aOrigin⟩
    · rw [none_] at aSid
      cases aSid
    · rcases plain_origin plain runs right with none_ | ⟨second, bThere, bOrigin⟩
      · rw [none_] at bSid
        cases bSid
      · have same := single first aThere second bThere (aOrigin.isSelf.symm.trans aPeer) (bOrigin.isSelf.symm.trans bPeer) s
          (aOrigin.sid.symm.trans aSid) (bOrigin.sid.symm.trans bSid)
        exact NodeMap.eq_of_id left right ((aOrigin.id.trans (congrArg Node.id same)).trans bOrigin.id.symm)
  · intro other kept
    refine ⟨fun n member s sid => ?_, kept⟩
    rcases plain_origin plain runs member with none_ | ⟨old, there, origin⟩
    · rw [none_] at sid
      cases sid
    · exact .inl ⟨old, there, origin.sid.symm.trans sid⟩

theorem plain_unseen {β : Type} {operation : Section β} {value : β} (plain : operation.Plain) {other : Nat} (apart : other ≠ task) :
    ∀ s ∈ before.unseen other, s ∈ before.noted task operation value other := by
  cases operation with
  | allNodes => simp [Census.noted, apart]
  | updateRemote _ => exact plain.elim
  | _ => exact fun s noted => noted

theorem census_step {β : Type} {operation : Section β} {value : β} (plain : operation.Plain) (single : before.Single)
    (law : (censusSystem me Census.Shown).commits task before operation value after) :
    after.Single ∧ censusPromise task before after := by
  obtain ⟨still, enrolling⟩ := single_plain plain single law
  obtain ⟨-, registry, -, rfl⟩ := law
  exact ⟨still, fun other apart => enrolling other (plain_unseen plain apart)⟩

theorem covers_step {current : List Node} {β : Type} {operation : Section β} {value : β} (plain : operation.Plain)
    (same : before.noted task operation value task = before.unseen task) (single : before.Single) (covers : Covers current task before)
    (law : (censusSystem me Census.Shown).commits task before operation value after) :
    after.Single ∧ censusPromise task before after ∧ Covers current task after := by
  obtain ⟨still, promise⟩ := census_step plain single law
  refine ⟨still, promise, covers.enrolled ((single_plain plain single law).2 task ?_)⟩
  obtain ⟨-, registry, -, rfl⟩ := law
  intro s noted
  change s ∈ before.noted task operation value task
  rw [same]
  exact noted

theorem covers_copy {current : List Node} (law : (censusSystem me Census.Shown).commits task before .allNodes current after) :
    Covers current task after := by
  obtain ⟨-, registry, ⟨-, rfl⟩, rfl⟩ := law
  intro n member s sid
  by_cases shown : ∃ other ∈ current, knownSid other = some s
  · exact .inl shown
  · refine .inr ?_
    have hidden : ∀ other ∈ current, knownSid other ≠ some s := by
      intro other there same
      exact shown ⟨other, there, same⟩
    simp only [Census.noted, if_pos]
    apply List.mem_filter.mpr
    exact ⟨List.mem_filterMap.mpr ⟨n, member, sid⟩, decide_eq_true hidden⟩

theorem seeds_absent {current : List Node} {m : Node} (covers : Covers current task before) (admits : Admits current m)
    (shown : ∀ s ∈ knownSid m, s ∉ before.unseen task) :
    ∀ n ∈ before.registry.nodes.values, ∀ s ∈ knownSid m, knownSid n ≠ some s := by
  intro n member s sid same
  rcases covers n member s same with ⟨other, there, known⟩ | noted
  · apply admits.fresh other there
    have left : knownSid other = other.selfId := knownSid_eq (by rw [known]; rfl)
    rw [← left, known, ← knownSid_eq admits.known, Option.mem_def.mp sid]
  · exact shown s sid noted

theorem seeds_single {current : List Node} {m : Node} {value : Unit} (single : before.Single) (covers : Covers current task before)
    (admits : Admits current m) (law : (censusSystem me Census.Shown).commits task before (.updateRemote (seeded m)) value after) :
    after.Single ∧ ∀ other, Enrolling before after other := by
  obtain ⟨shown, registry, runs, rfl⟩ := law
  obtain rfl : registry = { before.registry with nodes := before.registry.nodes.insert (seeded m) } := runs
  have absent := seeds_absent covers admits shown
  constructor
  · intro a left b right aPeer bPeer s aSid bSid
    rcases NodeMap.mem_insert.mp left with rfl | ⟨aThere, -⟩
    · rcases NodeMap.mem_insert.mp right with rfl | ⟨bThere, -⟩
      · rfl
      · exact absurd bSid (absent b bThere s aSid)
    · rcases NodeMap.mem_insert.mp right with rfl | ⟨bThere, -⟩
      · exact absurd aSid (absent a aThere s bSid)
      · exact single a aThere b bThere aPeer bPeer s aSid bSid
  · intro other
    refine ⟨fun n member s sid => ?_, fun s noted => List.mem_append_right _ noted⟩
    rcases NodeMap.mem_insert.mp member with rfl | ⟨there, -⟩
    · exact .inr (List.mem_append_left _ (by simpa using sid))
    · exact .inl ⟨n, there, sid⟩

theorem mergesCensus {current : List Node} {program : Program Section Unit} (merges : Merges current none program) :
    (censusRules me task).Triple (Covers current task) program fun _ _ => True := by
  have free : ∀ _ : Node, (censusRules me task).Stable fun _ => True := fun _ _ _ _ _ _ _ => trivial
  refine Rules.Triple.weaken_post (Rules.Triple.weaken (Merges.triple (covers_stable current) free ?_ ?_ ?_ merges) ?_) ?_
  · intro before m buried after single covers law
    have plain : (Section.isTombstoned m).Plain := trivial
    obtain ⟨still, promise, kept⟩ := covers_step plain rfl single covers law
    exact ⟨still, promise, kept, fun _ => trivial⟩
  · intro before m value after single covers _ admits law
    obtain ⟨still, enrolling⟩ := seeds_single single covers admits law
    exact ⟨still, fun other _ => enrolling other, covers.enrolled (enrolling task)⟩
  · intro before id settings found after single covers law
    have plain : (Section.updateSettings id settings).Plain := trivial
    exact covers_step plain rfl single covers law
  · intro state _ covers
    exact ⟨covers, fun m member => by cases member⟩
  · intro _ _ _ _
    trivial

/-- In a run in which every merge is shown what it adds to, no node is in the list twice. -/
theorem one_record_each (me : Me) {c : Census} (reached : (censusSystem me Census.Shown).Reaches Census.Single c) : c.Single := by
  have sound : (censusSystem me Census.Shown).Sound Census.Single Census.Single censusPromise fun _ _ => True := by
    constructor
    · exact fun c single => ⟨single, fun _ => trivial⟩
    · rintro before after single ⟨secs, rfl⟩
      exact ⟨single, fun _ _ => trivial⟩
    · exact fun _ _ _ _ _ _ _ _ _ => trivial
    · intro task program body
      refine Membership.triple (fun current => Covers current task) ?_ ?_ (fun _ _ merges => mergesCensus merges) body
      · exact fun before β operation value after single kind law => census_step kind single law
      · exact fun before current after _ law => covers_copy law
    · exact fun _ _ _ _ => trivial
  exact sound.reaches reached

def Census.serve (allowed : Census → Nat → {β : Type} → Section β → Bool) (me : Me) (task : Nat) (_ : Nat) {β : Type} (c : Census)
    (operation : Section β) : Option (Census × β) :=
  if allowed c task operation = true then
    let ran := operation.run me c.now c.registry
    let unseen := c.noted task operation ran.2
    some ({ c with registry := ran.1, unseen }, ran.2)
  else none

theorem census_commits {allowed : Census → Nat → {β : Type} → Section β → Bool}
    {permitted : Census → Nat → {β : Type} → Section β → β → Prop}
    (checked : ∀ c task {β : Type} (operation : Section β), allowed c task operation = true →
      permitted c task operation (operation.run me c.now c.registry).2)
    (task : Nat) (index : Nat) {β : Type} (c : Census) (operation : Section β) (after : Census) (value : β)
    (served : Census.serve allowed me task index c operation = some (after, value)) :
    (censusSystem me permitted).commits task c operation value after := by
  simp only [Census.serve] at served
  split at served
  · rename_i may
    cases served
    exact ⟨checked c task operation may, _, operation.run_runs me c.now c.registry, rfl⟩
  · cases served

def showable (c : Census) (task : Nat) : {β : Type} → Section β → Bool
  | _, .updateRemote entry => (knownSid entry).all fun s => s ∉ c.unseen task
  | _, _ => true

theorem showable_shown (c : Census) (task : Nat) {β : Type} (operation : Section β) (may : showable c task operation = true) :
    c.Shown task operation (operation.run me c.now c.registry).2 := by
  cases operation with
  | updateRemote entry =>
    intro s sid
    simp only [showable, Option.mem_def.mp sid, Option.all_some] at may
    exact of_decide_eq_true may
  | _ => trivial

def freshCensus : Census := ⟨twoNodes, 1000, fun _ => []⟩

theorem freshCensus_single : freshCensus.Single := by
  have peers : ∀ n ∈ freshCensus.registry.nodes.values, n.isSelf = false → n = peer "n2" "10.0.0.2" "ws-2" := by decide
  intro a left b right aPeer bPeer _ _ _
  rw [peers a left aPeer, peers b right bPeer]

abbrev CensusTurn := Turn Census Section Nat Unit

def twoBundles : List CensusTurn :=
  [.start 0 (mergeMemberRefs thisNode [] [peer "m3" "10.0.0.3" "ws-3", peer "m4" "10.0.0.4" "ws-3"]),
    .start 1 (mergeMemberRefs thisNode [] [peer "m2" "10.0.1.2" "ws-2", peer "m5" "10.0.0.5" "ws-5"]),
    .advance 0 1, .advance 1 1, .advance 0 2, .advance 1 3, .finish 0, .finish 1]

def bothVariants : List CensusTurn :=
  Turn.whole 0 (pullGossip thisNode [] (fun _ => none) [peer "m3" "10.0.0.3" "ws-3", peer "m4" "10.0.0.4" "ws-3"]) 5

theorem one_record_each_sample : ∃ c, (censusSystem thisNode Census.Shown).Reaches Census.Single c ∧
    (c.registry.nodes.get "m3").isSome = true ∧ (c.registry.nodes.get "m5").isSome = true ∧ c.Single := by
  obtain ⟨c, reached, passed⟩ := @conduct_reaches _ _ _ _ _ (censusSystem thisNode Census.Shown) (Census.serve showable thisNode)
    Census.Single freshCensus freshCensus_single (census_commits showable_shown) twoBundles
    (by simp [twoBundles, Turn.Lawful, censusSystem, Membership.mergeMemberRefs])
    (fun c => (c.registry.nodes.get "m3").isSome && (c.registry.nodes.get "m5").isSome) (by decide)
  rw [Bool.and_eq_true] at passed
  exact ⟨c, reached, passed.1, passed.2, one_record_each thisNode reached⟩

/-- The second record is checked against the copy, which does not show the first. -/
theorem both_variants_added : ∃ c, (censusSystem thisNode fun _ _ _ _ _ => True).Reaches Census.Single c ∧ ¬c.Single := by
  obtain ⟨c, reached, passed⟩ := @conduct_reaches _ _ _ _ _ (censusSystem thisNode fun _ _ _ _ _ => True)
    (Census.serve (fun _ _ _ _ => true) thisNode) Census.Single freshCensus freshCensus_single (census_commits fun _ _ _ _ _ => trivial)
    bothVariants (by simp [bothVariants, Turn.whole, Turn.Lawful, censusSystem, Membership.pullGossip])
    (fun c => (c.registry.nodes.get "m3").any (fun n => !n.isSelf && knownSid n = some "ws-3") &&
      (c.registry.nodes.get "m4").any fun n => !n.isSelf && knownSid n = some "ws-3") (by decide)
  refine ⟨c, reached, fun single => ?_⟩
  simp only [Bool.and_eq_true, Option.any_eq_true, Bool.not_eq_true', decide_eq_true_eq] at passed
  obtain ⟨⟨a, aFound, aPeer, aSid⟩, b, bFound, bPeer, bSid⟩ := passed
  have same := single a (NodeMap.get_mem aFound) b (NodeMap.get_mem bFound) aPeer bPeer "ws-3" aSid bSid
  have left := NodeMap.get_id aFound
  rw [same, NodeMap.get_id bFound] at left
  exact absurd left (by decide)

end Cluster
