import WolfStack.Cluster.Merges
import WolfStack.Effects.Schedule

/-! Does a removed node stay away? Tombstones bear the ids of records, and the same node
may be known to other nodes under another record, by an id of its own. -/

namespace Cluster
open Effects
open Effects.Program (send)

/-- `removed` are the nodes that the operator has removed and not added again, by their own
ids; `since` are those removed after a task looked at the tombstones. -/
structure Roll where
  registry : Registry
  now : Nat
  removed : List String
  since : Nat → List String

def Roll.strikes (r : Roll) : {β : Type} → Section β → Option String
  | _, .remove id => (r.registry.nodes.get id).bind knownSid
  | _, _ => none

def Roll.Strikes (r : Roll) {β : Type} (operation : Section β) (removed : List String) : Prop :=
  match operation with
  | .addServer .. => ∃ added, removed = r.removed.filter fun s => s ≠ added
  | operation => removed = (r.strikes operation).toList ++ r.removed

def Roll.noted (r : Roll) (task : Nat) {β : Type} (operation : Section β) (other : Nat) : List String :=
  match operation with
  | .isTombstoned _ => if other = task then [] else r.since other
  | operation => (r.strikes operation).toList ++ r.since other

/-- A removed node is only heard of under a record with a tombstone, no entry is seeded
across the removal of its node, and a node is removed with its only record. -/
def Roll.Final (r : Roll) (task : Nat) : {β : Type} → Section β → β → Prop
  | _, .isTombstoned entry, buried => buried = false → ∀ s ∈ knownSid entry, s ∉ r.removed
  | _, .updateRemote entry, _ => ∀ s ∈ knownSid entry, s ∉ r.since task
  | _, .remove id, _ => ∀ n ∈ r.registry.nodes.values, n.id ≠ id →
      ∀ s ∈ (r.registry.nodes.get id).bind knownSid, knownSid n ≠ some s
  | _, _, _ => True

def rollSystem (me : Me) (permitted : Roll → Nat → {β : Type} → Section β → β → Prop) : System Roll Section Nat Unit where
  moves before after := ∃ secs, after = { before with now := before.now + secs }
  bodies _ := { task | Membership me task }
  commits task _ before operation value after := permitted before task operation value ∧ ∃ registry removed,
    operation.Runs me before.now before.registry value registry ∧ before.Strikes operation removed ∧
    after = { before with registry, removed, since := before.noted task operation }
  stops _ _ := False

def Roll.Absent (r : Roll) : Prop := ∀ n ∈ r.registry.nodes.values, ∀ s ∈ knownSid n, s ∉ r.removed

structure Noting (before after : Roll) (task : Nat) : Prop where
  removed : ∀ s ∈ after.removed, s ∈ before.removed ∨ s ∈ after.since task
  since : ∀ s ∈ before.since task, s ∈ after.since task

def rollPromise (task : Nat) (before after : Roll) : Prop := ∀ other, other ≠ task → Noting before after other

abbrev rollRules (me : Me) (task : Nat) : Rules Roll Section :=
  (rollSystem me Roll.Final).rules Roll.Absent rollPromise task

variable {me : Me} {task : Nat} {before after : Roll}

theorem strikes_noting {β : Type} {operation : Section β} {removed : List String} (strikes : before.Strikes operation removed)
    {other : Nat} (apart : other ≠ task) {registry : Registry} :
    Noting before { before with registry, removed, since := before.noted task operation } other := by
  cases operation with
  | addServer options id =>
    obtain ⟨added, rfl⟩ := strikes
    exact ⟨fun s member => .inl (List.mem_of_mem_filter member), fun s member => member⟩
  | remove id =>
    obtain rfl := strikes
    constructor
    · intro s member
      rcases List.mem_append.mp member with here | kept
      · exact .inr (List.mem_append_left _ here)
      · exact .inl kept
    · exact fun s member => List.mem_append_right _ member
  | isTombstoned entry =>
    obtain rfl := strikes
    exact ⟨fun s member => .inl member, fun s member => by simpa [Roll.noted, apart] using member⟩
  | _ =>
    obtain rfl := strikes
    exact ⟨fun s member => .inl member, fun s member => member⟩

theorem absent_plain {β : Type} {operation : Section β} {value : β} (plain : operation.Plain) (absent : before.Absent)
    (law : (rollSystem me Roll.Final).commits task before operation value after) : after.Absent := by
  obtain ⟨final, registry, removed, runs, strikes, rfl⟩ := law
  intro n member s sid struck
  rcases plain_origin plain runs member with none_ | ⟨old, there, origin⟩
  · rw [none_] at sid
    cases sid
  · rw [origin.sid] at sid
    have kept : s ∉ before.removed := absent old there s sid
    cases operation with
    | addServer options id =>
      obtain ⟨added, rfl⟩ := strikes
      exact kept (List.mem_of_mem_filter struck)
    | remove id =>
      obtain rfl := strikes
      rcases List.mem_append.mp struck with here | earlier
      · rw [runs.2] at member
        have apart := (NodeMap.mem_remove.mp member).2
        have gone : s ∈ (before.registry.nodes.get id).bind knownSid := by simpa [Roll.strikes] using here
        exact final n (NodeMap.mem_remove.mp member).1 apart s gone (origin.sid.trans sid)
      · exact kept earlier
    | updateRemote _ | updatePolled _ _ _ _ _ => exact plain.elim
    | _ =>
      obtain rfl := strikes
      exact kept struck

def Vetted (task : Nat) (entry : Node) (r : Roll) : Prop := ∀ s ∈ knownSid entry, s ∈ r.removed → s ∈ r.since task

theorem vetted_stable (entry : Node) : (rollRules me task).Stable (Vetted task entry) := by
  rintro before after _ _ (⟨secs, rfl⟩ | ⟨other, apart, promise⟩) holds
  · exact holds
  · intro s sid removed
    have noting := promise task apart.symm
    rcases noting.removed s removed with earlier | noted
    · exact noting.since s (holds s sid earlier)
    · exact noted

theorem plain_step {β : Type} {operation : Section β} {value : β} (plain : operation.Plain) (absent : before.Absent)
    (law : (rollSystem me Roll.Final).commits task before operation value after) : after.Absent ∧ rollPromise task before after := by
  refine ⟨absent_plain plain absent law, ?_⟩
  obtain ⟨-, registry, removed, -, strikes, rfl⟩ := law
  exact fun other apart => strikes_noting strikes apart

theorem mergesTriple {current : List Node} {program : Program Section Unit} (merges : Merges current none program) :
    (rollRules me task).Triple (fun _ => True) program fun _ _ => True := by
  refine Rules.Triple.weaken (Merges.triple (fun _ _ _ _ _ _ => trivial) vetted_stable ?_ ?_ ?_ merges)
    fun _ _ _ => ⟨trivial, fun m member => by cases member⟩
  · intro before m buried after absent _ law
    have plain : (Section.isTombstoned m).Plain := trivial
    obtain ⟨still, noted⟩ := plain_step plain absent law
    refine ⟨still, noted, trivial, ?_⟩
    obtain ⟨final, registry, removed, -, strikes, rfl⟩ := law
    obtain rfl := strikes
    exact fun none_ s sid struck => absurd struck (final none_ s sid)
  · rintro before m value after absent _ vetted admits ⟨final, registry, removed, runs, strikes, rfl⟩
    refine ⟨?_, fun other apart => strikes_noting strikes apart, trivial⟩
    obtain rfl := strikes
    rw [show registry = _ from runs]
    intro n member s sid struck
    rcases NodeMap.mem_insert.mp member with rfl | ⟨kept, -⟩
    · exact final s sid (vetted s sid struck)
    · exact absent n kept s sid struck
  · intro before id settings found after absent _ law
    have plain : (Section.updateSettings id settings).Plain := trivial
    obtain ⟨still, noted⟩ := plain_step plain absent law
    exact ⟨still, noted, trivial⟩

/-- In a run in which removed nodes are only heard of under ids that have a tombstone, no
record of a removed node is in the list. -/
theorem removed_stays_away (me : Me) {r : Roll} (reached : (rollSystem me Roll.Final).Reaches (fun r => r.removed = []) r) :
    r.Absent := by
  have sound : (rollSystem me Roll.Final).Sound (fun r => r.removed = []) Roll.Absent rollPromise fun _ _ => True := by
    constructor
    · intro r none_
      refine ⟨fun n _ s _ struck => ?_, fun _ => trivial⟩
      rw [none_] at struck
      cases struck
    · rintro before after absent ⟨secs, rfl⟩
      exact ⟨absent, fun _ _ => trivial⟩
    · exact fun _ _ _ _ _ _ _ _ _ => trivial
    · intro task program body
      refine Membership.triple (fun _ _ => True) ?_ (fun _ _ _ _ _ => trivial) (fun _ _ merges => mergesTriple merges) body
      exact fun before β operation value after absent kind law => plain_step kind absent law
    · exact fun _ _ _ _ => trivial
  exact sound.reaches reached

def Roll.serve (allowed : Roll → Nat → {β : Type} → Section β → Bool) (me : Me) (task : Nat) (_ : Nat) {β : Type} (r : Roll)
    (operation : Section β) : Option (Roll × β) :=
  if allowed r task operation = true then
    let ran := operation.run me r.now r.registry
    let removed := match operation with
      | .addServer .. => r.removed.filter fun s => s ≠ ""
      | operation => (r.strikes operation).toList ++ r.removed
    let since := r.noted task operation
    some ({ r with registry := ran.1, removed, since }, ran.2)
  else none

theorem roll_commits {allowed : Roll → Nat → {β : Type} → Section β → Bool}
    {permitted : Roll → Nat → {β : Type} → Section β → β → Prop}
    (checked : ∀ r task {β : Type} (operation : Section β), allowed r task operation = true →
      permitted r task operation (operation.run me r.now r.registry).2)
    (task : Nat) (index : Nat) {β : Type} (r : Roll) (operation : Section β) (after : Roll) (value : β)
    (served : Roll.serve allowed me task index r operation = some (after, value)) :
    (rollSystem me permitted).commits task r operation value after := by
  simp only [Roll.serve] at served
  split at served
  · rename_i may
    cases served
    refine ⟨checked r task operation may, _, _, operation.run_runs me r.now r.registry, ?_, rfl⟩
    cases operation with
    | addServer options id => exact ⟨"", rfl⟩
    | _ => exact rfl
  · cases served

def removable (r : Roll) (task : Nat) : {β : Type} → Section β → Bool
  | _, .isTombstoned entry => entry.id ∈ r.registry.deleted || (knownSid entry).all fun s => s ∉ r.removed
  | _, .updateRemote _ => r.since task = []
  | _, .remove id => r.registry.nodes.values.all fun n => n.id = id || (knownSid n).isNone ||
      knownSid n ≠ (r.registry.nodes.get id).bind knownSid
  | _, _ => true

theorem removable_final (r : Roll) (task : Nat) {β : Type} (operation : Section β) (may : removable r task operation = true) :
    r.Final task operation (operation.run me r.now r.registry).2 := by
  cases operation with
  | isTombstoned entry =>
    intro none_ s sid struck
    have unburied : entry.id ∉ r.registry.deleted := of_decide_eq_false none_
    simp only [removable, unburied, decide_false, Bool.false_or] at may
    rw [Option.mem_def.mp sid, Option.all_some] at may
    exact of_decide_eq_true may struck
  | updateRemote entry =>
    have none_ : r.since task = [] := of_decide_eq_true may
    intro s _ noted
    rw [none_] at noted
    cases noted
  | remove id =>
    intro n member apart s gone same
    have other := List.all_eq_true.mp may n member
    rw [same, Option.mem_def.mp gone] at other
    simp [apart] at other
  | _ => trivial

def peer (id address sid : String) : Node := { sampleNode id address with joinVerified := false, selfId := some sid }

def thisNode : Me := ⟨"n1", "10.0.0.1", "n1", 8553⟩

def twoNodes : Registry where
  nodes := (NodeMap.empty.insert (peer "n2" "10.0.0.2" "ws-2")).insert { peer "n1" "10.0.0.1" "n1" with isSelf := true }
  deleted := []

def freshRoll : Roll := ⟨twoNodes, 1000, [], fun _ => []⟩

abbrev RollTurn := Turn Roll Section Nat Unit

def removing : Program Section Unit := (removeServer "n2").bind fun _ => .pure ()

def sameRecord : List RollTurn := Turn.whole 0 removing 2 ++
  Turn.whole 1 (mergeMemberRefs thisNode [] [peer "n2" "10.0.0.2" "ws-2", peer "n3" "10.0.0.3" "ws-3"]) 10

def otherRecord : List RollTurn := Turn.whole 0 removing 2 ++
  Turn.whole 1 (mergeMemberRefs thisNode [] [peer "m7" "10.0.0.2" "ws-2"]) 10

theorem removed_stays_away_sample : ∃ r, (rollSystem thisNode Roll.Final).Reaches (fun r => r.removed = []) r ∧
    r.removed = ["ws-2"] ∧ (r.registry.nodes.get "n3").isSome = true ∧ r.Absent := by
  obtain ⟨r, reached, passed⟩ := @conduct_reaches _ _ _ _ _ (rollSystem thisNode Roll.Final) (Roll.serve removable thisNode)
    (fun r => r.removed = []) freshRoll rfl (roll_commits removable_final) sameRecord
    (by simp [sameRecord, removing, Turn.whole, Turn.Lawful, rollSystem, Membership.removeServer, Membership.mergeMemberRefs])
    (fun r => decide (r.removed = ["ws-2"]) && (r.registry.nodes.get "n3").isSome) (by decide +kernel)
  simp only [Bool.and_eq_true, decide_eq_true_eq] at passed
  exact ⟨r, reached, passed.1, passed.2, removed_stays_away thisNode reached⟩

/-- The tombstone bears an id that the peer's record does not have. -/
theorem removed_comes_back : ∃ r, (rollSystem thisNode fun _ _ _ _ _ => True).Reaches (fun r => r.removed = []) r ∧
    r.removed = ["ws-2"] ∧ ¬r.Absent := by
  obtain ⟨r, reached, passed⟩ := @conduct_reaches _ _ _ _ _ (rollSystem thisNode fun _ _ _ _ _ => True)
    (Roll.serve (fun _ _ _ _ => true) thisNode) (fun r => r.removed = []) freshRoll rfl (roll_commits fun _ _ _ _ _ => trivial)
    otherRecord
    (by simp [otherRecord, removing, Turn.whole, Turn.Lawful, rollSystem, Membership.removeServer, Membership.mergeMemberRefs])
    (fun r => decide (r.removed = ["ws-2"]) && r.registry.nodes.values.any fun n => knownSid n = some "ws-2") (by decide +kernel)
  simp only [Bool.and_eq_true, decide_eq_true_eq] at passed
  refine ⟨r, reached, passed.1, fun absent => ?_⟩
  obtain ⟨n, member, same⟩ := List.any_eq_true.mp passed.2
  refine absent n member "ws-2" (of_decide_eq_true same) ?_
  rw [passed.1]
  exact List.mem_cons_self

end Cluster
