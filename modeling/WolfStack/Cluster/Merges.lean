import WolfStack.Cluster.Poll
import WolfStack.Effects.Rules

/-! The two merges by which gossip adds records, seen as one kind of program: each entry
is looked up among the tombstones before it is seeded, and is not in the copy of the list. -/

namespace Cluster
open Effects
open Effects.Program (send)

structure Admits (current : List Node) (m : Node) : Prop where
  known : (knownSid m).isSome = true
  fresh : ∀ n ∈ current, n.selfId ≠ m.selfId
  near : isPrivateAddress m.address = true

/-- `vetted` is the entry that was looked up last and has no tombstone. -/
inductive Merges (current : List Node) : Option Node → Program Section Unit → Prop
  | done {vetted} : Merges current vetted (.pure ())
  | lookUp {vetted m next} (buried : Merges current none (next true)) (clear : Merges current (some m) (next false)) :
      Merges current vetted (.request (.isTombstoned m) next)
  | seed {m next} (admits : Admits current m) (rest : Merges current none (next ())) :
      Merges current (some m) (.request (.updateRemote (seeded m)) next)
  | mirror {vetted id settings next} (rest : ∀ found, Merges current none (next found)) :
      Merges current vetted (.request (.updateSettings id settings) next)

variable {current : List Node}

theorem Merges.any {program : Program Section Unit} (merges : Merges current none program) (vetted : Option Node) :
    Merges current vetted program := by
  cases merges with
  | done => exact .done
  | lookUp buried clear => exact .lookUp buried clear
  | mirror rest => exact .mirror rest

theorem Merges.bind {vetted : Option Node} {program : Program Section Unit} {next : Unit → Program Section Unit}
    (merges : Merges current vetted program) (rest : Merges current none (next ())) : Merges current vetted (program.bind next) := by
  induction merges with
  | done => exact rest.any _
  | lookUp _ _ buried clear => exact .lookUp buried clear
  | seed admits _ ih => exact .seed admits ih
  | mirror _ ih => exact .mirror ih

theorem knownSid_eq {m : Node} (known : (knownSid m).isSome = true) : knownSid m = m.selfId := by
  unfold knownSid at known ⊢
  cases sid : m.selfId with
  | none => rfl
  | some s =>
    rw [sid, Option.filter_some] at known
    rw [Option.filter_some]
    split at known
    · rename_i named
      rw [if_pos named]
    · cases known

theorem admits_of_member (me : Me) (localAddrs : List String) {m : Node} (passed : passedOver me localAddrs m = false)
    (unknown : memberKnown current m = false) (near : isPrivateAddress m.address = true) : Admits current m := by
  refine ⟨?_, ?_, near⟩
  · simp only [passedOver, Bool.or_eq_false_iff] at passed
    have sid : (knownSid m).isNone = false := passed.1.1.1.1.1.2
    simpa using sid
  · intro n member same
    have other := List.any_eq_false.mp unknown n member
    simp [same] at other

theorem mergeMembers_merges (me : Me) (localAddrs : List String) (added : List (Option String)) (members : List Node) :
    Merges current none (mergeMembers me localAddrs current added members) := by
  induction members generalizing added with
  | nil => exact .done
  | cons m rest ih =>
    unfold mergeMembers
    split
    · exact ih added
    · rename_i kept
      refine .lookUp (ih added) ?_
      change Merges current (some m) (if memberKnown current m = true ∨ isPrivateAddress m.address = false then _ else _)
      split
      · exact (ih added).any _
      · rename_i fresh
        rw [not_or] at kept fresh
        refine .seed (admits_of_member me localAddrs ?_ ?_ ?_) (ih _)
        · exact Bool.eq_false_iff.mpr kept.1
        · exact Bool.eq_false_iff.mpr fresh.1
        · exact Bool.eq_true_of_not_eq_false fresh.2

theorem pullOne_merges (me : Me) (localAddrs : List String) (intents : String → Option IdentityIntent) (known : Node) :
    Merges current none (pullOne me localAddrs intents current known) := by
  unfold pullOne
  dsimp only
  split
  · split
    · unfold adoptDisplayName
      split
      · exact .done
      · exact .mirror fun _ => .done
    · exact .done
  · split
    · exact .done
    · refine .lookUp .done ?_
      rw [Program.pure_bind, if_neg Bool.false_ne_true]
      split
      · split
        · exact .mirror fun _ => .done
        · exact .done
      · unfold pullNew
        split
        · exact .done
        · rename_i fresh
          rw [not_or, not_or] at fresh
          have sid : (knownSid known).isSome = true := by simpa [Option.isSome_iff_ne_none] using fresh.2.1
          refine .seed ⟨sid, ?_, Bool.eq_true_of_not_eq_false fresh.2.2⟩ .done
          intro n member same
          have other := List.any_eq_false.mp (Bool.eq_false_iff.mpr fresh.1) n member
          rw [knownSid_eq sid] at other sid
          simp [sid, same] at other

theorem pullAll_merges (me : Me) (localAddrs : List String) (intents : String → Option IdentityIntent) (knownNodes : List Node) :
    Merges current none (pullAll me localAddrs intents current knownNodes) := by
  induction knownNodes with
  | nil => exact .done
  | cons known rest ih => exact (pullOne_merges me localAddrs intents known).bind ih

/-- What holds throughout a merge, where it holds of an entry that is clear and is kept by
the three requests that a merge makes. -/
theorem Merges.triple {σ : Type} {rules : Rules σ Section} {base : σ → Prop} {clear : Node → σ → Prop} (still : rules.Stable base)
    (last : ∀ m, rules.Stable (clear m))
    (looks : ∀ before m buried after, rules.valid before → base before → rules.commits before (.isTombstoned m) buried after →
      rules.valid after ∧ rules.guarantee before after ∧ base after ∧ (buried = false → clear m after))
    (seeds : ∀ before m value after, rules.valid before → base before → clear m before → Admits current m →
      rules.commits before (.updateRemote (seeded m)) value after →
      rules.valid after ∧ rules.guarantee before after ∧ base after)
    (mirrors : ∀ before id settings found after, rules.valid before → base before →
      rules.commits before (.updateSettings id settings) found after →
      rules.valid after ∧ rules.guarantee before after ∧ base after)
    {vetted : Option Node} {program : Program Section Unit} (merges : Merges current vetted program) :
    rules.Triple (fun s => base s ∧ ∀ m ∈ vetted, clear m s) program fun _ => base := by
  have stable : ∀ vetted : Option Node, rules.Stable fun s => base s ∧ ∀ m ∈ vetted, clear m s :=
    fun vetted before after kept now moved holds =>
      ⟨still before after kept now moved holds.1, fun m member => last m before after kept now moved (holds.2 m member)⟩
  have alone : ∀ s, base s → base s ∧ ∀ m ∈ (none : Option Node), clear m s :=
    fun s holds => ⟨holds, fun m member => by cases member⟩
  induction merges with
  | done => exact .pure () (stable _) fun _ _ holds => holds.1
  | @lookUp vetted m next _ _ buried clear_ =>
    refine Rules.Triple.leading (fun value s => base s ∧ (value = false → clear m s)) (stable vetted) ?_ fun value => ?_
    · exact fun before value after valid holds law => looks before m value after valid holds.1 law
    · cases value with
      | true => exact buried.weaken fun s _ holds => alone s holds.1
      | false =>
        refine clear_.weaken fun s _ holds => ⟨holds.1, fun other member => ?_⟩
        cases member
        exact holds.2 rfl
  | @seed m next admits _ ih =>
    refine Rules.Triple.leading (fun _ => base) (stable (some m)) ?_ fun _ => ih.weaken fun s _ holds => alone s holds
    exact fun before value after valid holds law => seeds before m value after valid holds.1 (holds.2 m rfl) admits law
  | @mirror vetted id settings next _ ih =>
    refine Rules.Triple.leading (fun _ => base) (stable vetted) ?_ fun found => (ih found).weaken fun s _ holds => alone s holds
    exact fun before found after valid holds law => mirrors before id settings found after valid holds.1 law

/-- Sections that put in no record of gossip. -/
def Section.Plain : {β : Type} → Section β → Prop
  | _, .updateRemote _ | _, .updatePolled .. => False
  | _, _ => True

structure Origin (n old : Node) : Prop where
  id : n.id = old.id
  isSelf : n.isSelf = old.isSelf
  sid : knownSid n = knownSid old

theorem Origin.refl (n : Node) : Origin n n := ⟨rfl, rfl, rfl⟩

theorem origin_modify {nodes : NodeMap} {id : String} {change : NodeMap.Change} (same : ∀ n, Origin (change.apply n) n)
    {n : Node} (member : n ∈ (nodes.modify id change).values) : ∃ old ∈ nodes.values, Origin n old := by
  rcases NodeMap.mem_modify.mp member with ⟨kept, -⟩ | ⟨old, kept, -, rfl⟩
  · exact ⟨n, kept, .refl n⟩
  · exact ⟨old, kept, same old⟩

theorem keyReset_origin (n : Node) : Origin (keyReset.apply n) n := by
  simp only [keyReset]
  split
  · exact .refl n
  · exact ⟨rfl, rfl, rfl⟩

theorem plain_origin {me : Me} {s after : Registry} {now : Nat} {β : Type} {operation : Section β} {value : β}
    (plain : operation.Plain) (runs : operation.Runs me now s value after) {n : Node} (member : n ∈ after.nodes.values) :
    knownSid n = none ∨ ∃ old ∈ s.nodes.values, Origin n old := by
  cases operation with
  | allNodes | getNode _ | isTombstoned _ | mergeDeleted _ =>
    rw [runs.2] at member
    exact .inr ⟨n, member, .refl n⟩
  | updateSettings id settings =>
    rw [runs.2] at member
    exact .inr (origin_modify (fun _ => ⟨rfl, rfl, rfl⟩) member)
  | resetKey id =>
    rw [runs.2] at member
    exact .inr (origin_modify keyReset_origin member)
  | markVerified id | touch id =>
    rw [show after = _ from runs] at member
    exact .inr (origin_modify (fun _ => ⟨rfl, rfl, rfl⟩) member)
  | addServer options id =>
    rcases runs with ⟨-, -, -, -, rfl⟩ | ⟨-, -, rfl⟩
    · exact .inr ⟨n, member, .refl n⟩
    · rcases NodeMap.mem_insert.mp member with rfl | ⟨kept, -⟩
      · exact .inl rfl
      · exact .inr ⟨n, kept, .refl n⟩
  | remove id =>
    rw [runs.2] at member
    exact .inr ⟨n, (NodeMap.mem_remove.mp member).1, .refl n⟩
  | insertTombstone id =>
    rw [show after = _ from runs] at member
    exact .inr ⟨n, member, .refl n⟩
  | dropTombstoned =>
    rw [show after = _ from runs] at member
    exact .inr ⟨n, (NodeMap.mem_filter.mp member).1, .refl n⟩
  | updateRemote _ | updatePolled _ _ _ _ _ => exact plain.elim

inductive Membership (me : Me) : Program Section Unit → Prop
  | removeServer (id : String) : Membership me ((removeServer id).bind fun _ => .pure ())
  | addServer (address : String) (port : Nat) (clusterName : Option String) (random : String) :
      Membership me ((addServer address port clusterName random).bind fun _ => .pure ())
  | updateNodeSettings (id : String) (settings : NodeSettings) :
      Membership me ((updateNodeSettings id settings).bind fun _ => .pure ())
  | mergeTombstones (remoteDeleted : List String) : Membership me (mergeTombstones remoteDeleted)
  | mergeMemberRefs (localAddrs : List String) (members : List Node) : Membership me (mergeMemberRefs me localAddrs members)
  | pullGossip (localAddrs : List String) (intents : String → Option IdentityIntent) (knownNodes : List Node) :
      Membership me (pullGossip me localAddrs intents knownNodes)

theorem membership_shape {me : Me} {program : Program Section Unit} (membership : Membership me program) :
    program.Yields Section.Plain (fun _ => True) ∨
      ∃ next, program = .request .allNodes next ∧ ∀ current, Merges current none (next current) := by
  cases membership with
  | removeServer id =>
    refine .inl ⟨trivial, fun removed => ?_⟩
    cases removed with
    | true => exact ⟨trivial, fun _ => trivial⟩
    | false => trivial
  | addServer address port clusterName random => exact .inl ⟨trivial, fun _ => ⟨trivial, fun _ => trivial⟩⟩
  | updateNodeSettings id settings => exact .inl ⟨trivial, fun _ => trivial⟩
  | mergeTombstones remoteDeleted =>
    refine .inl ⟨trivial, fun changed => ?_⟩
    cases changed with
    | true => exact ⟨trivial, fun _ => trivial⟩
    | false => trivial
  | mergeMemberRefs localAddrs members => exact .inr ⟨_, rfl, fun _ => mergeMembers_merges me localAddrs [] members⟩
  | pullGossip localAddrs intents knownNodes => exact .inr ⟨_, rfl, fun _ => pullAll_merges me localAddrs intents knownNodes⟩

/-- Whatever is done to the list is safe where plain sections are, and where merges are once
they have their copy. -/
theorem Membership.triple {σ : Type} {rules : Rules σ Section} {me : Me} (middle : List Node → σ → Prop)
    (plain : ∀ before {β : Type} (operation : Section β) value after, rules.valid before → operation.Plain →
      rules.commits before operation value after → rules.valid after ∧ rules.guarantee before after)
    (copies : ∀ before current after, rules.valid before → rules.commits before .allNodes current after → middle current after)
    (merges : ∀ current program, Merges current none program → rules.Triple (middle current) program fun _ _ => True)
    {program : Program Section Unit} (membership : Membership me program) :
    rules.Triple (fun _ => True) program fun _ _ => True := by
  have free : rules.Stable fun _ => True := fun _ _ _ _ _ _ => trivial
  rcases membership_shape membership with sections | ⟨next, rfl, shape⟩
  · refine (Rules.Triple.yields sections free ?_).weaken_post fun _ _ _ _ => trivial
    intro before β operation value after valid _ kind law
    obtain ⟨kept, guarantee⟩ := plain before operation value after valid kind law
    exact ⟨kept, guarantee, trivial⟩
  · refine Rules.Triple.leading middle free ?_ fun current => merges current (next current) (shape current)
    intro before current after valid _ law
    have copy : Section.allNodes.Plain := trivial
    obtain ⟨kept, guarantee⟩ := plain before .allNodes current after valid copy law
    exact ⟨kept, guarantee, copies before current after valid law⟩

end Cluster
