import WolfStack.Cluster.Poll
import WolfStack.Effects.Schedule

/-! Does a poll undo what an operator does to a node meanwhile? What the operator wants is
written down field by field, beside the list that everybody changes. -/

namespace Cluster
open Effects
open Effects.Program (send)

inductive Field where
  | address
  | port
  | migrationAddress
  | clusterName
  | loginDisabled
  | updateScript
  | joinVerified
  | manager
  | pubkey
deriving DecidableEq

abbrev Field.Value : Field → Type
  | .address => String
  | .port => Nat
  | .migrationAddress | .clusterName | .updateScript | .pubkey => Option String
  | .loginDisabled | .joinVerified | .manager => Bool

def Node.owned (n : Node) : (f : Field) → f.Value
  | .address => n.address
  | .port => n.port
  | .migrationAddress => n.migrationAddress
  | .clusterName => n.clusterName
  | .loginDisabled => n.loginDisabled
  | .updateScript => n.updateScript
  | .joinVerified => n.joinVerified
  | .manager => n.manager
  | .pubkey => n.pubkey

abbrev Wants := String → (f : Field) → Option f.Value

def NodeSettings.sets (settings : NodeSettings) : Field → Bool
  | .address => settings.address.isSome
  | .port => settings.port.isSome
  | .migrationAddress => settings.migrationAddress.isSome
  | .clusterName => settings.clusterName.isSome
  | .loginDisabled => settings.loginDisabled.isSome
  | .updateScript => settings.updateScript.isSome
  | .manager => settings.manager.isSome
  | .joinVerified | .pubkey => false

def Section.looks : {β : Type} → Section β → Bool
  | _, .getNode _ => true
  | _, _ => false

/-- The fields that an operator's section gives. -/
def Section.gives (task : Option Nat) : {β : Type} → Section β → String → Field → Bool
  | _, .updateSettings id settings, other, f => task.isSome && other = id && settings.sets f
  | _, .resetKey id, other, f => other = id && f = .pubkey
  | _, .markVerified id, other, f => other = id && f = .joinVerified
  | _, _, _, _ => false

def Section.removes : {β : Type} → Section β → String → Bool
  | _, .remove id, other => other = id
  | _, _, _ => false

def Section.marks : {β : Type} → Section β → String → Bool
  | _, .insertTombstone id, other => other = id
  | _, _, _ => false

/-- `wants` are the values the operator has given, `gone` the records taken off. What operators have changed and
removed since the poll's cycle began, what they have changed since it looked at a record last, and which records
have been removed but have no tombstone yet. -/
structure Watch where
  registry : Registry
  now : Nat
  wants : Wants
  gone : List String
  changed : String → Field → Bool
  late : String → Field → Bool
  removed : String → Bool
  pending : String → Bool

def Wants.forget (wants : Wants) (id : String) : Wants := Function.update wants id fun _ => none

def Wants.put (wants : Wants) (id : String) (f : Field) (value : f.Value) : Wants :=
  Function.update wants id (Function.update (wants id) f (some value))

/-- Where a key is wished, what it is once a reported key is pinned. -/
def Wants.repin (wants : Wants) (id : String) (reported : Option String) : Wants :=
  Function.update wants id (Function.update (wants id) .pubkey ((wants id .pubkey).map fun key : Option String => pin key reported))

/-- What a section makes of the wishes. The poll's own edits are not wishes; where the key is wished to be none,
the key of the next report is pinned, and a record that goes takes its wishes along. -/
def Watch.wished (w : Watch) (task : Option Nat) : {β : Type} → Section β → Wants
  | _, .updateSettings id settings =>
    match task, w.registry.nodes.get id with
    | some _, some n =>
      Function.update w.wants id fun f => if settings.sets f then some ((settings.change.apply n).owned f) else w.wants id f
    | _, _ => w.wants
  | _, .updatePolled node _ _ report _ => w.wants.repin node.id report.pubkey
  | _, .resetKey id =>
    if (w.registry.nodes.get id).any fun n => !n.isSelf then w.wants.put id .pubkey none else w.wants
  | _, .markVerified id => if (w.registry.nodes.get id).isSome then w.wants.put id .joinVerified true else w.wants
  | _, .addServer options id => if w.registry.nodes.values.any (sameServer options) then w.wants else w.wants.forget id
  | _, .remove id => w.wants.forget id
  | _, .dropTombstoned => fun id f => if id ∈ w.registry.deleted then none else w.wants id f
  | _, _ => w.wants

def Watch.takenOff (w : Watch) (task : Option Nat) : {β : Type} → Section β → List String
  | _, .remove id => if task.isSome ∧ (w.registry.nodes.get id).isSome then id :: w.gone else w.gone
  | _, .addServer options id => if w.registry.nodes.values.any (sameServer options) then w.gone else w.gone.filter fun g => g ≠ id
  | _, _ => w.gone

def Watch.record (w : Watch) (task : Option Nat) {β : Type} (operation : Section β) (registry : Registry) : Watch where
  registry := registry
  now := w.now
  wants := w.wished task operation
  gone := w.takenOff task operation
  changed id f := w.changed id f || operation.gives task id f
  late id f := !(task.isNone && operation.looks) && (w.late id f || operation.gives task id f)
  removed id := w.removed id || (task.isSome && operation.removes id)
  pending id := (w.pending id && !operation.marks id) || (task.isSome && operation.removes id && (w.registry.nodes.get id).isSome)

/-- A cycle of the poll begins with the question for this node's interval. -/
def Watch.asked (w : Watch) : {β : Type} → Ask β → Watch
  | _, .selfInterval => { w with changed := fun _ _ => false, removed := fun _ => false }
  | _, _ => w

/-- A gossiped entry has what an operator has given of the address, where it can be used, the port, and the
cluster, where it names one. -/
def Watch.Agrees (w : Watch) (known : Node) : Prop :=
  (isUsableAddr known.address = true → ∀ address ∈ w.wants known.id .address, known.address = address) ∧
    (∀ port ∈ w.wants known.id .port, known.port = port) ∧
    (known.clusterName.isSome = true → ∀ cluster ∈ w.wants known.id .clusterName, known.clusterName = cluster)

/-- From the beginning of a poll's cycle to what it writes to a record, no operator removes the record or changes a
field that is written, and from the look at the record no operator changes its key or its policy. Gossip agrees with
the operator where it is read, while no removal waits for its tombstone; and the copies that the poll makes pass over
no record that an operator has changed. -/
def Watch.Respects (me : Me) (w : Watch) (task : Option Nat) : {β : Type} → Section β → Prop
  | _, .allNodes => ∀ n ∈ w.registry.nodes.values, n.id ∈ (allNodes me w.now w.registry.nodes).map Node.id ∨
      ∀ f, (w.wants n.id f).isNone = true
  | _, .isTombstoned known => w.pending known.id = false ∧ w.Agrees known
  | _, .updatePolled node _ _ _ _ => w.removed node.id = false ∧
      ∀ f, (if f = .pubkey ∨ f = .manager then w.late node.id f else w.changed node.id f) = false
  | _, .updateRemote entry => w.removed entry.id = false ∧ ∀ f, w.changed entry.id f = false
  | _, .updateSettings id settings => task = none → ∀ f, settings.sets f = true → w.changed id f = false
  | _, _ => True

inductive Operation : Poll Unit → Prop
  | settings (id : String) (settings : NodeSettings) : Operation ((updateNodeSettings id settings).first.bind fun _ => .pure ())
  | resetKey (id : String) : Operation ((Program.first (send (Section.resetKey id))).bind fun _ => .pure ())
  | remove (id : String) : Operation ((removeServer id).first.bind fun _ => .pure ())
  | add (address : String) (port : Nat) (clusterName : Option String) (random : String) :
      Operation ((addServer address port clusterName random).first.bind fun _ => .pure ())

def pollSystem (me : Me) (permitted : Watch → Option Nat → {β : Type} → Section β → Prop) :
    System Watch (Joint Section Ask) (Option Nat) Unit where
  moves before after := ∃ secs, after = { before with now := before.now + secs }
  bodies
    | none => { pollRemoteNodes me }
    | some _ => { task | Operation task }
  commits task _ before operation value after :=
    match operation with
    | .first operation => permitted before task operation ∧ ∃ registry,
        operation.Runs me before.now before.registry value registry ∧ after = before.record task operation registry
    | .second operation => after = before.asked operation
  stops _ _ := False

/-- Every field is as wanted, and what was taken off is absent. -/
structure Held (nodes : NodeMap) (wants : Wants) (gone : List String) : Prop where
  wanted : ∀ id f value, wants id f = some value → ∃ n, nodes.get id = some n ∧ n.owned f = value
  absent : ∀ id ∈ gone, nodes.get id = none

def Watch.Kept (w : Watch) : Prop := Held w.registry.nodes w.wants w.gone

structure Watch.Quiet (w : Watch) : Prop where
  wants : ∀ id f, w.wants id f = none
  gone : w.gone = []

/-! ### Steps -/

theorem settings_owned {settings : NodeSettings} {f : Field} (unset : settings.sets f = false) (n : Node) :
    (settings.change.apply n).owned f = n.owned f := by
  cases f with
  | joinVerified | pubkey => rfl
  | address | port | loginDisabled | manager =>
    simp only [NodeSettings.sets, Option.isSome_eq_false_iff, Option.isNone_iff_eq_none] at unset
    simp [NodeSettings.change, Node.owned, unset]
  | migrationAddress | clusterName | updateScript =>
    simp only [NodeSettings.sets, Option.isSome_eq_false_iff, Option.isNone_iff_eq_none] at unset
    simp [NodeSettings.change, Node.owned, unset]

theorem polled_owned (node : Node) (liveKey : Option String) (liveManager : Bool) (report : StatusReport) (tls : Bool) (now : Nat)
    {f : Field} (key : f ≠ .pubkey) (policy : f ≠ .manager) :
    (polled node liveKey liveManager report tls now).owned f = node.owned f := by
  cases f with
  | pubkey => exact absurd rfl key
  | manager => exact absurd rfl policy
  | _ => rfl

theorem repin_other {wants : Wants} {id other : String} {reported : Option String} {f : Field} (apart : id = other → f ≠ .pubkey) :
    wants.repin other reported id f = wants id f := by
  by_cases here : id = other
  · subst here
    simp [Wants.repin, apart rfl]
  · simp [Wants.repin, here]

theorem repin_key (wants : Wants) (id : String) (reported : Option String) :
    wants.repin id reported id .pubkey = (wants id .pubkey).map fun key : Option String => pin key reported := by
  simp [Wants.repin]

namespace Held
variable {nodes : NodeMap} {wants wishes : Wants} {gone : List String} {id : String}

theorem present (held : Held nodes wants gone) {f : Field} {value : f.Value} (wanted : wants id f = some value) :
    (nodes.get id).isSome = true := by
  obtain ⟨n, found, -⟩ := held.wanted id f value wanted
  rw [found, Option.isSome_some]

theorem modify (held : Held nodes wants gone) {change : NodeMap.Change}
    (others : ∀ other f, other ≠ id → wishes other f = wants other f)
    (met : ∀ f value n, wishes id f = some value → nodes.get id = some n → (change.apply n).owned f = value)
    (there : ∀ f value, wishes id f = some value → (nodes.get id).isSome = true) : Held (nodes.modify id change) wishes gone := by
  constructor
  · intro other f value wanted
    rw [NodeMap.get_modify]
    split
    · rename_i same
      subst other
      obtain ⟨n, found⟩ := Option.isSome_iff_exists.mp (there f value wanted)
      exact ⟨change.apply n, by rw [found, Option.map_some], met f value n wanted found⟩
    · rename_i apart
      exact held.wanted other f value (others other f apart ▸ wanted)
  · intro other taken
    rw [NodeMap.get_modify]
    split
    · rw [held.absent other taken, Option.map_none]
    · exact held.absent other taken

theorem insert (held : Held nodes wants gone) {node : Node} (present : node.id ∉ gone)
    (others : ∀ other f, other ≠ node.id → wishes other f = wants other f)
    (met : ∀ f value, wishes node.id f = some value → node.owned f = value) : Held (nodes.insert node) wishes gone := by
  constructor
  · intro other f value wanted
    rw [NodeMap.get_insert]
    split
    · rename_i same
      subst other
      exact ⟨node, rfl, met f value wanted⟩
    · rename_i apart
      exact held.wanted other f value (others other f apart ▸ wanted)
  · intro other taken
    rw [NodeMap.get_insert]
    split
    · rename_i same
      exact absurd (same ▸ taken) present
    · exact held.absent other taken

theorem remove (held : Held nodes wants gone) {gone' : List String} (taken : ∀ other ∈ gone', other = id ∨ other ∈ gone) :
    Held (nodes.remove id) (wants.forget id) gone' := by
  constructor
  · intro other f value wanted
    rw [NodeMap.get_remove]
    split
    · rename_i same
      subst other
      simp [Wants.forget] at wanted
    · rename_i apart
      exact held.wanted other f value (by simpa [Wants.forget, apart] using wanted)
  · intro other member
    rw [NodeMap.get_remove]
    split
    · rfl
    · rename_i apart
      exact held.absent other ((taken other member).resolve_left apart)

theorem unowned (held : Held nodes wants gone) {change : NodeMap.Change}
    (same : ∀ n, nodes.get id = some n → ∀ f value, wants id f = some value → n.owned f = value → (change.apply n).owned f = value) :
    Held (nodes.modify id change) wants gone := by
  refine held.modify (fun _ _ _ => rfl) (fun f value n wanted found => ?_) fun f value wanted => held.present wanted
  obtain ⟨other, there, owned⟩ := held.wanted id f value wanted
  cases found.symm.trans there
  exact same n found f value wanted owned

theorem put (held : Held nodes wants gone) {change : NodeMap.Change} {n : Node} (found : nodes.get id = some n) (f : Field)
    {value : f.Value} (met : (change.apply n).owned f = value) (same : ∀ g, g ≠ f → (change.apply n).owned g = n.owned g) :
    Held (nodes.modify id change) (wants.put id f value) gone := by
  apply held.modify
  · intro other g apart
    simp [Wants.put, apart]
  · intro g wish other wanted there
    cases found.symm.trans there
    by_cases here : g = f
    · subst g
      simp only [Wants.put, Function.update_self, Option.some.injEq] at wanted
      rw [met, wanted]
    · simp only [Wants.put, Function.update_self, Function.update_of_ne here] at wanted
      obtain ⟨old, present, owned⟩ := held.wanted id g wish wanted
      cases found.symm.trans present
      exact (same g here).trans owned
  · intro _ _ _
    rw [found, Option.isSome_some]

end Held

variable {me : Me} {w before after : Watch} {registry : Registry} {id : String}

theorem Watch.Kept.polled (kept : w.Kept) {node : Node} {key : Option String} {manager : Bool} (report : StatusReport) (tls : Bool)
    (present : node.id ∉ w.gone)
    (owned : ∀ f, f ≠ .pubkey → f ≠ .manager → ∀ value, w.wants node.id f = some value → node.owned f = value)
    (keyed : ∀ value, w.wants node.id .pubkey = some value → key = value)
    (policed : ∀ value, w.wants node.id .manager = some value → manager = value) :
    Held (w.registry.nodes.insert (Cluster.polled node key manager report tls w.now))
      (w.wished none (.updatePolled node key manager report tls)) w.gone := by
  refine Held.insert kept ?_ ?_ ?_
  · exact present
  · intro other f apart
    exact repin_other fun same => absurd same apart
  · intro f wish wanted
    replace wanted : w.wants.repin node.id report.pubkey node.id f = some wish := wanted
    cases f with
    | pubkey =>
      rw [repin_key] at wanted
      obtain ⟨old, wished, rfl⟩ := Option.map_eq_some_iff.mp wanted
      rw [← keyed old wished]
      rfl
    | manager => exact policed wish ((repin_other (by simp)).symm.trans wanted)
    | _ =>
      rw [polled_owned _ _ _ _ _ _ (by simp) (by simp)]
      exact owned _ (by simp) (by simp) wish ((repin_other (by simp)).symm.trans wanted)

theorem Watch.Kept.edited (kept : w.Kept) (index : Nat) (id : String) (settings : NodeSettings) :
    Held (w.registry.nodes.modify id settings.change) (w.wished (some index) (.updateSettings id settings)) w.gone := by
  cases found : w.registry.nodes.get id with
  | none =>
    simp only [Watch.wished, found]
    exact Held.unowned kept fun n there => by cases found.symm.trans there
  | some n =>
    apply Held.modify kept
    · intro other f apart
      simp [Watch.wished, found, apart]
    · intro f wish other wanted there
      rw [found] at there
      cases there
      simp only [Watch.wished, found, Function.update_self] at wanted
      split at wanted
      · exact Option.some.inj wanted
      · rename_i unset
        obtain ⟨old, present, owned⟩ := kept.wanted id f wish wanted
        cases found.symm.trans present
        rw [settings_owned (by simpa using unset)]
        exact owned
    · intro _ _ _
      rw [found, Option.isSome_some]

theorem Watch.Kept.keyReset (kept : w.Kept) (task : Option Nat) (id : String) :
    Held (w.registry.nodes.modify id keyReset) (w.wished task (.resetKey id)) w.gone := by
  cases found : w.registry.nodes.get id with
  | none =>
    simp only [Watch.wished, found, Option.any_none, Bool.false_eq_true, if_false]
    exact Held.unowned kept fun n there => by cases found.symm.trans there
  | some n =>
    simp only [Watch.wished, found, Option.any_some, Bool.not_eq_true']
    split
    · rename_i peer
      apply Held.put kept found .pubkey
      · simp [Cluster.keyReset, peer, Node.owned]
      · intro g other
        cases g with
        | pubkey => exact absurd rfl other
        | _ => simp [Cluster.keyReset, peer, Node.owned]
    · rename_i self
      apply Held.unowned kept
      intro other there f value _ owned
      cases found.symm.trans there
      simpa [Cluster.keyReset, self] using owned

theorem Watch.Kept.verified (kept : w.Kept) (task : Option Nat) (id : String) :
    Held (w.registry.nodes.modify id verified) (w.wished task (.markVerified id)) w.gone := by
  cases found : w.registry.nodes.get id with
  | none =>
    simp only [Watch.wished, found, Option.isSome_none, Bool.false_eq_true, if_false]
    exact Held.unowned kept fun n there => by cases found.symm.trans there
  | some n =>
    simp only [Watch.wished, found, Option.isSome_some, if_true]
    apply Held.put kept found .joinVerified rfl
    intro g other
    cases g with
    | joinVerified => exact absurd rfl other
    | _ => rfl

theorem Watch.Kept.added (kept : w.Kept) (task : Option Nat) {options : ServerOptions} {id value : String}
    (runs : (Section.addServer options id).Runs me w.now w.registry value registry) :
    Held registry.nodes (w.wished task (.addServer options id)) (w.takenOff task (.addServer options id)) := by
  rcases runs with ⟨n, member, same, -, rfl⟩ | ⟨fresh, -, rfl⟩
  · have any : w.registry.nodes.values.any (sameServer options) = true := List.any_eq_true.mpr ⟨n, member, same⟩
    simp only [Watch.wished, Watch.takenOff, any, if_true]
    exact kept
  · have none_ : w.registry.nodes.values.any (sameServer options) = false := List.any_eq_false.mpr fun n member => by simp [fresh n member]
    simp only [Watch.wished, Watch.takenOff, none_, Bool.false_eq_true, if_false]
    have rest : Held w.registry.nodes w.wants (w.gone.filter fun g => g ≠ id) :=
      ⟨kept.wanted, fun other member => kept.absent other (List.mem_of_mem_filter member)⟩
    have present : (newServer options id w.now).id ∉ w.gone.filter fun g => g ≠ id := by simp [newServer]
    apply rest.insert present
    · intro other f apart
      have elsewhere : other ≠ id := apart
      simp [Wants.forget, elsewhere]
    · intro f wish wanted
      simp [Wants.forget, newServer] at wanted

theorem Watch.Kept.taken (kept : w.Kept) (task : Option Nat) (id : String) :
    Held (w.registry.nodes.remove id) (w.wished task (.remove id)) (w.takenOff task (.remove id)) := by
  apply Held.remove kept
  intro other taken
  simp only [Watch.takenOff] at taken
  split at taken
  · exact List.mem_cons.mp taken
  · exact .inr taken

theorem Watch.Kept.dropped (kept : w.Kept) (task : Option Nat) :
    Held (w.registry.nodes.filter fun n => n.id ∉ w.registry.deleted) (w.wished task .dropTombstoned) w.gone := by
  constructor
  · intro id f wish wanted
    simp only [Watch.wished] at wanted
    split at wanted
    · cases wanted
    · rename_i alive
      obtain ⟨n, found, owned⟩ := kept.wanted id f wish wanted
      refine ⟨n, ?_, owned⟩
      rw [NodeMap.get_filter, found]
      simp [NodeMap.get_id found, alive]
  · intro id taken
    rw [NodeMap.get_filter, kept.absent id taken, Option.filter_none]

/-- A removal has its tombstone or is about to get it. -/
structure Watch.Valid (w : Watch) : Prop where
  kept : w.Kept
  marked : ∀ id ∈ w.gone, w.pending id = true ∨ id ∈ w.registry.deleted

theorem record_marked {task : Option Nat} {β : Type} {operation : Section β} {value : β} (valid : w.Valid)
    (runs : operation.Runs me w.now w.registry value registry) :
    ∀ id ∈ (w.record task operation registry).gone, (w.record task operation registry).pending id = true ∨ id ∈ registry.deleted := by
  have still (same : registry.deleted = w.registry.deleted) (resting : operation.marks = fun _ => false) (id : String) (member : id ∈ w.gone) :
      (w.record task operation registry).pending id = true ∨ id ∈ registry.deleted := by
    rw [same]
    exact (valid.marked id member).imp_left fun waits => by simp [Watch.record, waits, resting]
  intro id member
  cases operation with
  | insertTombstone other =>
    rw [show registry = _ from runs]
    by_cases same : id = other
    · exact .inr (by simp [same])
    · exact (valid.marked id member).imp (fun waits => by simp [Watch.record, Section.marks, waits, same]) fun there => by simp [there]
  | mergeDeleted ids =>
    rw [runs.2]
    exact (valid.marked id member).imp (fun waits => by simp [Watch.record, Section.marks, waits]) fun there => by simp [there]
  | remove other =>
    simp only [Watch.record, Watch.takenOff] at member
    split at member
    · rename_i taking
      rcases List.mem_cons.mp member with rfl | earlier
      · exact .inl (by simp [Watch.record, Section.removes, taking])
      · exact still (by rw [runs.2]) rfl id earlier
    · exact still (by rw [runs.2]) rfl id member
  | addServer options other =>
    have same : registry.deleted = w.registry.deleted := by
      rcases runs with ⟨_, -, -, -, rfl⟩ | ⟨-, -, rfl⟩ <;> rfl
    simp only [Watch.record, Watch.takenOff] at member
    split at member
    · exact still same rfl id member
    · exact still same rfl id (List.mem_of_mem_filter member)
  | allNodes | getNode _ | isTombstoned _ => exact still (by rw [runs.2]) rfl id member
  | updateSettings _ _ | resetKey _ => exact still (by rw [runs.2]) rfl id member
  | _ => exact still (by rw [show registry = _ from runs]) rfl id member

/-! ### What the poll may count on -/

/-- Nothing is changed or taken off but what is written down as such. -/
structure Lapsed (before after : Watch) : Prop where
  removed : ∀ id, after.removed id = false → before.removed id = false ∧ (id ∈ after.gone → id ∈ before.gone)
  changed : ∀ id f, after.changed id f = false → before.changed id f = false ∧
    ∀ value, after.wants id f = some value → ∃ old, before.wants id f = some old ∧ (f ≠ .pubkey → old = value)

/-- So far as no operator has come in between, a copy is as wanted. -/
def Mirrored (nodes : List Node) (w : Watch) : Prop :=
  ∀ node ∈ nodes, (w.removed node.id = false → node.id ∉ w.gone) ∧
    ∀ f, f ≠ .pubkey → w.changed node.id f = false → ∀ value, w.wants node.id f = some value → node.owned f = value

/-- Nothing is wanted of what a copy does not have. -/
def Unlisted (nodes : List Node) (w : Watch) : Prop :=
  ∀ id, (∀ node ∈ nodes, node.id ≠ id) → ∀ f, w.changed id f = false → w.wants id f = none

/-- A gossiped entry that has no tombstone. -/
structure Checked (known : Node) (w : Watch) : Prop where
  present : w.removed known.id = false → known.id ∉ w.gone
  address : isUsableAddr known.address = true → w.changed known.id .address = false →
    ∀ value, w.wants known.id .address = some value → known.address = value
  port : w.changed known.id .port = false → ∀ value, w.wants known.id .port = some value → known.port = value
  cluster : known.clusterName.isSome = true → w.changed known.id .clusterName = false →
    ∀ value, w.wants known.id .clusterName = some value → known.clusterName = value

/-- What was read of a record just before it is written. -/
def Seen (id : String) (key : Option String) (manager : Bool) (w : Watch) : Prop :=
  (w.late id .pubkey = false → ∀ value, w.wants id .pubkey = some value → key = value) ∧
    (w.late id .manager = false → ∀ value, w.wants id .manager = some value → manager = value)

theorem Lapsed.absent (lapsed : Lapsed before after) (absent : before.removed id = false → id ∉ before.gone) :
    after.removed id = false → id ∉ after.gone := by
  intro still member
  obtain ⟨was, back⟩ := lapsed.removed id still
  exact absent was (back member)

theorem Lapsed.wanted (lapsed : Lapsed before after) {f : Field} (other : f ≠ .pubkey) {met : f.Value → Prop}
    (holds : before.changed id f = false → ∀ value, before.wants id f = some value → met value) :
    after.changed id f = false → ∀ value, after.wants id f = some value → met value := by
  intro still value wanted
  obtain ⟨was, back⟩ := lapsed.changed id f still
  obtain ⟨old, there, same⟩ := back value wanted
  exact same other ▸ holds was old there

theorem Mirrored.later {nodes : List Node} (mirror : Mirrored nodes before) (lapsed : Lapsed before after) : Mirrored nodes after :=
  fun node member => ⟨lapsed.absent (mirror node member).1, fun f other => lapsed.wanted other ((mirror node member).2 f other)⟩

theorem Unlisted.later {nodes : List Node} (unlisted : Unlisted nodes before) (lapsed : Lapsed before after) : Unlisted nodes after := by
  intro id apart f still
  obtain ⟨was, back⟩ := lapsed.changed id f still
  by_contra some_
  obtain ⟨value, wanted⟩ := Option.ne_none_iff_exists'.mp some_
  obtain ⟨old, there, -⟩ := back value wanted
  rw [unlisted id apart f was] at there
  cases there

theorem Checked.later {known : Node} (checked : Checked known before) (lapsed : Lapsed before after) : Checked known after where
  present := lapsed.absent checked.present
  address usable := lapsed.wanted (by simp) (checked.address usable)
  port := lapsed.wanted (by simp) checked.port
  cluster named := lapsed.wanted (by simp) (checked.cluster named)

/-- The report's key is pinned where the operator has had the key reset. -/
def Section.pins : {β : Type} → Section β → String → Field → Bool
  | _, .updatePolled node _ _ _ _, other, f => other = node.id && f = .pubkey
  | _, _, _, _ => false

theorem put_other {wants : Wants} {other : String} {f g : Field} {given : g.Value} {value : f.Value} (apart : id = other → f ≠ g)
    (wanted : wants.put other g given id f = some value) : wants id f = some value := by
  by_cases here : id = other
  · subst here
    simpa [Wants.put, apart rfl] using wanted
  · simpa [Wants.put, here] using wanted

theorem forget_other {wants : Wants} {other : String} {f : Field} {value : f.Value} (wanted : wants.forget other id f = some value) :
    wants id f = some value := by
  by_cases here : id = other
  · simp [Wants.forget, here] at wanted
  · simpa [Wants.forget, here] using wanted

theorem wished_ungiven {task : Option Nat} {β : Type} {operation : Section β} {f : Field} {value : f.Value}
    (ungiven : operation.gives task id f = false) (unpinned : operation.pins id f = false)
    (wanted : w.wished task operation id f = some value) : w.wants id f = some value := by
  cases operation with
  | updateSettings other settings =>
    cases task with
    | none => exact wanted
    | some index =>
      cases found : w.registry.nodes.get other with
      | none => simpa only [Watch.wished, found] using wanted
      | some n =>
        simp only [Watch.wished, found] at wanted
        by_cases here : id = other
        · subst here
          have unset : settings.sets f = false := by simpa [Section.gives] using ungiven
          simpa [unset] using wanted
        · simpa [here] using wanted
  | updatePolled node key manager report tls => exact (repin_other (by simpa [Section.pins] using unpinned)).symm.trans wanted
  | resetKey other =>
    simp only [Watch.wished] at wanted
    split at wanted
    · exact put_other (by simpa [Section.gives] using ungiven) wanted
    · exact wanted
  | markVerified other =>
    simp only [Watch.wished] at wanted
    split at wanted
    · exact put_other (by simpa [Section.gives] using ungiven) wanted
    · exact wanted
  | addServer options other =>
    simp only [Watch.wished] at wanted
    split at wanted
    · exact wanted
    · exact forget_other wanted
  | remove other => exact forget_other wanted
  | dropTombstoned =>
    simp only [Watch.wished] at wanted
    split at wanted
    · cases wanted
    · exact wanted
  | _ => exact wanted

theorem wished_pinned {task : Option Nat} {β : Type} {operation : Section β} {f : Field} {value : f.Value}
    (pins : operation.pins id f = true) (wanted : w.wished task operation id f = some value) :
    f = .pubkey ∧ ∃ old, w.wants id f = some old := by
  cases operation with
  | updatePolled node key manager report tls =>
    obtain ⟨rfl, rfl⟩ : id = node.id ∧ f = .pubkey := by simpa [Section.pins] using pins
    obtain ⟨old, wished, -⟩ := Option.map_eq_some_iff.mp ((repin_key w.wants node.id report.pubkey).symm.trans wanted)
    exact ⟨rfl, old, wished⟩
  | _ => cases pins

theorem record_lapsed (task : Option Nat) {β : Type} (operation : Section β) (registry : Registry) :
    Lapsed w (w.record task operation registry) := by
  constructor
  · intro id still
    simp only [Watch.record, Bool.or_eq_false_iff] at still
    refine ⟨still.1, fun member => ?_⟩
    cases operation with
    | remove other =>
      simp only [Watch.record, Watch.takenOff] at member
      split at member
      · rename_i taking
        have apart : id ≠ other := by simpa [taking.1, Section.removes] using still.2
        exact (List.mem_cons.mp member).resolve_left apart
      · exact member
    | addServer options other =>
      simp only [Watch.record, Watch.takenOff] at member
      split at member
      · exact member
      · exact List.mem_of_mem_filter member
    | _ => exact member
  · intro id f still
    simp only [Watch.record, Bool.or_eq_false_iff] at still
    refine ⟨still.1, fun value wanted => ?_⟩
    cases pins : operation.pins id f with
    | true =>
      obtain ⟨key, old, there⟩ := wished_pinned pins wanted
      exact ⟨old, there, fun other => absurd key other⟩
    | false => exact ⟨value, wished_ungiven still.2 pins wanted, fun _ => rfl⟩

/-- For the poll, from operators: what it has just read is as wanted, where nothing is late. -/
structure Promised (before after : Watch) : Prop where
  lapsed : Lapsed before after
  late : ∀ id f, after.late id f = false → before.late id f = false ∧ ∀ value, after.wants id f = some value → before.wants id f = some value

def watchPromise : Option Nat → Watch → Watch → Prop
  | none => fun _ _ => True
  | some _ => Promised

abbrev watchRules (me : Me) (task : Option Nat) : Rules Watch (Joint Section Ask) :=
  (pollSystem me (Watch.Respects me)).rules Watch.Valid watchPromise task

/-- The sections that an operator's calls are made of. -/
def Operating : {β : Type} → Joint Section Ask β → Prop
  | _, .first (.updateSettings _ _) | _, .first (.resetKey _) | _, .first (.remove _) | _, .first (.insertTombstone _)
  | _, .first (.addServer _ _) | _, .first (.markVerified _) => True
  | _, _ => False

theorem operation_operating {program : Poll Unit} (operation : Operation program) : program.Yields Operating fun _ => True := by
  cases operation with
  | settings id settings => exact ⟨trivial, fun _ => trivial⟩
  | resetKey id => exact ⟨trivial, fun _ => trivial⟩
  | remove id =>
    refine ⟨trivial, fun removed => ?_⟩
    cases removed with
    | true => exact ⟨trivial, fun _ => trivial⟩
    | false => trivial
  | add address port clusterName random => exact ⟨trivial, fun _ => ⟨trivial, fun _ => trivial⟩⟩

theorem operating_promised (index : Nat) {β : Type} {operation : Section β} (operating : Operating (.first operation : Joint Section Ask β))
    (registry : Registry) : Promised w (w.record (some index) operation registry) := by
  refine ⟨record_lapsed _ _ _, fun id f still => ?_⟩
  simp only [Watch.record, Option.isNone_some, Bool.false_and, Bool.not_false, Bool.true_and, Bool.or_eq_false_iff] at still
  refine ⟨still.1, fun value wanted => wished_ungiven still.2 ?_ wanted⟩
  cases operation with
  | updatePolled _ _ _ _ _ => exact operating.elim
  | _ => rfl

theorem operating_held {index : Nat} {β : Type} {operation : Section β} {value : β} (operating : Operating (.first operation : Joint Section Ask β))
    (kept : w.Kept) (runs : operation.Runs me w.now w.registry value registry) :
    Held registry.nodes (w.wished (some index) operation) (w.takenOff (some index) operation) := by
  cases operation with
  | updateSettings id settings =>
    rw [runs.2]
    exact kept.edited index id settings
  | resetKey id =>
    rw [runs.2]
    exact kept.keyReset _ id
  | remove id =>
    rw [runs.2]
    exact kept.taken _ id
  | insertTombstone id =>
    rw [show registry = _ from runs]
    exact kept
  | addServer options id => exact kept.added _ runs
  | markVerified id =>
    rw [show registry = _ from runs]
    exact kept.verified _ id
  | _ => exact operating.elim

theorem operatorTriple {index : Nat} {program : Poll Unit} (operation : Operation program) :
    (watchRules me (some index)).Triple (fun _ => True) program fun _ _ => True := by
  apply Rules.Triple.weaken_post (Rules.Triple.yields (operation_operating operation) (fun _ _ _ _ _ _ => trivial) ?_) fun _ _ _ _ => trivial
  intro before β operation value after valid _ operating law
  cases operation with
  | first operation =>
    obtain ⟨-, registry, runs, rfl⟩ := law
    exact ⟨⟨operating_held operating valid.kept runs, record_marked valid runs⟩, operating_promised index operating registry, trivial⟩
  | second operation => exact operating.elim

/-! ### The poll -/

/-- What stays so whatever operators do, since it speaks of nothing that they have done. -/
def Durable (assertion : Watch → Prop) : Prop := ∀ before after, Lapsed before after → assertion before → assertion after

variable {nodes current : List Node} {assertion : Watch → Prop} {β : Type}

theorem mirrored_durable : Durable (Mirrored nodes) := fun _ _ lapsed mirror => mirror.later lapsed

theorem Durable.and {other : Watch → Prop} (durable : Durable assertion) (also_ : Durable other) : Durable fun w => assertion w ∧ other w :=
  fun before after lapsed holds => ⟨durable before after lapsed holds.1, also_ before after lapsed holds.2⟩

theorem Durable.stable (durable : Durable assertion) : (watchRules me none).Stable assertion := by
  rintro before after _ _ (⟨secs, rfl⟩ | ⟨other, apart, promise⟩) holds
  · have lapsed : Lapsed before { before with now := before.now + secs } :=
      ⟨fun _ still => ⟨still, id⟩, fun _ _ still => ⟨still, fun value wanted => ⟨value, wanted, fun _ => rfl⟩⟩⟩
    exact durable _ _ lapsed holds
  · cases other with
    | none => exact absurd rfl apart
    | some index => exact durable _ _ promise.lapsed holds

theorem seen_stable (id : String) (key : Option String) (manager : Bool) : (watchRules me none).Stable (Seen id key manager) := by
  rintro before after _ _ (⟨secs, rfl⟩ | ⟨other, apart, promise⟩) holds
  · exact holds
  · cases other with
    | none => exact absurd rfl apart
    | some index =>
      constructor
      · intro still value wanted
        obtain ⟨was, back⟩ := promise.late id .pubkey still
        exact holds.1 was value (back value wanted)
      · intro still value wanted
        obtain ⟨was, back⟩ := promise.late id .manager still
        exact holds.2 was value (back value wanted)

theorem learnTriple (durable : Durable assertion) {operation : Section β} {result : β → Watch → Prop}
    (settled : ∀ value, (watchRules me none).Stable (result value))
    (execute : ∀ w value registry, w.Valid → assertion w → w.Respects me none operation → operation.Runs me w.now w.registry value registry →
      Held registry.nodes (w.wished none operation) (w.takenOff none operation) ∧ result value (w.record none operation registry)) :
    (watchRules me none).first.Triple assertion (send operation) fun value w => assertion w ∧ result value w := by
  have stable : (watchRules me none).first.Stable assertion := durable.stable
  refine Rules.Triple.send stable ?_ ?_
  · intro value before after valid kept moved holds
    exact ⟨durable.stable before after valid kept moved holds.1, settled value before after valid kept moved holds.2⟩
  · rintro before value after valid holds ⟨respects, registry, runs, rfl⟩
    obtain ⟨held, result⟩ := execute before value registry valid holds respects runs
    exact ⟨⟨held, record_marked valid runs⟩, trivial, durable _ _ (record_lapsed _ _ _) holds, result⟩

theorem sendTriple (durable : Durable assertion) {operation : Section β}
    (execute : ∀ w value registry, w.Valid → assertion w → w.Respects me none operation → operation.Runs me w.now w.registry value registry →
      Held registry.nodes (w.wished none operation) (w.takenOff none operation)) :
    (watchRules me none).first.Triple assertion (send operation) fun _ => assertion := by
  have alone : (watchRules me none).first.Triple assertion (send operation) fun _ w => assertion w ∧ True :=
    learnTriple durable (fun _ _ _ _ _ _ _ => trivial)
      fun w value registry valid holds respects runs => ⟨execute w value registry valid holds respects runs, trivial⟩
  exact alone.weaken_post fun _ _ _ holds => holds.1

theorem allNodesTriple (durable : Durable assertion) : (watchRules me none).first.Triple assertion (send .allNodes)
    fun nodes w => assertion w ∧ Mirrored nodes w ∧ Unlisted nodes w := by
  apply learnTriple durable fun nodes => (mirrored_durable.and fun _ _ lapsed unlisted => unlisted.later lapsed).stable
  rintro w nodes registry valid _ respects ⟨listed, rfl⟩
  refine ⟨valid.kept, ?_, ?_⟩
  · intro node member
    obtain ⟨n, there, same⟩ := List.mem_map.mp (listed.subset member)
    have found : w.registry.nodes.get n.id = some n := NodeMap.get_eq_some.mpr ⟨(List.mem_filter.mp there).1, rfl⟩
    obtain ⟨named, owned⟩ : node.id = n.id ∧ ∀ f, node.owned f = n.owned f := by
      subst node
      split
      · exact ⟨rfl, fun _ => rfl⟩
      · exact ⟨rfl, fun f => by cases f <;> rfl⟩
    rw [named]
    refine ⟨fun _ gone => ?_, fun f _ _ value wanted => ?_⟩
    · have absent := valid.kept.absent n.id gone
      cases absent.symm.trans found
    · obtain ⟨other, present, met⟩ := valid.kept.wanted n.id f value wanted
      cases present.symm.trans found
      exact (owned f).trans met
  · intro id apart f _
    by_contra wished
    obtain ⟨value, wanted⟩ := Option.ne_none_iff_exists'.mp wished
    obtain ⟨n, found, -⟩ := valid.kept.wanted id f value wanted
    obtain ⟨member, rfl⟩ := NodeMap.get_eq_some.mp found
    rcases respects n member with listing | unwished
    · obtain ⟨node, there, same⟩ := List.mem_map.mp listing
      exact apart node (listed.symm.subset there) same
    · have unwanted := unwished f
      rw [show w.wants n.id f = some value from wanted] at unwanted
      cases unwanted

theorem tombstonedTriple (durable : Durable assertion) (known : Node) : (watchRules me none).first.Triple assertion
    (send (.isTombstoned known)) fun buried w => assertion w ∧ (buried = false → Checked known w) := by
  refine learnTriple durable (fun _ before after valid kept moved holds alive => ?_) ?_
  · exact Durable.stable (fun _ _ lapsed checked => checked.later lapsed) before after valid kept moved (holds alive)
  · rintro w buried registry valid _ ⟨settled, agrees⟩ ⟨rfl, rfl⟩
    refine ⟨valid.kept, fun alive => ⟨fun _ gone => ?_, fun usable _ => agrees.1 usable, fun _ => agrees.2.1, fun named _ => agrees.2.2 named⟩⟩
    rcases valid.marked known.id gone with waits | marked
    · rw [settled] at waits
      cases waits
    · exact absurd marked (of_decide_eq_false alive)

theorem liveTriple (durable : Durable assertion) (node : Node) : (watchRules me none).first.Triple assertion
    (send (.getNode node.id)) fun live w =>
      assertion w ∧ Seen node.id ((live.map Node.pubkey).getD node.pubkey) ((live.map Node.manager).getD node.manager) w := by
  refine learnTriple durable (fun live => seen_stable _ _ _) ?_
  rintro w live registry valid _ - ⟨finds, rfl⟩
  have read : ∀ f value, w.wants node.id f = some value → ∃ n, live = some n ∧ n.owned f = value := by
    intro f value wanted
    obtain ⟨n, found, owned⟩ := valid.kept.wanted node.id f value wanted
    simp only [Finds, found] at finds
    exact ⟨n, finds, owned⟩
  refine ⟨valid.kept, fun _ value wanted => ?_, fun _ value wanted => ?_⟩
  · obtain ⟨n, rfl, owned⟩ := read .pubkey value wanted
    exact owned
  · obtain ⟨n, rfl, owned⟩ := read .manager value wanted
    exact owned

theorem recordReportTriple {node : Node} (member : node ∈ nodes) (report : StatusReport) (tls : Bool) :
    (watchRules me none).first.Triple (Mirrored nodes) (recordReport node report tls) fun _ => Mirrored nodes := by
  refine Rules.Triple.bind (liveTriple mirrored_durable node) fun live => ?_
  have stable : (watchRules me none).first.Stable fun w =>
      Mirrored nodes w ∧ Seen node.id ((live.map Node.pubkey).getD node.pubkey) ((live.map Node.manager).getD node.manager) w :=
    fun before after valid kept moved holds =>
      ⟨mirrored_durable.stable before after valid kept moved holds.1, seen_stable _ _ _ before after valid kept moved holds.2⟩
  refine Rules.Triple.send stable (fun _ => mirrored_durable.stable) ?_
  rintro w value after valid ⟨mirror, seen⟩ ⟨⟨present, unchanged⟩, registry, runs, rfl⟩
  obtain rfl := show registry = _ from runs
  have held := valid.kept.polled report tls ((mirror node member).1 present)
    (fun f key policy => (mirror node member).2 f key (by simpa [key, policy] using unchanged f))
    (seen.1 (by simpa using unchanged .pubkey)) (seen.2 (by simpa using unchanged .manager))
  exact ⟨⟨held, record_marked valid runs⟩, trivial, mirror.later (record_lapsed _ _ _)⟩

theorem forgetTriple (durable : Durable assertion) (id : String) :
    (watchRules me none).first.Triple assertion (forgetSelfAlias id) fun _ => assertion := by
  refine Rules.Triple.bind (sendTriple durable ?_) fun _ => Rules.Triple.pure () durable.stable fun _ _ holds => holds
  rintro w value registry valid - - ⟨-, rfl⟩
  exact valid.kept.taken none id

theorem tombstonesTriple (durable : Durable assertion) (ids : List String) :
    (watchRules me none).first.Triple assertion (mergeTombstones ids) fun _ => assertion := by
  refine Rules.Triple.bind (sendTriple durable ?_) fun changed => ?_
  · rintro w value registry valid - - ⟨-, rfl⟩
    exact valid.kept
  · cases changed with
    | false => exact Rules.Triple.pure () durable.stable fun _ _ holds => holds
    | true =>
      apply sendTriple durable
      rintro w value registry valid - - rfl
      exact valid.kept.dropped none

theorem adoptTriple (durable : Durable assertion) (known : Node) :
    (watchRules me none).first.Triple assertion (adoptDisplayName me known) fun _ => assertion := by
  unfold adoptDisplayName
  split
  · exact Rules.Triple.pure () durable.stable fun _ _ holds => holds
  · refine Rules.Triple.bind (sendTriple durable ?_) fun _ => Rules.Triple.pure () durable.stable fun _ _ holds => holds
    rintro w value registry valid - - ⟨-, rfl⟩
    apply Held.unowned valid.kept
    intro n _ f wish _ owned
    rw [settings_owned (by cases f <;> rfl)]
    exact owned

/-- The lists that a poll of one peer has before it. -/
def Listed (nodes current : List Node) (w : Watch) : Prop := (Mirrored nodes w ∧ Mirrored current w) ∧ Unlisted current w

theorem listed_durable : Durable (Listed nodes current) :=
  (mirrored_durable.and mirrored_durable).and fun _ _ lapsed unlisted => unlisted.later lapsed

theorem Watch.Kept.mirrored (kept : w.Kept) {existing known : Node} {intent : Option IdentityIntent} (checked : Checked known w)
    (mirror : ∀ f, f ≠ .pubkey → w.changed known.id f = false → ∀ value, w.wants known.id f = some value → existing.owned f = value)
    (unchanged : ∀ f, (mirrored existing known intent).sets f = true → w.changed known.id f = false) :
    Held (w.registry.nodes.modify known.id (mirrored existing known intent).change) w.wants w.gone := by
  apply Held.unowned kept
  intro n _ f value wanted owned
  cases f with
  | address =>
    have still := unchanged .address rfl
    change (if isUsableAddr known.address then known.address else existing.address) = value
    split
    · rename_i usable
      exact checked.address usable still value wanted
    · exact mirror .address (by simp) still value wanted
  | port => exact checked.port (unchanged .port rfl) value wanted
  | clusterName =>
    change (effectiveCluster existing known intent).or n.clusterName = value
    have still : (effectiveCluster existing known intent).isSome = true → w.changed known.id .clusterName = false := unchanged .clusterName
    cases named : effectiveCluster existing known intent with
    | none => exact owned
    | some cluster =>
      rw [Option.some_or, ← named]
      rw [named] at still
      unfold effectiveCluster at named ⊢
      split at named
      · rename_i edited
        rw [if_pos edited]
        exact mirror .clusterName (by simp) (still rfl) value wanted
      · rename_i plain
        rw [if_neg plain]
        exact checked.cluster (by rw [named]; rfl) (still rfl) value wanted
  | _ =>
    rw [settings_owned rfl]
    exact owned

theorem Watch.Kept.seeded (kept : w.Kept) {known : Node} (checked : Checked known w) (unlisted : ∀ f, w.wants known.id f = none)
    (present : w.removed known.id = false) : Held (w.registry.nodes.insert (Cluster.seeded known)) w.wants w.gone := by
  refine Held.insert kept ?_ (fun _ _ _ => rfl) ?_
  · exact checked.present present
  · intro f value wanted
    cases (unlisted f).symm.trans wanted

theorem pullOneTriple (localAddrs : List String) (intents : String → Option IdentityIntent) (known : Node) :
    (watchRules me none).first.Triple (Listed nodes current) (pullOne me localAddrs intents current known) fun _ => Listed nodes current := by
  have done : (watchRules me none).first.Triple (Listed nodes current) (Program.pure () : Program Section Unit) fun _ => Listed nodes current :=
    Rules.Triple.pure () listed_durable.stable fun _ _ holds => holds
  have vetted : Durable fun w => Listed nodes current w ∧ Checked known w := listed_durable.and fun _ _ lapsed checked => checked.later lapsed
  unfold pullOne
  extract_lets identity
  split
  · split
    · exact adoptTriple listed_durable known
    · exact done
  · split
    · exact done
    · refine Rules.Triple.bind (tombstonedTriple listed_durable known) fun buried => ?_
      cases buried with
      | true => exact done.weaken fun _ _ holds => holds.1
      | false =>
        apply Rules.Triple.given fun w => Listed nodes current w ∧ Checked known w
        · simp only [Bool.false_eq_true, if_false]
          split
          · rename_i existing found
            obtain ⟨member, same⟩ : existing ∈ current ∧ existing.id = known.id :=
              ⟨List.mem_of_find?_eq_some found, by simpa using List.find?_some found⟩
            split
            · refine Rules.Triple.via (fun _ => Listed nodes current) ?_ fun _ => done
              apply (sendTriple vetted ?_).weaken_post fun _ _ _ holds => holds.1
              rintro w value registry valid ⟨listed, checked⟩ unchanged ⟨-, rfl⟩
              exact valid.kept.mirrored checked (same ▸ (listed.1.2 existing member).2) (unchanged rfl)
            · exact done.weaken fun _ _ holds => holds.1
          · rename_i missing
            unfold pullNew
            split
            · exact done.weaken fun _ _ holds => holds.1
            · apply (sendTriple vetted ?_).weaken_post fun _ _ _ holds => holds.1
              rintro w value registry valid ⟨listed, checked⟩ ⟨present, unchanged⟩ rfl
              exact valid.kept.seeded checked (fun f => listed.2 known.id (by simpa using missing) f (unchanged f)) present
        · exact fun _ _ holds => ⟨holds.1, holds.2 rfl⟩

theorem pullAllTriple (localAddrs : List String) (intents : String → Option IdentityIntent) (knowns : List Node) :
    (watchRules me none).first.Triple (Listed nodes current) (pullAll me localAddrs intents current knowns) fun _ => Listed nodes current := by
  induction knowns with
  | nil => exact Rules.Triple.pure () listed_durable.stable fun _ _ holds => holds
  | cons known rest ih => exact Rules.Triple.bind (pullOneTriple localAddrs intents known) fun _ => ih

theorem pullGossipTriple (localAddrs : List String) (intents : String → Option IdentityIntent) (knowns : List Node) :
    (watchRules me none).first.Triple (Mirrored nodes) (pullGossip me localAddrs intents knowns) fun _ => Mirrored nodes := by
  refine Rules.Triple.bind (allNodesTriple mirrored_durable) fun current => ?_
  exact ((pullAllTriple localAddrs intents knowns).weaken fun w _ holds => ⟨⟨holds.1, holds.2.1⟩, holds.2.2⟩).weaken_post
    fun _ _ _ holds => holds.1.1

/-- A question other than the one that a cycle begins with. -/
theorem queryTriple (durable : Durable assertion) {ask : Ask β} (within : ∀ w : Watch, w.asked ask = w) :
    (watchRules me none).Triple assertion (query ask) fun _ => assertion := by
  refine Rules.Triple.send durable.stable (fun _ => durable.stable) ?_
  rintro w value after valid holds law
  obtain rfl : after = w := Eq.trans law (within w)
  exact ⟨valid, trivial, holds⟩

theorem handleReportTriple {node : Node} (member : node ∈ nodes) (localAddrs : List String) (report : StatusReport) (tls : Bool) :
    (watchRules me none).Triple (Mirrored nodes) (handleReport me localAddrs node report tls) fun _ => Mirrored nodes := by
  unfold handleReport
  split
  · exact (forgetTriple mirrored_durable node.id).first
  · refine Rules.Triple.bind (recordReportTriple member report tls).first fun _ => ?_
    refine Rules.Triple.bind (tombstonesTriple mirrored_durable report.deletedIds).first fun _ => ?_
    refine Rules.Triple.bind (queryTriple mirrored_durable fun _ => rfl) fun intents => ?_
    exact (pullGossipTriple localAddrs intents report.knownNodes).first

theorem statusFromTriple (node : Node) (urls : List String) :
    (watchRules me none).Triple (Mirrored nodes) (statusFrom node urls) fun _ => Mirrored nodes := by
  induction urls with
  | nil => exact Rules.Triple.pure _ mirrored_durable.stable fun _ _ holds => holds
  | cons url rest ih =>
    refine Rules.Triple.bind (queryTriple mirrored_durable fun _ => rfl) fun report => ?_
    cases report with
    | some report => exact Rules.Triple.pure _ mirrored_durable.stable fun _ _ holds => holds
    | none => exact ih

theorem pollFailedTriple (node : Node) : (watchRules me none).Triple (Mirrored nodes) (pollFailed node) fun _ => Mirrored nodes := by
  refine Rules.Triple.bind (queryTriple mirrored_durable fun _ => rfl) fun count => ?_
  split
  · have touched : (watchRules me none).first.Triple (Mirrored nodes) (send (.touch node.id)) fun _ => Mirrored nodes := by
      apply sendTriple mirrored_durable
      rintro w value registry valid - - rfl
      exact Held.unowned valid.kept fun n _ f wish _ owned => by cases f <;> exact owned
    exact touched.first
  · exact Rules.Triple.pure () mirrored_durable.stable fun _ _ holds => holds

theorem pollOneTriple {node : Node} (member : node ∈ nodes) (localAddrs : List String) :
    (watchRules me none).Triple (Mirrored nodes) (pollOne me localAddrs node) fun _ => Mirrored nodes := by
  refine Rules.Triple.bind (queryTriple mirrored_durable fun _ => rfl) fun urls => ?_
  refine Rules.Triple.bind (statusFromTriple node urls) fun answered => ?_
  cases answered with
  | some answer => exact handleReportTriple member localAddrs answer.1 answer.2
  | none => exact pollFailedTriple node

/-- Along the copy that a cycle has begun with. -/
theorem pollAllTriple (localAddrs : List String) (interval : Option Nat) (seen : List (String × Nat)) {rest : List Node} (within : rest ⊆ nodes) :
    (watchRules me none).Triple (Mirrored nodes) (pollAll me localAddrs interval seen rest) fun _ => Mirrored nodes := by
  induction rest generalizing seen with
  | nil => exact Rules.Triple.pure () mirrored_durable.stable fun _ _ holds => holds
  | cons node rest ih =>
    obtain ⟨member, others⟩ := List.cons_subset.mp within
    unfold pollAll
    split
    · refine Rules.Triple.bind (queryTriple mirrored_durable fun _ => rfl) fun due => ?_
      split
      · exact Rules.Triple.bind (pollOneTriple member localAddrs) fun _ => ih _ others
      · exact ih _ others
    · exact ih _ others

theorem pollTriple : (watchRules me none).Triple (fun _ => True) (pollRemoteNodes me) fun _ _ => True := by
  have always : Durable fun _ => True := fun _ _ _ _ => trivial
  refine Rules.Triple.via (fun _ _ => True) ?_ fun interval => ?_
  · refine Rules.Triple.send always.stable (fun _ => always.stable) ?_
    rintro w value after valid - rfl
    exact ⟨⟨valid.kept, valid.marked⟩, trivial, trivial⟩
  · refine Rules.Triple.bind (allNodesTriple always).first fun nodes => ?_
    apply Rules.Triple.given (Mirrored nodes) _ fun _ _ holds => holds.2.1
    refine Rules.Triple.bind (queryTriple mirrored_durable fun _ => rfl) fun localAddrs => ?_
    exact (pollAllTriple localAddrs interval [] (List.Subset.refl nodes)).weaken_post fun _ _ _ _ => trivial

theorem pollSound (me : Me) : (pollSystem me (Watch.Respects me)).Sound Watch.Quiet Watch.Valid watchPromise fun _ _ => True where
  initial start quiet := by
    refine ⟨⟨⟨fun id f value wanted => ?_, fun id taken => ?_⟩, fun id taken => ?_⟩, fun _ => trivial⟩
    · rw [quiet.wants id f] at wanted
      cases wanted
    · rw [quiet.gone] at taken
      cases taken
    · rw [quiet.gone] at taken
      cases taken
  moves before after valid moved := by
    obtain ⟨secs, rfl⟩ := moved
    exact ⟨⟨valid.kept, valid.marked⟩, fun _ _ => trivial⟩
  others _ _ _ _ _ _ _ _ _ := trivial
  bodies thread program body := by
    cases thread with
    | none =>
      obtain rfl := body
      exact pollTriple
    | some index => exact operatorTriple body
  stops _ _ _ _ := trivial

/-- In a run in which no operator comes between what a poll copies and what it writes, every field an operator has set keeps
that value, and a record that was removed stays away. -/
theorem operator_changes_kept (me : Me) {w : Watch} (reached : (pollSystem me (Watch.Respects me)).Reaches Watch.Quiet w) : w.Kept :=
  ((pollSound me).reaches reached).kept

def Field.all : List Field :=
  [.address, .port, .migrationAddress, .clusterName, .loginDisabled, .updateScript, .joinVerified, .manager, .pubkey]

instance (p : Field → Prop) [DecidablePred p] : Decidable (∀ f, p f) :=
  decidable_of_iff (∀ f ∈ Field.all, p f) ⟨fun holds f => holds f (by cases f <;> decide), fun holds f _ => holds f⟩

instance (w : Watch) (known : Node) : Decidable (w.Agrees known) :=
  inferInstanceAs (Decidable ((isUsableAddr known.address = true → ∀ address ∈ (w.wants known.id .address : Option String), known.address = address) ∧
    (∀ port ∈ (w.wants known.id .port : Option Nat), known.port = port) ∧
    (known.clusterName.isSome = true → ∀ cluster ∈ (w.wants known.id .clusterName : Option (Option String)), known.clusterName = cluster)))

instance (w : Watch) (task : Option Nat) {β : Type} (operation : Section β) : Decidable (w.Respects me task operation) :=
  match operation with
  | .allNodes => inferInstanceAs (Decidable (∀ n ∈ w.registry.nodes.values, n.id ∈ (allNodes me w.now w.registry.nodes).map Node.id ∨
      ∀ f, (w.wants n.id f).isNone = true))
  | .isTombstoned known => inferInstanceAs (Decidable (w.pending known.id = false ∧ w.Agrees known))
  | .updatePolled node _ _ _ _ => inferInstanceAs (Decidable (w.removed node.id = false ∧
      ∀ f, (if f = .pubkey ∨ f = .manager then w.late node.id f else w.changed node.id f) = false))
  | .updateRemote entry => inferInstanceAs (Decidable (w.removed entry.id = false ∧ ∀ f, w.changed entry.id f = false))
  | .updateSettings id settings => inferInstanceAs (Decidable (task = none → ∀ f, settings.sets f = true → w.changed id f = false))
  | .getNode _ | .resetKey _ | .markVerified _ | .touch _ | .addServer _ _ | .remove _ | .insertTombstone _ | .mergeDeleted _ | .dropTombstoned =>
    inferInstanceAs (Decidable True)

def sampleMe : Me := ⟨"n1", "10.0.0.1", "n1", 8553⟩

def sampleRegistry : Registry where
  nodes := ((NodeMap.empty.insert { sampleNode "n2" "10.0.0.2" with pubkey := some "k1" }).insert { sampleNode "n3" "10.0.0.3" with nodeType := "proxmox" }).insert
    { sampleNode "n1" "10.0.0.1" with isSelf := true }
  deleted := []

def sampleReport : StatusReport where
  nodeId := "ws-2"
  hostname := "n2"
  publicIp := none
  knownNodes := [{ sampleNode "n4" "10.0.0.4" with selfId := some "ws-4" }]
  deletedIds := []
  hasDocker := true
  hasLxc := false
  site := none
  displayName := none
  pollIntervalSecs := none
  pubkey := some "k2"

def Ask.answer : {β : Type} → Ask β → β
  | _, .localAddrs => []
  | _, .selfInterval => none
  | _, .due _ _ => true
  | _, .urls _ => ["https://10.0.0.2:8553/api/agent/status"]
  | _, .status _ _ => some sampleReport
  | _, .intents => fun _ => none
  | _, .failures _ => 1

def quietWatch : Watch where
  registry := sampleRegistry
  now := 1000
  wants _ _ := none
  gone := []
  changed _ _ := false
  late _ _ := false
  removed _ := false
  pending _ := false

theorem quietWatch_quiet : quietWatch.Quiet := ⟨fun _ _ => rfl, rfl⟩

def Watch.serve (allowed : Watch → Option Nat → {β : Type} → Section β → Bool) (task : Option Nat) (_ : Nat) {β : Type} (w : Watch) :
    Joint Section Ask β → Option (Watch × β)
  | .first operation =>
    if allowed w task operation = true then
      let ran := operation.run sampleMe w.now w.registry
      some (w.record task operation ran.1, ran.2)
    else none
  | .second operation => some (w.asked operation, operation.answer)

theorem watch_commits {allowed : Watch → Option Nat → {β : Type} → Section β → Bool}
    {permitted : Watch → Option Nat → {β : Type} → Section β → Prop}
    (checked : ∀ w task {β : Type} (operation : Section β), allowed w task operation = true → permitted w task operation)
    (task : Option Nat) (index : Nat) {β : Type} (w : Watch) (operation : Joint Section Ask β) (after : Watch) (value : β)
    (served : Watch.serve allowed task index w operation = some (after, value)) :
    (pollSystem sampleMe permitted).commits task w operation value after := by
  cases operation with
  | first operation =>
    simp only [Watch.serve] at served
    split at served
    · rename_i may
      cases served
      exact ⟨checked w task operation may, _, operation.run_runs sampleMe w.now w.registry, rfl⟩
    · cases served
  | second operation =>
    cases served
    exact rfl

abbrev WatchTurn := Turn Watch (Joint Section Ask) (Option Nat) Unit

def readdressing : Poll Unit :=
  (updateNodeSettings "n2" { NodeSettings.none with address := some "10.0.0.9" }).first.bind fun _ => .pure ()

def rekeying : Poll Unit := (Program.first (send (Section.resetKey "n2"))).bind fun _ => .pure ()

def takingOff : Poll Unit := (removeServer "n3").first.bind fun _ => .pure ()

/-- An address and a key reset before a cycle of the poll, and a removal while a peer is asked. -/
def changedBefore : List WatchTurn :=
  Turn.whole (some 0) readdressing 1 ++ Turn.whole (some 1) rekeying 1 ++ [.start none (pollRemoteNodes sampleMe), .advance none 5] ++
    Turn.whole (some 0) takingOff 2 ++ [.advance none 20, .finish none]

def changedMeanwhile : List WatchTurn :=
  [.start none (pollRemoteNodes sampleMe), .advance none 5] ++ Turn.whole (some 0) readdressing 1 ++ [.advance none 20]

theorem operator_changes_kept_sample : ∃ w, (pollSystem sampleMe (Watch.Respects sampleMe)).Reaches Watch.Quiet w ∧
    (w.registry.nodes.get "n2").map Node.selfId = some (some "ws-2") ∧ (w.registry.nodes.get "n4").isSome = true ∧
    w.wants "n2" .address = some "10.0.0.9" ∧ w.wants "n2" .pubkey = some (some "k2") ∧ w.gone = ["n3"] ∧ w.Kept := by
  obtain ⟨w, reached, passed⟩ := @conduct_reaches _ _ _ _ _ (pollSystem sampleMe (Watch.Respects sampleMe))
    (Watch.serve fun w task _ operation => decide (w.Respects sampleMe task operation)) Watch.Quiet _
    quietWatch_quiet (watch_commits fun _ _ _ _ may => of_decide_eq_true may) changedBefore
    (by simp [changedBefore, readdressing, rekeying, takingOff, Turn.whole, Turn.Lawful, pollSystem, Operation.settings, Operation.resetKey, Operation.remove])
    (fun w => decide ((w.registry.nodes.get "n2").map Node.selfId = some (some "ws-2") ∧ (w.registry.nodes.get "n4").isSome = true ∧
      (w.wants "n2" .address : Option String) = some "10.0.0.9" ∧ (w.wants "n2" .pubkey : Option (Option String)) = some (some "k2") ∧
      w.gone = ["n3"])) (by decide +kernel)
  obtain ⟨polled, heard, address, key, gone⟩ := of_decide_eq_true passed
  exact ⟨w, reached, polled, heard, address, key, gone, operator_changes_kept sampleMe reached⟩

/-- The poll writes the address back from its copy. -/
theorem address_undone : ∃ w, (pollSystem sampleMe fun _ _ _ _ => True).Reaches Watch.Quiet w ∧
    w.wants "n2" .address = some "10.0.0.9" ∧ (w.registry.nodes.get "n2").map Node.address = some "10.0.0.2" ∧ ¬w.Kept := by
  obtain ⟨w, reached, passed⟩ := @conduct_reaches _ _ _ _ _ (pollSystem sampleMe fun _ _ _ _ => True)
    (Watch.serve fun _ _ _ _ => true) Watch.Quiet _ quietWatch_quiet (watch_commits fun _ _ _ _ _ => trivial) changedMeanwhile
    (by simp [changedMeanwhile, readdressing, Turn.whole, Turn.Lawful, pollSystem, Operation.settings])
    (fun w => decide ((w.registry.nodes.get "n2").map Node.address = some "10.0.0.2") &&
      decide ((w.wants "n2" .address : Option String) = some "10.0.0.9")) (by decide +kernel)
  simp only [Bool.and_eq_true, decide_eq_true_eq] at passed
  refine ⟨w, reached, passed.2, passed.1, fun kept => ?_⟩
  obtain ⟨n, found, owned⟩ := kept.wanted "n2" .address "10.0.0.9" passed.2
  have address := passed.1
  rw [found, Option.map_some, Option.some.injEq] at address
  exact absurd (owned.symm.trans address) (by decide)

end Cluster
