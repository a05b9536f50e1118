import WolfStack.Cluster.Node
import WolfStack.Effects.Program

/-! The list of nodes and the ids of those that were removed. Each request is one lock
section; what a section writes to disk is left out. -/

namespace Cluster
open Effects
open Effects.Program (send)

/-- `HashMap<String, Node>`: every record is kept under its own id. -/
structure NodeMap where
  values : List Node
  distinct : (values.map Node.id).Nodup

namespace NodeMap

theorem nodup_filter {values : List Node} (distinct : (values.map Node.id).Nodup) (keep : Node → Bool) :
    ((values.filter keep).map Node.id).Nodup :=
  (List.filter_sublist.map Node.id).nodup distinct

def empty : NodeMap := ⟨[], List.nodup_nil⟩

def get (nodes : NodeMap) (id : String) : Option Node := nodes.values.find? fun n => n.id = id

def filter (nodes : NodeMap) (keep : Node → Bool) : NodeMap := ⟨nodes.values.filter keep, nodup_filter nodes.distinct keep⟩

def remove (nodes : NodeMap) (id : String) : NodeMap := nodes.filter fun n => n.id ≠ id

def insert (nodes : NodeMap) (node : Node) : NodeMap where
  values := node :: nodes.values.filter fun n => n.id ≠ node.id
  distinct := by
    rw [List.map_cons, List.nodup_cons]
    refine ⟨?_, nodup_filter nodes.distinct _⟩
    intro member
    obtain ⟨other, kept, same⟩ := List.mem_map.mp member
    exact of_decide_eq_true (List.mem_filter.mp kept).2 same

structure Change where
  apply : Node → Node
  id : ∀ n, (apply n).id = n.id

def modify (nodes : NodeMap) (id : String) (change : Change) : NodeMap where
  values := nodes.values.map fun n => if n.id = id then change.apply n else n
  distinct := by
    have same : (nodes.values.map fun n => if n.id = id then change.apply n else n).map Node.id = nodes.values.map Node.id := by
      rw [List.map_map]
      apply List.map_congr_left
      intro n _
      simp only [Function.comp_apply]
      split
      · exact change.id n
      · rfl
    rw [same]
    exact nodes.distinct

variable {nodes : NodeMap} {n node : Node} {id : String}

theorem get_id (found : nodes.get id = some n) : n.id = id := by simpa using List.find?_some found

theorem get_mem (found : nodes.get id = some n) : n ∈ nodes.values := List.mem_of_find?_eq_some found

theorem get_none : nodes.get id = none ↔ ∀ n ∈ nodes.values, n.id ≠ id := by
  simp [get]

theorem eq_of_id {a b : Node} (left : a ∈ nodes.values) (right : b ∈ nodes.values) (same : a.id = b.id) : a = b :=
  List.inj_on_of_nodup_map nodes.distinct left right same

theorem get_of_mem (member : n ∈ nodes.values) : nodes.get n.id = some n := by
  cases found : nodes.get n.id with
  | none => exact absurd rfl (get_none.mp found n member)
  | some other => rw [eq_of_id (get_mem found) member (get_id found)]

@[simp] theorem mem_filter {keep : Node → Bool} : n ∈ (nodes.filter keep).values ↔ n ∈ nodes.values ∧ keep n = true :=
  List.mem_filter

@[simp] theorem mem_remove : n ∈ (nodes.remove id).values ↔ n ∈ nodes.values ∧ n.id ≠ id := by
  simp [remove]

@[simp] theorem mem_insert : n ∈ (nodes.insert node).values ↔ n = node ∨ (n ∈ nodes.values ∧ n.id ≠ node.id) := by
  simp [insert]

theorem mem_modify {change : Change} : n ∈ (nodes.modify id change).values ↔
    (n ∈ nodes.values ∧ n.id ≠ id) ∨ ∃ old ∈ nodes.values, old.id = id ∧ n = change.apply old := by
  constructor
  · intro member
    obtain ⟨old, kept, rfl⟩ := List.mem_map.mp member
    by_cases here : old.id = id
    · rw [if_pos here]
      exact .inr ⟨old, kept, here, rfl⟩
    · rw [if_neg here]
      exact .inl ⟨kept, here⟩
  · rintro (⟨kept, elsewhere⟩ | ⟨old, kept, here, rfl⟩)
    · exact List.mem_map.mpr ⟨n, kept, if_neg elsewhere⟩
    · exact List.mem_map.mpr ⟨old, kept, if_pos here⟩

theorem get_eq_some : nodes.get id = some n ↔ n ∈ nodes.values ∧ n.id = id := by
  refine ⟨fun found => ⟨get_mem found, get_id found⟩, ?_⟩
  rintro ⟨member, rfl⟩
  exact get_of_mem member

theorem get_remove (other : String) : (nodes.remove id).get other = if other = id then none else nodes.get other := by
  split
  · rename_i same
    subst other
    exact get_none.mpr fun n member => (mem_remove.mp member).2
  · rename_i apart
    apply Option.ext
    intro n
    simp only [get_eq_some, mem_remove]
    constructor
    · exact fun held => ⟨held.1.1, held.2⟩
    · exact fun held => ⟨⟨held.1, fun same => apart (held.2.symm.trans same)⟩, held.2⟩

theorem get_insert (other : String) : (nodes.insert node).get other = if other = node.id then some node else nodes.get other := by
  split
  · rename_i same
    exact get_eq_some.mpr ⟨mem_insert.mpr (.inl rfl), same.symm⟩
  · rename_i apart
    apply Option.ext
    intro n
    simp only [get_eq_some, mem_insert]
    constructor
    · rintro ⟨rfl | held, named⟩
      · exact absurd named.symm apart
      · exact ⟨held.1, named⟩
    · exact fun held => ⟨.inr ⟨held.1, fun same => apart (held.2.symm.trans same)⟩, held.2⟩

theorem get_modify {change : Change} (other : String) :
    (nodes.modify id change).get other = if other = id then (nodes.get other).map change.apply else nodes.get other := by
  split
  · rename_i same
    subst other
    apply Option.ext
    intro n
    simp only [get_eq_some, mem_modify, Option.map_eq_some_iff]
    constructor
    · rintro ⟨held | ⟨old, kept, here, rfl⟩, named⟩
      · exact absurd named held.2
      · exact ⟨old, ⟨kept, here⟩, rfl⟩
    · rintro ⟨old, ⟨kept, here⟩, rfl⟩
      exact ⟨.inr ⟨old, kept, here, rfl⟩, (change.id old).trans here⟩
  · rename_i apart
    apply Option.ext
    intro n
    simp only [get_eq_some, mem_modify]
    constructor
    · rintro ⟨held | ⟨old, kept, here, rfl⟩, named⟩
      · exact ⟨held.1, named⟩
      · exact absurd (named.symm.trans ((change.id old).trans here)) apart
    · exact fun held => ⟨.inl ⟨held.1, fun same => apart (held.2.symm.trans same)⟩, held.2⟩

theorem get_filter (keep : Node → Bool) (other : String) : (nodes.filter keep).get other = (nodes.get other).filter keep := by
  apply Option.ext
  intro n
  simp only [get_eq_some, mem_filter, Option.filter_eq_some_iff]
  constructor
  · exact fun held => ⟨⟨held.1.1, held.2⟩, held.1.2⟩
  · exact fun held => ⟨⟨held.1.1, held.2⟩, held.1.2⟩

end NodeMap

structure Me where
  id : String
  address : String
  hostname : String
  port : Nat

structure Registry where
  nodes : NodeMap
  deleted : List String

/-- `get_all_nodes`: records of this node under another name are passed over, and who is
online is judged by when they were last seen. -/
def allNodes (me : Me) (now : Nat) (nodes : NodeMap) : List Node :=
  let self := nodes.get me.id
  let selfHostname := (self.map Node.hostname).getD ""
  let selfInterval := self.bind Node.pollIntervalSecs
  (nodes.values.filter fun n => !isSelfAlias n me.id selfHostname me.port).map fun n =>
    if n.isSelf then n
    else { n with online := now - n.lastSeen < onlineWindowSecs (effectivePollInterval selfInterval n.pollIntervalSecs) }

/-- A record's other id is looked at where no record is kept under the id itself. -/
def Finds (nodes : NodeMap) (id : String) (found : Option Node) : Prop :=
  match nodes.get id with
  | some n => found = some n
  | none => match found with
    | some n => n ∈ nodes.values ∧ n.selfId = some id
    | none => ∀ n ∈ nodes.values, n.selfId ≠ some id

def lookUp (nodes : NodeMap) (id : String) : Option Node :=
  (nodes.get id).or (nodes.values.find? fun n => n.selfId = some id)

theorem lookUp_finds (nodes : NodeMap) (id : String) : Finds nodes id (lookUp nodes id) := by
  unfold Finds lookUp
  cases nodes.get id with
  | some n => rfl
  | none =>
    dsimp only [Option.none_or]
    split
    · rename_i n found
      exact ⟨List.mem_of_find?_eq_some found, by simpa using List.find?_some found⟩
    · rename_i missing
      simpa using missing

/-- The arguments of `update_node_settings`. -/
structure NodeSettings where
  hostname : Option String
  address : Option String
  port : Option Nat
  pveToken : Option String
  pveFingerprint : Option (Option String)
  clusterName : Option String
  loginDisabled : Option Bool
  updateScript : Option String
  site : Option String
  displayName : Option String
  migrationAddress : Option String
  manager : Option Bool

def NodeSettings.none : NodeSettings :=
  ⟨.none, .none, .none, .none, .none, .none, .none, .none, .none, .none, .none, .none⟩

def nonEmpty (text : String) : Option String := if text = "" then none else some text

def NodeSettings.change (settings : NodeSettings) : NodeMap.Change where
  apply n :=
    { n with
      manager := settings.manager.getD n.manager
      hostname := settings.hostname.getD n.hostname
      address := settings.address.getD n.address
      port := settings.port.getD n.port
      migrationAddress := (settings.migrationAddress.map fun a => nonEmpty (Auth.trim a)).getD n.migrationAddress
      pveToken := settings.pveToken.or n.pveToken
      pveFingerprint := settings.pveFingerprint.getD n.pveFingerprint
      loginDisabled := settings.loginDisabled.getD n.loginDisabled
      updateScript := (settings.updateScript.map nonEmpty).getD n.updateScript
      site := (settings.site.map nonEmpty).getD n.site
      displayName := (settings.displayName.map nonEmpty).getD n.displayName
      clusterName := settings.clusterName.or n.clusterName
      pveClusterName := if n.nodeType = "proxmox" then settings.clusterName.or n.pveClusterName else n.pveClusterName }
  id _ := rfl

structure ServerOptions where
  address : String
  port : Nat
  nodeType : String
  pveToken : Option String
  pveFingerprint : Option String
  pveNodeName : Option String
  pveClusterName : Option String
  clusterName : Option String

def newServer (options : ServerOptions) (id : String) (now : Nat) : Node where
  id := id
  hostname := options.address
  address := options.address
  port := options.port
  migrationAddress := none
  lastSeen := now
  online := false
  isSelf := false
  publicIp := none
  nodeType := options.nodeType
  pveToken := options.pveToken
  pveFingerprint := options.pveFingerprint
  pveNodeName := options.pveNodeName
  pveClusterName := options.pveClusterName
  clusterName := options.clusterName
  joinVerified := false
  hasDocker := false
  hasLxc := false
  loginDisabled := false
  tls := false
  updateScript := none
  selfId := none
  pubkey := none
  manager := true
  site := none
  displayName := none
  pollIntervalSecs := none

def sameServer (options : ServerOptions) (n : Node) : Bool :=
  n.address = options.address ∧ n.port = options.port ∧ n.nodeType = options.nodeType ∧ n.pveNodeName = options.pveNodeName

/-- What a peer says about itself and the nodes it knows. -/
structure StatusReport where
  nodeId : String
  hostname : String
  publicIp : Option String
  knownNodes : List Node
  deletedIds : List String
  hasDocker : Bool
  hasLxc : Bool
  site : Option String
  displayName : Option String
  pollIntervalSecs : Option Nat
  pubkey : Option String

/-- A key is pinned on first sight, and never replaced by another. -/
def pin (pinned reported : Option String) : Option String :=
  (pinned.filter fun k => k ≠ "").or (reported.filter fun k => k ≠ "")

/-- The record that a poll writes: much of it from the copy made before the poll, the key
and the policy as they were read just before. -/
def polled (node : Node) (liveKey : Option String) (liveManager : Bool) (report : StatusReport) (tls : Bool) (now : Nat) : Node where
  id := node.id
  hostname := report.hostname
  address := node.address
  port := node.port
  migrationAddress := node.migrationAddress
  lastSeen := now
  online := true
  isSelf := false
  publicIp := report.publicIp
  nodeType := "wolfstack"
  pveToken := none
  pveFingerprint := none
  pveNodeName := none
  pveClusterName := none
  clusterName := node.clusterName
  joinVerified := node.joinVerified
  hasDocker := report.hasDocker
  hasLxc := report.hasLxc
  loginDisabled := node.loginDisabled
  tls := tls
  updateScript := node.updateScript
  selfId := if report.nodeId = "" then node.selfId else some report.nodeId
  pubkey := pin liveKey report.pubkey
  manager := liveManager
  site := report.site
  displayName := report.displayName
  pollIntervalSecs := normalizePollInterval report.pollIntervalSecs

/-- `isTombstoned` looks at the entry's id only. -/
inductive Section : Type → Type where
  | allNodes : Section (List Node)
  | getNode (id : String) : Section (Option Node)
  | updateRemote (node : Node) : Section Unit
  | updatePolled (node : Node) (liveKey : Option String) (liveManager : Bool) (report : StatusReport) (tls : Bool) : Section Unit
  | updateSettings (id : String) (settings : NodeSettings) : Section Bool
  | resetKey (id : String) : Section Bool
  | markVerified (id : String) : Section Unit
  | touch (id : String) : Section Unit
  | addServer (options : ServerOptions) (id : String) : Section String
  | remove (id : String) : Section Bool
  | insertTombstone (id : String) : Section Unit
  | mergeDeleted (ids : List String) : Section Bool
  | dropTombstoned : Section Unit
  | isTombstoned (entry : Node) : Section Bool

def keyReset : NodeMap.Change where
  apply n := if n.isSelf then n else { n with pubkey := none }
  id n := by
    split <;> rfl

def verified : NodeMap.Change := ⟨fun n => { n with joinVerified := true }, fun _ => rfl⟩

def touched (now : Nat) : NodeMap.Change := ⟨fun n => { n with lastSeen := now }, fun _ => rfl⟩

/-- What a section does. The order of a map's values, and which of several that match is
found, is anything. -/
def Section.Runs (me : Me) (now : Nat) (s : Registry) : {β : Type} → Section β → β → Registry → Prop
  | _, .allNodes, value, after => value.Perm (Cluster.allNodes me now s.nodes) ∧ after = s
  | _, .getNode id, value, after => Finds s.nodes id value ∧ after = s
  | _, .updateRemote record, _, after => after = { s with nodes := s.nodes.insert record }
  | _, .updatePolled record liveKey liveManager report tls, _, after =>
    after = { s with nodes := s.nodes.insert (polled record liveKey liveManager report tls now) }
  | _, .updateSettings id settings, value, after =>
    value = (s.nodes.get id).isSome ∧ after = { s with nodes := s.nodes.modify id settings.change }
  | _, .resetKey id, value, after =>
    value = (s.nodes.get id).any (fun n => !n.isSelf) ∧ after = { s with nodes := s.nodes.modify id keyReset }
  | _, .markVerified id, _, after => after = { s with nodes := s.nodes.modify id verified }
  | _, .touch id, _, after => after = { s with nodes := s.nodes.modify id (touched now) }
  | _, .addServer options id, value, after =>
    (∃ n ∈ s.nodes.values, sameServer options n = true ∧ value = n.id ∧ after = s) ∨
      ((∀ n ∈ s.nodes.values, sameServer options n = false) ∧ value = id ∧
        after = { s with nodes := s.nodes.insert (newServer options id now) })
  | _, .remove id, value, after => value = (s.nodes.get id).isSome ∧ after = { s with nodes := s.nodes.remove id }
  | _, .insertTombstone id, _, after => after = { s with deleted := s.deleted.insert id }
  | _, .mergeDeleted ids, value, after =>
    value = (ids.any fun id => id ≠ me.id ∧ id ∉ s.deleted) ∧ after = { s with deleted := s.deleted ∪ ids.filter fun id => id ≠ me.id }
  | _, .dropTombstoned, _, after => after = { s with nodes := s.nodes.filter fun n => n.id ∉ s.deleted }
  | _, .isTombstoned entry, value, after => value = decide (entry.id ∈ s.deleted) ∧ after = s

def Section.run (me : Me) (now : Nat) (s : Registry) : {β : Type} → Section β → Registry × β
  | _, .allNodes => (s, Cluster.allNodes me now s.nodes)
  | _, .getNode id => (s, lookUp s.nodes id)
  | _, .updateRemote record => ({ s with nodes := s.nodes.insert record }, ())
  | _, .updatePolled record liveKey liveManager report tls =>
    ({ s with nodes := s.nodes.insert (polled record liveKey liveManager report tls now) }, ())
  | _, .updateSettings id settings => ({ s with nodes := s.nodes.modify id settings.change }, (s.nodes.get id).isSome)
  | _, .resetKey id => ({ s with nodes := s.nodes.modify id keyReset }, (s.nodes.get id).any fun n => !n.isSelf)
  | _, .markVerified id => ({ s with nodes := s.nodes.modify id verified }, ())
  | _, .touch id => ({ s with nodes := s.nodes.modify id (touched now) }, ())
  | _, .addServer options id =>
    match s.nodes.values.find? (sameServer options) with
    | some n => (s, n.id)
    | none => ({ s with nodes := s.nodes.insert (newServer options id now) }, id)
  | _, .remove id => ({ s with nodes := s.nodes.remove id }, (s.nodes.get id).isSome)
  | _, .insertTombstone id => ({ s with deleted := s.deleted.insert id }, ())
  | _, .mergeDeleted ids =>
    ({ s with deleted := s.deleted ∪ ids.filter fun id => id ≠ me.id }, ids.any fun id => id ≠ me.id ∧ id ∉ s.deleted)
  | _, .dropTombstoned => ({ s with nodes := s.nodes.filter fun n => n.id ∉ s.deleted }, ())
  | _, .isTombstoned entry => (s, entry.id ∈ s.deleted)

theorem Section.run_runs (me : Me) (now : Nat) (s : Registry) {β : Type} (operation : Section β) :
    operation.Runs me now s (operation.run me now s).2 (operation.run me now s).1 := by
  cases operation with
  | allNodes => exact ⟨.refl _, rfl⟩
  | getNode id => exact ⟨lookUp_finds s.nodes id, rfl⟩
  | addServer options id =>
    simp only [Section.run, Section.Runs]
    split
    · rename_i n found
      exact .inl ⟨n, List.mem_of_find?_eq_some found, List.find?_some found, rfl, rfl⟩
    · rename_i missing
      exact .inr ⟨by simpa using missing, rfl, rfl⟩
  | updateRemote _ | updatePolled _ _ _ _ _ | markVerified _ | touch _ | insertTombstone _ | dropTombstoned => exact rfl
  | updateSettings _ _ | resetKey _ | remove _ | mergeDeleted _ | isTombstoned _ => exact ⟨rfl, rfl⟩

/-- The map first, the tombstone after. -/
def removeServer (id : String) : Program Section Bool := do
  let removed ← send (.remove id)
  if removed then
    send (.insertTombstone id)
    return true
  else return false

/-- No tombstone: the id is the one by which the peers know this node. -/
def forgetSelfAlias (id : String) : Program Section Unit := do
  let _ ← send (.remove id)
  return ()

def mergeTombstones (remoteDeleted : List String) : Program Section Unit := do
  let changed ← send (.mergeDeleted remoteDeleted)
  if changed then send .dropTombstoned else return ()

def updateNodeSettings (id : String) (settings : NodeSettings) : Program Section Bool := send (.updateSettings id settings)

/-- The id is what the random part makes it. -/
def addServer (address : String) (port : Nat) (clusterName : Option String) (random : String) : Program Section String := do
  let options : ServerOptions := ⟨address, port, "wolfstack", none, none, none, none, clusterName⟩
  let id ← send (.addServer options ("node-" ++ random))
  send (.markVerified id)
  return id

end Cluster
