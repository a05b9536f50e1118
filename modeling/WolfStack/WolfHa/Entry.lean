import Mathlib.Data.List.Basic

/-! The WolfHA store: one entry for every protected subject, kept in wolfha.json.
The data follows `wolfha/mod.rs`; unix seconds and minutes are natural numbers,
and the sync map is an association list keyed by node id. -/

namespace WolfHa

inductive HaRole where
  | primary
  | replica
deriving DecidableEq, Repr

inductive SubjectKind where
  | container
  | vm
  | pveContainer
deriving DecidableEq, Repr

namespace SubjectKind

def default : SubjectKind := .container

def label : SubjectKind → String
  | .container => "container"
  | .vm => "VM"
  | .pveContainer => "Proxmox container"

end SubjectKind

structure HaPeer where
  nodeId : String
  address : String
  port : UInt16
deriving DecidableEq, Repr

structure HaSyncStatus where
  at_ : Nat
  ok : Bool
  message : String
  filesSent : Nat
  bytesSent : Nat
deriving DecidableEq, Repr

/-- A delta awaiting confirmation. `token` is what the chain advances to. -/
structure PendingDelta where
  path : String
  takenAt : Nat
  appliedBy : List String
  token : String
deriving DecidableEq, Repr

def defaultFailoverAfter : Nat := 90

structure HaEntry where
  container : String
  kind : SubjectKind
  role : HaRole
  intervalMinutes : Nat
  replicas : List HaPeer
  primary : Option HaPeer
  autostartManaged : Bool
  lastSync : List (String × HaSyncStatus)
  lastDeltaAt : Nat
  stale : Bool
  autoFailover : Bool
  witness : String
  failoverAfterSecs : Nat
  pendingVmDelta : Option PendingDelta
  vmChain : Option String
  selfIdentity : Option HaPeer
  zfsDatasets : List String
deriving DecidableEq, Repr

/-- The settings a primary pushes to its replicas with every seed and delta. -/
structure HaMeta where
  kind : SubjectKind
  intervalMinutes : Nat
  replicas : List HaPeer
  autoFailover : Bool
  witness : String
  failoverAfterSecs : Nat
  primary : Option HaPeer
  zfsDatasets : List String
deriving DecidableEq, Repr

namespace HaMeta

def fromEntry (e : HaEntry) : HaMeta where
  kind := e.kind
  intervalMinutes := e.intervalMinutes
  replicas := e.replicas
  autoFailover := e.autoFailover
  witness := e.witness
  failoverAfterSecs := e.failoverAfterSecs
  primary := e.selfIdentity
  zfsDatasets := e.zfsDatasets

def applyTo (m : HaMeta) (e : HaEntry) : HaEntry :=
  { e with
    kind := m.kind
    intervalMinutes := m.intervalMinutes
    replicas := m.replicas
    autoFailover := m.autoFailover
    witness := m.witness
    failoverAfterSecs := m.failoverAfterSecs
    zfsDatasets := if m.zfsDatasets.isEmpty then e.zfsDatasets else m.zfsDatasets
    primary := if e.role = .replica ∧ m.primary.isSome then m.primary else e.primary }

variable (m : HaMeta) (e : HaEntry)

end HaMeta

/-- What a standby's entry starts from, before the sender's settings arrive. -/
def HaEntry.blank (container : String) (kind : SubjectKind) (primary : Option HaPeer) : HaEntry where
  container := container
  kind := kind
  role := .replica
  intervalMinutes := 0
  replicas := []
  primary := primary
  autostartManaged := false
  lastSync := []
  lastDeltaAt := 0
  stale := false
  autoFailover := false
  witness := ""
  failoverAfterSecs := defaultFailoverAfter
  pendingVmDelta := none
  vmChain := none
  selfIdentity := none
  zfsDatasets := []

/-- `HashMap::insert` on the per-replica results. -/
def recordStatus (statuses : List (String × HaSyncStatus)) (id : String) (status : HaSyncStatus) :
    List (String × HaSyncStatus) :=
  (id, status) :: statuses.filter (fun known => known.1 ≠ id)

structure HaStore where
  entries : List HaEntry
deriving DecidableEq, Repr

namespace HaStore

def empty : HaStore := ⟨[]⟩

def get (store : HaStore) (container : String) : Option HaEntry :=
  store.entries.find? (fun e => e.container = container)

/-- Writing through `get_mut`: the first entry of that name is replaced. -/
def modify (store : HaStore) (container : String) (change : HaEntry → HaEntry) : HaStore where
  entries := go store.entries
where
  go : List HaEntry → List HaEntry
    | [] => []
    | e :: rest => if e.container = container then change e :: rest else e :: go rest

def remove (store : HaStore) (container : String) : HaStore where
  entries := store.entries.filter (fun e => e.container ≠ container)

def push (store : HaStore) (entry : HaEntry) : HaStore where
  entries := store.entries ++ [entry]

private theorem find_go (entries : List HaEntry) (container : String) (change : HaEntry → HaEntry)
    (named : ∀ e, (change e).container = e.container) (other : String) :
    (modify.go container change entries).find? (fun e => e.container = other) =
      if other = container then (entries.find? (fun e => e.container = container)).map change
      else entries.find? (fun e => e.container = other) := by
  induction entries with
  | nil => simp [modify.go]
  | cons e rest ih =>
    by_cases here : e.container = container
    · by_cases same : other = container
      · simp [modify.go, here, same, named]
      · have apart : ¬ container = other := fun equal => same equal.symm
        simp [modify.go, here, same, named, apart]
    · by_cases same : other = container
      · subst other
        simpa [modify.go, here] using ih
      · simp only [modify.go, here, if_false, List.find?_cons]
        split
        · rw [if_neg same]
        · exact ih

theorem get_modify (store : HaStore) (container other : String) (change : HaEntry → HaEntry)
    (named : ∀ e, (change e).container = e.container) :
    (store.modify container change).get other =
      if other = container then (store.get container).map change else store.get other :=
  find_go store.entries container change named other

@[simp] theorem get_modify_self (store : HaStore) (container : String) (change : HaEntry → HaEntry)
    (named : ∀ e, (change e).container = e.container) :
    (store.modify container change).get container = (store.get container).map change := by
  rw [get_modify store container container change named, if_pos rfl]

theorem get_modify_found {store : HaStore} {container : String} (change : HaEntry → HaEntry)
    (named : ∀ e, (change e).container = e.container) {old : HaEntry} (stored : store.get container = some old) :
    (store.modify container change).get container = some (change old) := by
  rw [get_modify_self store container change named, stored, Option.map_some]

theorem get_modify_other (store : HaStore) {container other : String} (change : HaEntry → HaEntry)
    (named : ∀ e, (change e).container = e.container) (apart : other ≠ container) :
    (store.modify container change).get other = store.get other := by
  rw [get_modify store container other change named, if_neg apart]

@[simp] theorem get_remove_self (store : HaStore) (container : String) :
    (store.remove container).get container = none := by
  simp [get, remove, List.find?_eq_none]

theorem get_push (store : HaStore) (entry : HaEntry) (container : String) :
    (store.push entry).get container =
      (store.get container).or (if entry.container = container then some entry else none) := by
  by_cases same : entry.container = container
  · simp [get, push, List.find?_append, same]
  · simp [get, push, List.find?_append, same]

end HaStore
end WolfHa
