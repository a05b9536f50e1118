import Mathlib.Data.List.Basic
import Mathlib.Algebra.GroupWithZero.Nat

/-! WolfRun services and the changes one lock section makes to the list of them. The
data follows `wolfrun/mod.rs`; unix seconds are natural numbers. -/

namespace WolfRun

inductive Runtime where
  | docker
  | lxc
deriving DecidableEq, Repr

inductive Placement where
  | any
  | preferNode (node : String)
  | requireNode (node : String)
deriving DecidableEq, Repr

inductive RestartPolicy where
  | always
  | onFailure
  | never
deriving DecidableEq, Repr

structure ServiceInstance where
  nodeId : String
  containerName : String
  wolfnetIp : Option String
  status : String
  lastSeen : Nat
  standby : Bool
deriving DecidableEq, Repr

structure LxcConfig where
  distribution : String
  release : String
  architecture : String
deriving DecidableEq, Repr

structure WolfRunService where
  id : String
  name : String
  image : String
  replicas : Nat
  minReplicas : Nat
  maxReplicas : Nat
  runtime : Runtime
  lxcConfig : Option LxcConfig
  env : List String
  ports : List String
  volumes : List String
  clusterName : String
  placement : Placement
  restartPolicy : RestartPolicy
  instances : List ServiceInstance
  serviceIp : Option String
  lbPolicy : String
  allowedNodes : List String
  failover : Bool
  createdAt : Nat
  updatedAt : Nat
deriving DecidableEq, Repr

abbrev Services := List WolfRunService

namespace Services
variable (services : Services)

def get (id : String) : Option WolfRunService := services.find? fun s => s.id = id

def ofCluster (cluster : String) : Services := services.filter fun s => s.clusterName = cluster

/-- `list`, of one cluster or of all. -/
def listed : Option String → Services
  | some cluster => services.ofCluster cluster
  | none => services

def recordedOn (node : String) : Nat :=
  (services.map fun s => (s.instances.filter fun i => i.nodeId = node).length).sum

/-- Writing through `iter_mut().find`. -/
def modify (id : String) (change : WolfRunService → WolfRunService) : Services → Services
  | [] => []
  | s :: rest => if s.id = id then change s :: rest else s :: modify id change rest

/-- `position` and `remove`: the first service of that id goes. -/
def removeFirst (id : String) : Services → Services
  | [] => []
  | s :: rest => if s.id = id then rest else s :: removeFirst id rest

def removeAll (id : String) : Services := services.filter fun s => s.id ≠ id

def replaceClusters (clusters : List String) (accepted : Services) : Services :=
  services.filter (fun s => s.clusterName ∉ clusters) ++ accepted

variable {services}

theorem mem_removeFirst {id : String} {s : WolfRunService} (member : s ∈ Services.removeFirst id services) :
    s ∈ services := by
  induction services with
  | nil => exact member
  | cons first rest ih =>
    rw [removeFirst] at member
    split at member
    · exact List.mem_cons_of_mem _ member
    · rcases List.mem_cons.mp member with rfl | member
      · exact List.mem_cons_self
      · exact List.mem_cons_of_mem _ (ih member)

/-- With one copy at most, none is left. -/
theorem removeFirst_only {id : String} {s : WolfRunService} (one : (services.filter fun s => s.id = id).length ≤ 1)
    (member : s ∈ Services.removeFirst id services) : s.id ≠ id := by
  induction services with
  | nil => cases member
  | cons first rest ih =>
    rw [removeFirst] at member
    split at member
    · rename_i here
      rw [List.filter_cons_of_pos (by simpa using here), List.length_cons] at one
      have none_ : rest.filter (fun s => s.id = id) = [] := List.length_eq_zero_iff.mp (by omega)
      simpa using List.filter_eq_nil_iff.mp none_ s member
    · rename_i apart
      rw [List.filter_cons_of_neg (by simpa using apart)] at one
      rcases List.mem_cons.mp member with rfl | later
      · exact apart
      · exact ih one later

theorem mem_removeAll {id : String} {s : WolfRunService} : s ∈ services.removeAll id ↔ s ∈ services ∧ s.id ≠ id := by
  simp [removeAll]

theorem mem_replaceClusters {clusters : List String} {accepted : Services} {s : WolfRunService} :
    s ∈ services.replaceClusters clusters accepted ↔ (s ∈ services ∧ s.clusterName ∉ clusters) ∨ s ∈ accepted := by
  simp [replaceClusters]

theorem mem_modify {id : String} {change : WolfRunService → WolfRunService} {s : WolfRunService}
    (member : s ∈ Services.modify id change services) :
    s ∈ services ∨ ∃ old, services.get id = some old ∧ s = change old := by
  induction services with
  | nil => cases member
  | cons first rest ih =>
    rw [modify] at member
    rw [get, List.find?_cons]
    split at member
    · rename_i here
      rcases List.mem_cons.mp member with rfl | member
      · exact .inr ⟨first, by simp [here], rfl⟩
      · exact .inl (List.mem_cons_of_mem _ member)
    · rename_i elsewhere
      rcases List.mem_cons.mp member with rfl | member
      · exact .inl List.mem_cons_self
      · rcases ih member with kept | ⟨old, found, rfl⟩
        · exact .inl (List.mem_cons_of_mem _ kept)
        · exact .inr ⟨old, by simpa [elsewhere, get] using found, rfl⟩

theorem mem_modify_of_ne {id : String} {change : WolfRunService → WolfRunService} {s : WolfRunService} (member : s ∈ services)
    (other : s.id ≠ id) : s ∈ Services.modify id change services := by
  induction services with
  | nil => cases member
  | cons first rest ih =>
    rw [modify]
    rcases List.mem_cons.mp member with rfl | member
    · rw [if_neg other]
      exact List.mem_cons_self
    · split
      · exact List.mem_cons_of_mem _ member
      · exact List.mem_cons_of_mem _ (ih member)

theorem mem_of_get {id : String} {s : WolfRunService} (found : services.get id = some s) : s ∈ services ∧ s.id = id := by
  refine ⟨List.mem_of_find?_eq_some found, ?_⟩
  have same := List.find?_some found
  exact of_decide_eq_true same

theorem changed_mem_modify {id : String} {change : WolfRunService → WolfRunService} {s : WolfRunService}
    (found : services.get id = some s) : change s ∈ Services.modify id change services := by
  induction services with
  | nil => cases found
  | cons first rest ih =>
    rw [get, List.find?_cons] at found
    rw [modify]
    split at found
    · rename_i here
      cases found
      rw [if_pos (of_decide_eq_true here)]
      exact List.mem_cons_self
    · rename_i elsewhere
      rw [if_neg (of_decide_eq_false elsewhere)]
      exact List.mem_cons_of_mem _ (ih found)

theorem modify_missing {id : String} {change : WolfRunService → WolfRunService} (missing : services.get id = none) :
    Services.modify id change services = services := by
  induction services with
  | nil => rfl
  | cons first rest ih =>
    rw [get, List.find?_cons] at missing
    rw [modify]
    split at missing
    · cases missing
    · rename_i elsewhere
      rw [if_neg (of_decide_eq_false elsewhere), ih missing]

theorem mem_removeFirst_of_ne {id : String} {s : WolfRunService} (member : s ∈ services) (other : s.id ≠ id) :
    s ∈ Services.removeFirst id services := by
  induction services with
  | nil => cases member
  | cons first rest ih =>
    rw [removeFirst]
    rcases List.mem_cons.mp member with rfl | member
    · rw [if_neg other]
      exact List.mem_cons_self
    · split
      · exact member
      · exact List.mem_cons_of_mem _ (ih member)

theorem removeFirst_missing {id : String} (missing : services.get id = none) : Services.removeFirst id services = services := by
  induction services with
  | nil => rfl
  | cons first rest ih =>
    rw [get, List.find?_cons] at missing
    rw [removeFirst]
    split at missing
    · cases missing
    · rename_i elsewhere
      rw [if_neg (of_decide_eq_false elsewhere), ih missing]

theorem get_modify (id other : String) (change : WolfRunService → WolfRunService) (named : ∀ s, (change s).id = s.id) :
    (Services.modify id change services).get other =
      if other = id then (services.get id).map change else services.get other := by
  induction services with
  | nil => simp [modify, get]
  | cons first rest ih =>
    by_cases here : first.id = id
    · by_cases same : other = id
      · simp [modify, get, here, same, named]
      · have apart : ¬ id = other := fun equal => same equal.symm
        simp [modify, get, here, same, named, apart]
    · by_cases same : other = id
      · subst other
        simpa [modify, get, here] using ih
      · simp only [modify, here, if_false, get, List.find?_cons]
        split
        · rw [if_neg same]
        · simpa [get] using ih

end Services

def scaled (replicas now : Nat) (s : WolfRunService) : WolfRunService :=
  let maxReplicas := if s.maxReplicas < replicas then replicas else s.maxReplicas
  { s with maxReplicas, replicas := min (max replicas s.minReplicas) maxReplicas, updatedAt := now }

structure ServiceSettingsUpdate where
  min : Option Nat
  max : Option Nat
  desired : Option Nat
  lbPolicy : Option String
  allowedNodes : Option (List String)
  failover : Option Bool

def updatedPolicy (current : String) : Option String → String
  | some policy => if policy = "ip_hash" ∨ policy = "round_robin" then policy else current
  | none => current

/-- Settings are brought to `min <= desired <= max`. -/
def updatedSettings (settings : ServiceSettingsUpdate) (now : Nat) (s : WolfRunService) : WolfRunService :=
  let maxReplicas := settings.max.getD s.maxReplicas
  let minReplicas := Nat.min (settings.min.getD s.minReplicas) maxReplicas
  { s with
    minReplicas
    maxReplicas
    replicas := Nat.min (Nat.max (settings.desired.getD s.replicas) minReplicas) maxReplicas
    lbPolicy := updatedPolicy s.lbPolicy settings.lbPolicy
    allowedNodes := settings.allowedNodes.getD s.allowedNodes
    failover := settings.failover.getD s.failover
    updatedAt := now }

def updatedImage (image : String) (now : Nat) (s : WolfRunService) : WolfRunService := { s with image, updatedAt := now }

def withInstances (instances : List ServiceInstance) (now : Nat) (s : WolfRunService) : WolfRunService :=
  { s with instances, updatedAt := now }

def addedInstance (inst : ServiceInstance) (s : WolfRunService) : WolfRunService :=
  { s with instances := s.instances ++ [inst] }

def removedInstance (containerName : String) (s : WolfRunService) : WolfRunService :=
  { s with instances := s.instances.filter fun i => i.containerName ≠ containerName }

def activated (containerName : String) (now : Nat) : List ServiceInstance → List ServiceInstance
  | [] => []
  | i :: rest =>
    if i.containerName = containerName then { i with standby := false, status := "running", lastSeen := now } :: rest
    else i :: activated containerName now rest

def promoted (standby failed : String) (now : Nat) (s : WolfRunService) : WolfRunService :=
  { s with instances := (activated standby now s.instances).filter fun i => i.containerName ≠ failed }

inductive Edit where
  | scale (replicas : Nat)
  | settings (update : ServiceSettingsUpdate)
  | image (image : String)
  | instances (instances : List ServiceInstance)
  | addInstance (inst : ServiceInstance)
  | removeInstance (containerName : String)
  | promote (standby failed : String)

def Edit.apply (now : Nat) : Edit → WolfRunService → WolfRunService
  | .scale replicas => scaled replicas now
  | .settings update => updatedSettings update now
  | .image name => updatedImage name now
  | .instances live => withInstances live now
  | .addInstance inst => addedInstance inst
  | .removeInstance containerName => removedInstance containerName
  | .promote standby failed => promoted standby failed now

theorem Edit.apply_id (edit : Edit) (now : Nat) (s : WolfRunService) : (edit.apply now s).id = s.id := by
  cases edit <;> rfl

def remappedInstance (oldNode newNode : String) (i : ServiceInstance) : ServiceInstance :=
  if i.nodeId = oldNode then { i with nodeId := newNode } else i

/-- `remap_node_id`, on every service. -/
def remapNodeId (oldNode newNode : String) (services : Services) : Services :=
  if oldNode = newNode ∨ oldNode = "" then services
  else services.map fun s => { s with instances := s.instances.map (remappedInstance oldNode newNode) }

def sampleService (id : String) : WolfRunService where
  id := id
  name := id
  image := "nginx"
  replicas := 1
  minReplicas := 0
  maxReplicas := 10
  runtime := .docker
  lxcConfig := none
  env := []
  ports := []
  volumes := []
  clusterName := "c1"
  placement := .any
  restartPolicy := .always
  instances := []
  serviceIp := none
  lbPolicy := "round_robin"
  allowedNodes := []
  failover := false
  createdAt := 0
  updatedAt := 0

end WolfRun
