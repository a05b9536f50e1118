import WolfStack.Effects.Schedule
import WolfStack.WolfRun.State

/-! Nodes of one cluster that edit their WolfRun services and send each other their
lists. What is posted stays on the network: it may arrive late, never, or again. -/

namespace WolfRun
open Effects
open Effects.Program (send)

variable {ι : Type}

/-- What a node asks for besides its own sections. -/
inductive Outside (ι : Type) : Type → Type where
  | unixNow : Outside ι Nat
  | newUuid : Outside ι String
  | nextWolfnetIp : Outside ι (Option String)
  | hostArch : Outside ι String
  | post (peer : ι) (services : Services) : Outside ι (List String)
  | receive : Outside ι Services
  | receiveDelete : Outside ι String

abbrev Task (ι α : Type) := Program (Joint Section (Outside ι)) α

def ask {α : Type} (operation : Outside ι α) : Task ι α := send (.second operation)

structure CreateService where
  name : String
  image : String
  replicas : Nat
  clusterName : String
  env : List String
  ports : List String
  volumes : List String
  placement : Placement
  restartPolicy : RestartPolicy
  runtime : Runtime
  lxcConfig : Option LxcConfig
  failover : Bool

def created (request : CreateService) (id : String) (serviceIp : Option String) (now : Nat) : WolfRunService where
  id := id
  name := request.name
  image := request.image
  replicas := request.replicas
  minReplicas := 0
  maxReplicas := 10
  runtime := request.runtime
  lxcConfig := request.lxcConfig
  env := request.env
  ports := request.ports
  volumes := request.volumes
  clusterName := request.clusterName
  placement := request.placement
  restartPolicy := request.restartPolicy
  instances := []
  serviceIp := serviceIp
  lbPolicy := "round_robin"
  allowedNodes := []
  failover := request.failover
  createdAt := now
  updatedAt := now

structure AdoptService where
  name : String
  containerName : String
  nodeId : String
  image : String
  runtime : Runtime
  clusterName : String
  env : List String
  ports : List String
  volumes : List String

/-- `splitn(2, ' ')` of an image such as `ubuntu 24.04`. -/
def lxcImage (image arch : String) : LxcConfig :=
  match image.toList.span (· ≠ ' ') with
  | (distribution, []) => ⟨String.ofList distribution, "24.04", arch⟩
  | (distribution, _ :: release) => ⟨String.ofList distribution, String.ofList release, arch⟩

def adopted (request : AdoptService) (id arch : String) (serviceIp : Option String) (now : Nat) : WolfRunService where
  id := id
  name := request.name
  image := request.image
  replicas := 1
  minReplicas := 1
  maxReplicas := 10
  runtime := request.runtime
  lxcConfig :=
    match request.runtime with
    | .lxc => some (lxcImage request.image arch)
    | .docker => none
  env := request.env
  ports := request.ports
  volumes := request.volumes
  clusterName := request.clusterName
  placement := .any
  restartPolicy := .always
  instances :=
    [{ nodeId := request.nodeId, containerName := request.containerName, wolfnetIp := none, status := "running",
       lastSeen := now, standby := false }]
  serviceIp := serviceIp
  lbPolicy := "round_robin"
  allowedNodes := []
  failover := false
  createdAt := now
  updatedAt := now

def pushed (svc : WolfRunService) : Program Section WolfRunService := do
  send (.push svc)
  send .saveServices
  return svc

def create (request : CreateService) : Task ι WolfRunService := do
  let now ← ask .unixNow
  let uuid ← ask .newUuid
  let serviceIp ← ask .nextWolfnetIp
  (pushed (created request ("svc-" ++ uuid.take 8) serviceIp now)).first

def adopt (request : AdoptService) : Task ι WolfRunService := do
  let id ← ask .newUuid
  let now ← ask .unixNow
  let serviceIp ← ask .nextWolfnetIp
  let arch ← ask .hostArch
  (pushed (adopted request id arch serviceIp now)).first

def postAll (services : Services) : List ι → Task ι (List String)
  | [] => return []
  | peer :: rest => do
    let deletedIds ← ask (.post peer services)
    let others ← postAll services rest
    return deletedIds ++ others

/-- What the peers know to be deleted goes here too. Destroying the containers is left out. -/
def learnDeletions : List String → Task ι Unit
  | [] => return ()
  | id :: rest => do
    match ← send (.first (.get id)) with
    | some _ =>
      let _ ← (delete id).first
      learnDeletions rest
    | none =>
      (recordTombstone id).first
      learnDeletions rest

/-- `peers` are the nodes that are online and of the same cluster. An empty list is not sent. -/
def broadcastToCluster (peers : List ι) : Task ι Unit := do
  let services ← send (.first (.list none))
  if services = [] then return ()
  else
    let deletedIds ← postAll services peers
    learnDeletions deletedIds.dedup

def sync : Task ι (List String) := do
  let services ← ask .receive
  (mergeFromPeer services).first

def syncDelete : Task ι Bool := do
  let id ← ask .receiveDelete
  (removeIfExists id).first

structure Message (ι : Type) where
  sender : ι
  target : ι
  services : Services
  mark : Nat

/-- `edits` counts the operations of all nodes, `made` has the versions they made, and
`gone` the services an operator has deleted. A broadcast marks its list with the count at
the time; `heard` says that the list a node had after the last edit has been taken in. -/
structure Peers (ι : Type) where
  stores : ι → Store
  clock : ι → Nat
  posted : List (Message ι)
  edits : Nat
  made : List (ι × WolfRunService)
  gone : List String
  heard : ι → ι → Bool
  listed : ι × Nat → Option (Nat × Services)
  taken : ι × Nat → Option (Message ι)

namespace Peers
variable [DecidableEq ι] (w : Peers ι)

def services (i : ι) : Services := (w.stores i).services

def edit (i : ι) (svc : WolfRunService) : Peers ι :=
  { w with edits := w.edits + 1, made := (i, svc) :: w.made, heard := fun _ _ => false }

/-- A list of no services reaches everybody, as it is not sent. -/
def list (thread : ι × Nat) (services : Services) : Peers ι :=
  { w with
    listed := Function.update w.listed thread (some (w.edits, services))
    heard := if services = [] then Function.update w.heard thread.1 fun _ => true else w.heard }

def hear (thread : ι × Nat) : Peers ι :=
  match w.taken thread with
  | some message =>
    if message.mark = w.edits then
      { w with heard := Function.update w.heard message.sender (Function.update (w.heard message.sender) thread.1 true) }
    else w
  | none => w

def noted (thread : ι × Nat) : {β : Type} → Section β → Peers ι
  | _, .push svc => w.edit thread.1 svc
  | _, .write id edit =>
    match (w.services thread.1).get id with
    | some svc => w.edit thread.1 (edit.apply (w.clock thread.1) svc)
    | none => w
  | _, .list none => w.list thread (w.services thread.1)
  | _, .removeFirst id => if ((w.services thread.1).get id).isSome then { w with gone := id :: w.gone } else w
  | _, .replaceClusters _ _ => w.hear thread
  | _, _ => w

def withStore (i : ι) (store : Store) : Peers ι := { w with stores := Function.update w.stores i store }

def sent (thread : ι × Nat) (peer : ι) (services : Services) : Message ι where
  sender := thread.1
  target := peer
  services := services
  mark := ((w.listed thread).map Prod.fst).getD 0

/-- No service that an operator keeps is lost in a merge, or replaced by an older version. -/
def Uncrossed (w : Peers ι) (i : ι) : {β : Type} → Section β → Prop
  | _, .replaceClusters clusters accepted =>
    ∀ svc ∈ w.services i, svc.id ∉ w.gone → svc.clusterName ∈ clusters →
      ∃ other ∈ accepted, other.id = svc.id ∧ svc.updatedAt ≤ other.updatedAt
  | _, _ => True

instance (i : ι) {β : Type} (operation : Section β) : Decidable (w.Uncrossed i operation) :=
  match operation with
  | .replaceClusters clusters accepted =>
    inferInstanceAs (Decidable (∀ svc ∈ w.services i, svc.id ∉ w.gone → svc.clusterName ∈ clusters →
      ∃ other ∈ accepted, other.id = svc.id ∧ svc.updatedAt ≤ other.updatedAt))
  | .removeFirst _ | .removeAll _ | .partition _ | .list _ | .get _ | .push _ | .write _ _ | .remap _ _
    | .insertTombstone _ | .saveServices | .saveTombstones => inferInstanceAs (Decidable True)

end Peers

def Whenever (_ : Peers ι) (_ : ι) {β : Type} (_ : Section β) : Prop := True

section
variable [DecidableEq ι]

/-- Answers from outside. Messages are not used up, and a post may fail to arrive although
it is answered, or be unanswered although it arrives. Peers refuse only what was deleted. -/
def Outside.Answers (thread : ι × Nat) (w : Peers ι) : {β : Type} → Outside ι β → β → Peers ι → Prop
  | _, .unixNow, now, after => now = w.clock thread.1 ∧ after = w
  | _, .newUuid, _, after | _, .nextWolfnetIp, _, after | _, .hostArch, _, after => after = w
  | _, .post peer services, refused, after => (∀ id ∈ refused, id ∈ w.gone) ∧
    (after = { w with posted := w.sent thread peer services :: w.posted } ∨ after = w)
  | _, .receive, services, after => ∃ message ∈ w.posted, message.target = thread.1 ∧ services = message.services ∧
    after = { w with taken := Function.update w.taken thread (some message) }
  | _, .receiveDelete, id, after => id ∈ w.gone ∧ after = w

inductive Peers.Moves : Peers ι → Peers ι → Prop
  | later {w} (i : ι) (secs : Nat) : Moves w { w with clock := Function.update w.clock i (w.clock i + secs) }

inductive Does : Task ι Unit → Prop
  | create (request : CreateService) : Does ((create request).bind fun _ => .pure ())
  | adopt (request : AdoptService) : Does ((adopt request).bind fun _ => .pure ())
  | scale (id : String) (replicas : Nat) : Does ((scale id replicas).first.bind fun _ => .pure ())
  | updateSettings (id : String) (settings : ServiceSettingsUpdate) :
      Does ((updateSettings id settings).first.bind fun _ => .pure ())
  | updateImage (id image : String) : Does ((updateImage id image).first.bind fun _ => .pure ())
  | delete (id : String) : Does ((delete id).first.bind fun _ => .pure ())
  | broadcast (peers : List ι) : Does (broadcastToCluster peers)
  | sync : Does (sync.bind fun _ => .pure ())
  | syncDelete : Does (syncDelete.bind fun _ => .pure ())

def gossipSystem (permitted : Peers ι → ι → {β : Type} → Section β → Prop) :
    System (Peers ι) (Joint Section (Outside ι)) (ι × Nat) Unit where
  moves := Peers.Moves
  bodies _ := { task | Does task }
  commits thread _ before operation value after :=
    match operation with
    | .first operation => permitted before thread.1 operation ∧
        ∃ store, operation.Runs (before.clock thread.1) (before.stores thread.1) value store ∧
          after = (before.noted thread operation).withStore thread.1 store
    | .second operation => operation.Answers thread before value after
  stops _ _ := False

def Peers.Fresh (w : Peers ι) : Prop :=
  (∀ i, (w.stores i).services = [] ∧ (w.stores i).deleted = []) ∧ w.posted = [] ∧ w.made = [] ∧
    (∀ i j, w.heard i j = false) ∧ (∀ thread, w.listed thread = none) ∧ ∀ thread, w.taken thread = none

/-- Since the last edit every node has sent its list, and every other has taken it in. -/
def Peers.Settled (w : Peers ι) : Prop := ∀ i j, i ≠ j → w.heard i j = true

/-- Every node has the newest version of every service that was made and not deleted. -/
def Peers.Newest (w : Peers ι) : Prop :=
  ∀ j, ∀ origin ∈ w.made, origin.2.id ∉ w.gone → ∃ svc ∈ w.services j, svc.id = origin.2.id ∧
    ∃ author, (author, svc) ∈ w.made ∧ ∀ other ∈ w.made, other.2.id = svc.id → other.2.updatedAt ≤ svc.updatedAt

end

end WolfRun
