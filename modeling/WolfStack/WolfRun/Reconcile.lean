import Mathlib.Data.List.Sort
import WolfStack.Cluster.Node
import WolfStack.WolfRun.State

/-! One pass of the reconciler: the services are copied, every instance is looked up on
its node, and containers are created, restarted and let go of. The load balancer's rules
are left out; which node scores best is the scheduler's business. -/

namespace WolfRun
open Effects
open Effects.Program (send)
open Cluster (Node nodeMatchesId)

structure Container where
  name : String
  state : Option String
  status : Option String
  ipAddress : String
  wolfnetIp : Option String

inductive Listing where
  | unreachable
  | refused
  | garbled
  | containers (found : List Container)

inductive Call where
  | pull (image : String)
  | create (name image : String) (ports env volumes : List String) (wolfnetIp : Option String)
  | action (runtime : Runtime) (name action : String) (force : Bool)
  | clone (template newName : String) (target wolfnetIp : Option String)
  | start (name : String)

/-- `post` is answered by whether the call went well, or by nothing. States of containers
are ASCII. -/
inductive Ask : Type → Type where
  | nodes : Ask (List Node)
  | node (id : String) : Ask (Option Node)
  | schedule (svc : WolfRunService) : Ask (Option String)
  | unixNow : Ask Nat
  | shortUuid : Ask String
  | nextWolfnetIp : Ask (Option String)
  | wolfnetNetwork : Ask (String → Bool)
  | runtimePresent (runtime : Runtime) : Ask Bool
  | urls (node : Node) : Ask (List String)
  | listLocal (node : Node) (runtime : Runtime) : Ask (List Container)
  | listRemote (node : Node) (url : String) (runtime : Runtime) : Ask Listing
  | post (node : Node) (url : String) (call : Call) : Ask (Option Bool)
  | createLocal (name image : String) (ports env volumes : List String) (wolfnetIp : Option String) : Ask Bool
  | cloneLocal (template clone : String) : Ask Bool
  | attachWolfnet (clone ip : String) : Ask Unit
  | startLocal (runtime : Runtime) (name : String) : Ask Bool
  | stopLocal (runtime : Runtime) (name : String) : Ask Unit
  | destroyLocal (runtime : Runtime) (name : String) : Ask Unit
  | shouldAttemptRestart (container : String) : Ask Bool
  | clearRestartBackoff (container : String) : Ask Unit
  | pruneRestartBackoff (live : List String) : Ask Unit

abbrev Pass (α : Type) := Program (Joint Section Ask) α

def query {α : Type} (operation : Ask α) : Pass α := send (.second operation)

def postFirst (node : Node) (call : Call) : List String → Pass (Option Bool)
  | [] => return none
  | url :: rest => do
    match ← query (.post node url call) with
    | some ok => return some ok
    | none => postFirst node call rest

def postUntilOk (node : Node) (call : Call) : List String → Pass Bool
  | [] => return false
  | url :: rest => do
    match ← query (.post node url call) with
    | some true => return true
    | _ => postUntilOk node call rest

def fetchRemote (node : Node) (runtime : Runtime) : List String → Pass (Option (List Container))
  | [] => return none
  | url :: rest => do
    match ← query (.listRemote node url runtime) with
    | .containers found => return some found
    | .refused | .garbled => return none
    | .unreachable => fetchRemote node runtime rest

structure Lists where
  ours : Runtime → Option (List Container)
  remote : String → Runtime → Option (Option (List Container))

def Lists.empty : Lists := ⟨fun _ => none, fun _ _ => none⟩

def wolfnetAddress (inWolfnet : String → Bool) (ipAddress : String) : Option String :=
  let found := ((ipAddress.splitOn ",").map Auth.trim).find? fun s =>
    (s.splitOn "wolfnet").length ≠ 1 ∨ inWolfnet (((s.splitOn " ").headD "").splitOn "/" |>.headD "")
  (found.map fun s => Auth.trim (s.replace " (wolfnet)" "")).filter fun s => s ≠ ""

/-- A bridge address stands in where there is no WolfNet address. -/
def bridgeAddress (ipAddress : String) : Option String :=
  ((ipAddress.splitOn ",").map Auth.trim).find? fun s =>
    s.startsWith "10.0.3." ∨ s.startsWith "10.0.4." ∨ s.startsWith "192.168."

def reported (c : Container) : String := ((c.state.or c.status).getD "unknown").toLower

def localSeen (inWolfnet : String → Bool) (now : Nat) (inst : ServiceInstance) (c : Container) : ServiceInstance :=
  { inst with
    wolfnetIp := (wolfnetAddress inWolfnet c.ipAddress).or (bridgeAddress c.ipAddress)
    status := reported c
    lastSeen := now }

def remoteSeen (inWolfnet : String → Bool) (now : Nat) (inst : ServiceInstance) (c : Container) : ServiceInstance :=
  { inst with
    wolfnetIp := (wolfnetAddress inWolfnet c.ipAddress).or c.wolfnetIp
    status := reported c
    lastSeen := now }

def unlessPending (inst other : ServiceInstance) : ServiceInstance := if inst.status = "pending" then inst else other

def offline (inst : ServiceInstance) : ServiceInstance := unlessPending inst { inst with status := "offline" }

def lost (inst : ServiceInstance) : ServiceInstance := unlessPending inst { inst with wolfnetIp := none, status := "lost" }

def runtimeOf (node : Node) : Runtime → Bool
  | .docker => node.hasDocker
  | .lxc => node.hasLxc

def listHere (lists : Lists) (node : Node) (runtime : Runtime) : Pass (Lists × List Container) := do
  match lists.ours runtime with
  | some found => return (lists, found)
  | none =>
    let found ← query (.listLocal node runtime)
    return ({ lists with ours := Function.update lists.ours runtime (some found) }, found)

def listThere (lists : Lists) (node : Node) (runtime : Runtime) : Pass (Lists × Option (List Container)) := do
  match lists.remote node.id runtime with
  | some found => return (lists, found)
  | none =>
    let urls ← query (.urls node)
    let found ← fetchRemote node runtime urls
    let known := Function.update (lists.remote node.id) runtime (some found)
    return ({ lists with remote := Function.update lists.remote node.id known }, found)

def runtimeAvailable (node : Node) (runtime : Runtime) : Pass Bool :=
  if runtimeOf node runtime then return true else query (.runtimePresent runtime)

def observeLocal (lists : Lists) (node : Node) (runtime : Runtime) (inst : ServiceInstance) : Pass (Lists × ServiceInstance) := do
  if ← runtimeAvailable node runtime then
    let (lists, containers) ← listHere lists node runtime
    match containers.find? fun c => c.name = inst.containerName with
    | some c =>
      let inWolfnet ← query .wolfnetNetwork
      let now ← query .unixNow
      return (lists, localSeen inWolfnet now inst c)
    | none => return (lists, lost inst)
  else return (lists, offline inst)

def observeRemote (lists : Lists) (node : Node) (runtime : Runtime) (inst : ServiceInstance) : Pass (Lists × ServiceInstance) := do
  let (lists, listing) ← listThere lists node runtime
  match listing with
  | some containers =>
    match containers.find? fun c => c.name = inst.containerName with
    | some c =>
      let inWolfnet ← query .wolfnetNetwork
      let now ← query .unixNow
      return (lists, remoteSeen inWolfnet now inst c)
    | none => return (lists, lost inst)
  | none => return (lists, offline inst)

def observe (nodes : List Node) (lists : Lists) (runtime : Runtime) (inst : ServiceInstance) : Pass (Lists × ServiceInstance) :=
  match nodes.find? fun n => nodeMatchesId n inst.nodeId with
  | some n =>
    if n.online ∧ n.isSelf then observeLocal lists n runtime inst
    else if n.online then observeRemote lists n runtime inst
    else return (lists, offline inst)
  | none => return (lists, offline inst)

def observeAll (nodes : List Node) (runtime : Runtime) : Lists → List ServiceInstance → Pass (Lists × List ServiceInstance)
  | lists, [] => return (lists, [])
  | lists, inst :: rest => do
    let (lists, seen) ← observe nodes lists runtime inst
    let (lists, live) ← observeAll nodes runtime lists rest
    return (lists, seen :: live)

def countsAsExisting (i : ServiceInstance) : Bool := !i.standby && i.status ≠ "lost"

def existing (live : List ServiceInstance) : Nat := (live.filter countsAsExisting).length

def maxCreatesPerTick : Nat := 2

def ceiling (service : WolfRunService) : Nat := max service.maxReplicas service.replicas

def needed (service : WolfRunService) (count : Nat) : Nat :=
  min (min (service.replicas - count) (ceiling service - count)) maxCreatesPerTick

def newInstance (nodeId containerName status : String) (wolfnetIp : Option String) (now : Nat) : ServiceInstance where
  nodeId := nodeId
  containerName := containerName
  wolfnetIp := wolfnetIp
  status := status
  lastSeen := now
  standby := false

def register (service : WolfRunService) (nodeId containerName status : String) (wolfnetIp : Option String) : Pass Unit := do
  let now ← query .unixNow
  (addInstance service.id (newInstance nodeId containerName status wolfnetIp now)).first

def deployDocker (node : Node) (containerName : String) (service : WolfRunService) (env : List String) (nodeId : String) :
    Pass Unit := do
  let wolfnetIp ← query .nextWolfnetIp
  if node.isSelf then
    if ← query (.createLocal containerName service.image service.ports env service.volumes wolfnetIp) then
      let _ ← query (.startLocal .docker containerName)
      register service nodeId containerName "running" wolfnetIp
    else return ()
  else
    let pullUrls ← query (.urls node)
    if ← postUntilOk node (.pull service.image) pullUrls then
      let createUrls ← query (.urls node)
      match ← postFirst node (.create containerName service.image service.ports env service.volumes wolfnetIp) createUrls with
      | some true =>
        let startUrls ← query (.urls node)
        let _ ← postUntilOk node (.action .docker containerName "start" false) startUrls
        register service nodeId containerName "running" wolfnetIp
      | _ => return ()
    else return ()

def startClone (clone : String) : Pass Unit := do
  if ← query (.startLocal .lxc clone) then return ()
  else
    let _ ← query (.startLocal .lxc clone)
    return ()

def attachFresh (clone : String) : Pass Unit := do
  match ← query .nextWolfnetIp with
  | some ip => query (.attachWolfnet clone ip)
  | none => return ()

/-- Source and target are the same node: the template is stopped while it is cloned. -/
def cloneHere (template clone : String) : Pass Bool := do
  query (.stopLocal .lxc template)
  let cloned ← query (.cloneLocal template clone)
  let _ ← query (.startLocal .lxc template)
  if cloned then
    startClone clone
    attachFresh clone
    return true
  else return false

def cloneThere (source : Node) (template clone : String) : Pass Bool := do
  let urls ← query (.urls source)
  match ← postFirst source (.clone template clone none none) urls with
  | some true =>
    let startUrls ← query (.urls source)
    let _ ← postFirst source (.start clone) startUrls
    return true
  | _ => return false

def cloneUrls (source : Node) : Pass (List String) :=
  if source.isSelf then return ["https://127.0.0.1:" ++ toString source.port] else query (.urls source)

def migrate (source : Option Node) (template clone nodeId : String) (ip : Option String) : Pass (Option Bool) :=
  match source with
  | some source => do
    let urls ← cloneUrls source
    postFirst source (.clone template clone (some nodeId) ip) urls
  | none => return none

/-- The instance is registered before the clone begins, and let go of if that fails. -/
def cloneAcross (service : WolfRunService) (source : Option Node) (template clone nodeId : String) : Pass Unit := do
  let ip ← query .nextWolfnetIp
  register service nodeId clone "pending" ip
  match ← migrate source template clone nodeId ip with
  | some true => return ()
  | _ => (removeInstance service.id clone).first

def cloneBeside (node : Node) (source : Option Node) (template clone : String) : Pass Bool :=
  if node.isSelf then cloneHere template clone
  else match source with
    | some source => cloneThere source template clone
    | none => return false

def deployClone (node : Node) (service : WolfRunService) (template : String) (templateNode : Option String) (nodeId shortId : String) :
    Pass Unit := do
  let clone := template ++ "-wolfrun-" ++ shortId
  let source ← query (.node (templateNode.getD nodeId))
  if source.any fun s => s.id = nodeId then
    if ← cloneBeside node source template clone then register service nodeId clone "running" none
    else return ()
  else cloneAcross service source template clone nodeId

/-- A running instance, or any, is what a clone is made from. -/
def cloneSource (service : WolfRunService) (live : List ServiceInstance) : Option ServiceInstance :=
  ((live.find? fun i => i.status = "running").or live.head?).or service.instances.head?

/-- One more replica; `false` when there is nowhere to put it. -/
def createOne (service : WolfRunService) (live : List ServiceInstance) : Pass Bool := do
  let current ← send (.first (.get service.id))
  match ← query (.schedule (current.getD service)) with
  | none => return false
  | some nodeId =>
    match ← query (.node nodeId) with
    | none => return true
    | some node =>
      let uuid ← query .shortUuid
      let source := cloneSource service live
      match service.runtime with
      | .docker =>
        let name := (service.name.toLower.replace " " "-") ++ "-wolfrun-" ++ uuid
        let env := service.env ++ ["WOLFRUN_SERVICE=" ++ service.id, "WOLFRUN_SERVICE_NAME=" ++ service.name]
        deployDocker node name service env nodeId
        return true
      | .lxc =>
        deployClone node service ((source.map ServiceInstance.containerName).getD service.name)
          (source.map ServiceInstance.nodeId) nodeId uuid
        return true

def createMany (service : WolfRunService) (live : List ServiceInstance) : Nat → Pass Unit
  | 0 => return ()
  | count + 1 => do
    if ← createOne service live then createMany service live count
    else return ()

def scaleUp (service : WolfRunService) (live : List ServiceInstance) : Pass Unit :=
  if existing live < service.replicas then createMany service live (needed service (existing live))
  else return ()

def removeInstances (service : WolfRunService) : List ServiceInstance → Pass Unit
  | [] => return ()
  | inst :: rest => do
    (removeInstance service.id inst.containerName).first
    removeInstances service rest

def crowd (live : List ServiceInstance) (nodeId : String) : Nat := (live.filter fun i => countsAsExisting i ∧ i.nodeId = nodeId).length

/-- What does not run goes first, then what is on the fullest node. -/
def ReleasedBefore (live : List ServiceInstance) (a b : ServiceInstance) : Prop :=
  (a.status ≠ "running" ∧ b.status = "running") ∨
    ((a.status = "running" ↔ b.status = "running") ∧ crowd live b.nodeId ≤ crowd live a.nodeId)

instance (live : List ServiceInstance) : DecidableRel (ReleasedBefore live) := fun a b =>
  inferInstanceAs (Decidable ((a.status ≠ "running" ∧ b.status = "running") ∨
    ((a.status = "running" ↔ b.status = "running") ∧ crowd live b.nodeId ≤ crowd live a.nodeId)))

def released (service : WolfRunService) (live : List ServiceInstance) : List ServiceInstance :=
  ((live.filter countsAsExisting).insertionSort (ReleasedBefore live)).take (existing live - service.replicas)

def scaleDown (service : WolfRunService) (live : List ServiceInstance) : Pass Unit :=
  if service.replicas < existing live then removeInstances service (released service live)
  else return ()

def restartable (status : String) : Bool := status ∈ ["exited", "dead", "stopped", "created"]

def restart (service : WolfRunService) (inst : ServiceInstance) : Pass Unit := do
  match ← query (.node inst.nodeId) with
  | none => return ()
  | some node =>
    if ← query (.shouldAttemptRestart inst.containerName) then
      if node.isSelf then
        let _ ← query (.startLocal service.runtime inst.containerName)
        return ()
      else
        let urls ← query (.urls node)
        let _ ← postFirst node (.action service.runtime inst.containerName "start" false) urls
        return ()
    else return ()

def watch (service : WolfRunService) (inst : ServiceInstance) : Pass Unit :=
  if inst.standby then return ()
  else if inst.status = "running" then query (.clearRestartBackoff inst.containerName)
  else if restartable inst.status then restart service inst
  else return ()

def watchAll (service : WolfRunService) : List ServiceInstance → Pass Unit
  | [] => return ()
  | inst :: rest => do
    watch service inst
    watchAll service rest

def elapsed (now lastSeen : Nat) : Nat := (now + 2 ^ 64 - lastSeen) % 2 ^ 64

def abandoned (now : Nat) (live : List ServiceInstance) : List ServiceInstance :=
  live.filter fun i => i.status = "lost" ∧ 300 < elapsed now i.lastSeen

def removal : Runtime → String
  | .docker => "remove"
  | .lxc => "destroy"

def destroyStandby (nodes : List Node) (service : WolfRunService) (inst : ServiceInstance) : Pass Unit :=
  match nodes.find? fun n => nodeMatchesId n inst.nodeId with
  | none => return ()
  | some n =>
    if n.isSelf then do
      query (.stopLocal service.runtime inst.containerName)
      query (.destroyLocal service.runtime inst.containerName)
    else if n.online then do
      let urls ← query (.urls n)
      let _ ← postFirst n (.action service.runtime inst.containerName "stop" false) urls
      let _ ← postFirst n (.action service.runtime inst.containerName (removal service.runtime) true) urls
      return ()
    else return ()

def dropStandbys (nodes : List Node) (service : WolfRunService) : List ServiceInstance → Pass Unit
  | [] => return ()
  | inst :: rest => do
    destroyStandby nodes service inst
    (removeInstance service.id inst.containerName).first
    dropStandbys nodes service rest

def settle (nodes : List Node) (service : WolfRunService) (live : List ServiceInstance) : Pass Unit := do
  (updateInstances service.id live).first
  scaleUp service live
  scaleDown service live
  watchAll service (if service.restartPolicy = .always then live else [])
  let now ← query .unixNow
  removeInstances service (abandoned now live)
  if service.failover then return () else dropStandbys nodes service (live.filter ServiceInstance.standby)

def reconcileAll : Lists → Services → Pass Unit
  | _, [] => return ()
  | lists, service :: rest => do
    let nodes ← query .nodes
    let (lists, live) ← observeAll nodes service.runtime lists service.instances
    settle nodes service live
    reconcileAll lists rest

def selfCluster (nodes : List Node) : String :=
  ((nodes.find? fun n => n.isSelf).bind Node.clusterName).getD "WolfStack"

/-- A flag lets one pass run at a time. -/
def reconcile : Pass Unit := do
  let nodes ← query .nodes
  let services ← send (.first (.list (some (selfCluster nodes))))
  if services = [] then query (.pruneRestartBackoff [])
  else
    query (.pruneRestartBackoff (services.flatMap fun s => s.instances.map ServiceInstance.containerName))
    reconcileAll .empty services

def hasRuntime (service : WolfRunService) (n : Node) : Pass Bool :=
  if runtimeOf n service.runtime then return true
  else if n.isSelf then query (.runtimePresent service.runtime)
  else return false

def eligible (service : WolfRunService) (n : Node) : Bool :=
  n.online && n.clusterName.getD "WolfStack" = service.clusterName &&
    (service.allowedNodes = [] || service.allowedNodes.any (nodeMatchesId n))

/-- Nodes without an instance, by the ids that instances are recorded under. -/
def eligibleNodes (service : WolfRunService) (occupied : List String) : List Node → Pass (List Node)
  | [] => return []
  | n :: rest => do
    let present ← hasRuntime service n
    let others ← eligibleNodes service occupied rest
    return if eligible service n ∧ present ∧ n.id ∉ occupied then n :: others else others

def standbySource (service : WolfRunService) : Option ServiceInstance :=
  (service.instances.find? fun i => i.status = "running" ∧ i.standby = false).or
    (service.instances.find? fun i => i.status = "running")

def createStandbyDocker (service : WolfRunService) (target : Node) (name : String) (ip : Option String) : Pass Bool :=
  if target.isSelf then query (.createLocal name service.image service.ports service.env service.volumes ip)
  else do
    let pullUrls ← query (.urls target)
    if ← postUntilOk target (.pull service.image) pullUrls then
      let createUrls ← query (.urls target)
      let answer ← postFirst target (.create name service.image service.ports service.env service.volumes none) createUrls
      return answer = some true
    else return false

def cloneStandby (nodes : List Node) (source : ServiceInstance) (target : Node) (name : String) (ip : Option String) : Pass Bool :=
  match nodes.find? fun n => nodeMatchesId n source.nodeId with
  | none => return false
  | some node => do
    let urls ← cloneUrls node
    let answer ← postFirst node
      (.clone source.containerName name (if node.id = target.id then none else some target.id) ip) urls
    return answer = some true

/-- A standby is registered before it is made, and let go of where that fails. It is not
started. -/
def createStandby (nodes : List Node) (service : WolfRunService) (source : ServiceInstance) (target : Node) : Pass Unit := do
  let uuid ← query .shortUuid
  let name := (source.containerName.splitOn "-wolfrun-").headD "" ++ "-standby-" ++ uuid
  let ip ← query .nextWolfnetIp
  let now ← query .unixNow
  (addInstance service.id { newInstance target.id name "standby" ip now with standby := true }).first
  let created ← match service.runtime with
    | .docker => createStandbyDocker service target name ip
    | .lxc => cloneStandby nodes source target name ip
  if created then return () else (removeInstance service.id name).first

def createStandbys (nodes : List Node) (service : WolfRunService) (source : ServiceInstance) : List Node → Pass Unit
  | [] => return ()
  | target :: rest => do
    createStandby nodes service source target
    createStandbys nodes service source rest

def standbysOf (nodes : List Node) (service : WolfRunService) : Pass Unit :=
  if service.failover then do
    let occupied := (service.instances.filter fun i => i.status ≠ "lost").map ServiceInstance.nodeId
    let targets ← eligibleNodes service occupied nodes
    match standbySource service with
    | some source => createStandbys nodes service source targets
    | none => return ()
  else return ()

def standbysOfAll (nodes : List Node) : Services → Pass Unit
  | [] => return ()
  | service :: rest => do
    standbysOf nodes service
    standbysOfAll nodes rest

def manageStandby : Pass Unit := do
  let nodes ← query .nodes
  let services ← send (.first (.list (some (selfCluster nodes))))
  if services = [] then return ()
  else
    let nodes ← query .nodes
    standbysOfAll nodes services

def hostOf (nodes : List Node) (i : ServiceInstance) : Option Node := nodes.find? fun n => nodeMatchesId n i.nodeId

def failedInstances (nodes : List Node) (service : WolfRunService) : List ServiceInstance :=
  service.instances.filter fun i => !i.standby && (i.status = "offline" ∨ i.status = "lost") &&
    ((hostOf nodes i).map fun n => !n.online).getD true

def reachable (nodes : List Node) (i : ServiceInstance) : Bool := ((hostOf nodes i).map Node.online).getD false

def attachPlanned (standby : ServiceInstance) : Pass Unit :=
  match standby.wolfnetIp with
  | some ip => query (.attachWolfnet standby.containerName ip)
  | none => return ()

def startStandby (service : WolfRunService) (node : Node) (standby : ServiceInstance) : Pass Bool :=
  if node.isSelf then
    match service.runtime with
    | .docker => query (.startLocal .docker standby.containerName)
    | .lxc => do
      attachPlanned standby
      query (.startLocal .lxc standby.containerName)
  else do
    let urls ← query (.urls node)
    let answer ← postFirst node (.action service.runtime standby.containerName "start" false) urls
    return answer = some true

/-- Each failed instance is replaced by the first standby on a node that is online. -/
def promoteAll (nodes : List Node) (service : WolfRunService) : List ServiceInstance → List ServiceInstance → Pass Unit
  | [], _ => return ()
  | failed :: rest, standbys =>
    match standbys.find? (reachable nodes) with
    | none => promoteAll nodes service rest standbys
    | some standby =>
      match hostOf nodes standby with
      | none => promoteAll nodes service rest (standbys.eraseP (reachable nodes))
      | some node => do
        if ← startStandby service node standby then
          (touched service.id (.promote standby.containerName failed.containerName)).first
          promoteAll nodes service rest (standbys.eraseP (reachable nodes))
        else promoteAll nodes service rest (standbys.eraseP (reachable nodes))

def failoverAll (nodes : List Node) : Services → Pass Unit
  | [] => return ()
  | service :: rest => do
    promoteAll nodes service (if service.failover then failedInstances nodes service else [])
      (service.instances.filter fun i => i.standby && i.status ≠ "lost")
    failoverAll nodes rest

def checkFailover : Pass Unit := do
  let nodes ← query .nodes
  let services ← send (.first (.list (some (selfCluster nodes))))
  if services = [] then return ()
  else
    let nodes ← query .nodes
    failoverAll nodes services

end WolfRun
