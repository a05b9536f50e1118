import WolfStack.Cluster.State

/-! How a node learns about others: from a peer's list of members, from what a polled peer
has gossiped, and from the poll itself. Metrics, alerts, licences and WolfNet routes are
left out. -/

namespace Cluster
open Effects
open Effects.Program (send)

def knownSid (m : Node) : Option String := m.selfId.filter fun s => s ≠ ""

def sameEndpoint (n m : Node) : Bool := n.address = m.address ∧ n.port = m.port ∧ n.pveNodeName = m.pveNodeName

def sameHost (n m : Node) : Bool := n.hostname = m.hostname ∧ n.port = m.port ∧ n.nodeType = m.nodeType

/-- A record as gossip leaves it: offline, and without what a node says of itself only. -/
def seeded (m : Node) : Node := { m with online := false, isSelf := false, pubkey := none, manager := true }

/-- What is passed over before the tombstones are looked at. -/
def passedOver (me : Me) (localAddrs : List String) (m : Node) : Bool :=
  m.nodeType ≠ "wolfstack" || !isUsableAddr m.address || (knownSid m).isNone || m.id = me.id || m.selfId = some me.id ||
    (m.hostname = me.hostname ∧ m.port = me.port) || (m.address = me.address ∧ m.port = me.port) || m.address ∈ localAddrs

def memberKnown (current : List Node) (m : Node) : Bool :=
  current.any fun n => n.selfId = m.selfId || n.id = m.id || sameEndpoint n m || sameHost n m

/-- `added` are the ids that this list has added already; the copy does not show them. -/
def mergeMembers (me : Me) (localAddrs : List String) (current : List Node) : List (Option String) → List Node → Program Section Unit
  | _, [] => return ()
  | added, m :: rest =>
    if passedOver me localAddrs m ∨ m.selfId ∈ added then mergeMembers me localAddrs current added rest
    else do
      if ← send (.isTombstoned m) then mergeMembers me localAddrs current added rest
      else if memberKnown current m ∨ isPrivateAddress m.address = false then mergeMembers me localAddrs current added rest
      else
        send (.updateRemote (seeded m))
        mergeMembers me localAddrs current (m.selfId :: added) rest

def mergeMemberRefs (me : Me) (localAddrs : List String) (members : List Node) : Program Section Unit := do
  let current ← send .allNodes
  mergeMembers me localAddrs current [] members

/-- An edit of a node's names that its owner has not confirmed yet. -/
structure IdentityIntent where
  displayName : Option String
  clusterName : Option String

def effectiveCluster (existing known : Node) (intent : Option IdentityIntent) : Option String :=
  if intent.any fun i => i.clusterName.isSome then existing.clusterName else known.clusterName

def effectiveDisplay (existing known : Node) (intent : Option IdentityIntent) : Option String :=
  if intent.any fun i => i.displayName.isSome then existing.displayName else known.displayName

/-- A wildcard address does not count as a change. -/
def differs (existing known : Node) (intent : Option IdentityIntent) : Bool :=
  (isUsableAddr known.address && existing.address ≠ known.address) || existing.hostname ≠ known.hostname ||
    existing.port ≠ known.port || existing.pveToken ≠ known.pveToken || existing.pveFingerprint ≠ known.pveFingerprint ||
    !clusterEq existing.clusterName (effectiveCluster existing known intent) ||
    ((effectiveDisplay existing known intent).isSome && existing.displayName ≠ effectiveDisplay existing known intent)

/-- What a gossiped entry changes of a record that is kept under its id. -/
def mirrored (existing known : Node) (intent : Option IdentityIntent) : NodeSettings :=
  { NodeSettings.none with
    hostname := some known.hostname
    address := some (if isUsableAddr known.address then known.address else existing.address)
    port := some known.port
    pveToken := known.pveToken
    pveFingerprint := if known.pveFingerprint.isSome ∨ existing.pveFingerprint.isSome then some known.pveFingerprint else none
    clusterName := effectiveCluster existing known intent
    displayName := effectiveDisplay existing known intent }

def gossipKnown (current : List Node) (known : Node) : Bool :=
  current.any fun n => ((knownSid known).isSome && n.selfId = knownSid known) || sameEndpoint n known || sameHost n known

/-- A record that is not there yet. -/
def pullNew (current : List Node) (known : Node) : Program Section Unit :=
  if gossipKnown current known ∨ (knownSid known).isNone ∨ isPrivateAddress known.address = false then return ()
  else send (.updateRemote (seeded known))

def adoptDisplayName (me : Me) (known : Node) : Program Section Unit :=
  match known.displayName with
  | none => return ()
  | some name => do
    let _ ← send (.updateSettings me.id { NodeSettings.none with displayName := some name })
    return ()

def pullOne (me : Me) (localAddrs : List String) (intents : String → Option IdentityIntent) (current : List Node) (known : Node) :
    Program Section Unit :=
  let identity := gossipIdentityMatch known me.id localAddrs
  if identity.1 then
    if identity.2 then adoptDisplayName me known else return ()
  else if known.nodeType = "wolfstack" ∧ known.hostname = me.hostname ∧ known.port = me.port then return ()
  else do
    if ← send (.isTombstoned known) then return ()
    else
      match current.find? fun n => n.id = known.id with
      | some existing =>
        if differs existing known (intents known.id) then
          let _ ← send (.updateSettings known.id (mirrored existing known (intents known.id)))
          return ()
        else return ()
      | none => pullNew current known

def pullAll (me : Me) (localAddrs : List String) (intents : String → Option IdentityIntent) (current : List Node) :
    List Node → Program Section Unit
  | [] => return ()
  | known :: rest => do
    pullOne me localAddrs intents current known
    pullAll me localAddrs intents current rest

def pullGossip (me : Me) (localAddrs : List String) (intents : String → Option IdentityIntent) (knownNodes : List Node) :
    Program Section Unit := do
  let current ← send .allNodes
  pullAll me localAddrs intents current knownNodes

/-- `status` is `none` where a peer is unreachable, refuses, or sends something else. -/
inductive Ask : Type → Type where
  | localAddrs : Ask (List String)
  | selfInterval : Ask (Option Nat)
  | due (id : String) (interval : Nat) : Ask Bool
  | urls (node : Node) : Ask (List String)
  | status (node : Node) (url : String) : Ask (Option StatusReport)
  | intents : Ask (String → Option IdentityIntent)
  | failures (id : String) : Ask Nat

abbrev Poll (α : Type) := Program (Joint Section Ask) α

def query {α : Type} (operation : Ask α) : Poll α := send (.second operation)

def bracketHost (host : String) : String :=
  match Auth.parseIp (Auth.trim host) with
  | some (.v6 _) => "[" ++ Auth.trim host ++ "]"
  | _ => host

def answeredByTls (node : Node) (url : String) : Bool :=
  url.startsWith "https://" || !url.startsWith ("http://" ++ bracketHost node.address ++ ":" ++ toString node.port ++ "/")

def statusFrom (node : Node) : List String → Poll (Option (StatusReport × Bool))
  | [] => return none
  | url :: rest => do
    match ← query (.status node url) with
    | some report => return some (report, answeredByTls node url)
    | none => statusFrom node rest

def recordReport (node : Node) (report : StatusReport) (tls : Bool) : Program Section Unit := do
  let live ← send (.getNode node.id)
  send (.updatePolled node ((live.map Node.pubkey).getD node.pubkey) ((live.map Node.manager).getD node.manager) report tls)

def handleReport (me : Me) (localAddrs : List String) (node : Node) (report : StatusReport) (tls : Bool) : Poll Unit :=
  if report.nodeId ≠ "" ∧ report.nodeId = me.id then (forgetSelfAlias node.id).first
  else do
    (recordReport node report tls).first
    (mergeTombstones report.deletedIds).first
    let intents ← query .intents
    (pullGossip me localAddrs intents report.knownNodes).first

/-- One missed poll does not count. -/
def pollFailed (node : Node) : Poll Unit := do
  let count ← query (.failures node.id)
  if count < 2 then send (.first (.touch node.id)) else return ()

def pollOne (me : Me) (localAddrs : List String) (node : Node) : Poll Unit := do
  let urls ← query (.urls node)
  match ← statusFrom node urls with
  | some (report, tls) => handleReport me localAddrs node report tls
  | none => pollFailed node

def pollable (localAddrs : List String) (seen : List (String × Nat)) (node : Node) : Bool :=
  !node.isSelf && node.nodeType ≠ "proxmox" && node.address ∉ localAddrs && (node.address, node.port) ∉ seen

def pollAll (me : Me) (localAddrs : List String) (interval : Option Nat) : List (String × Nat) → List Node → Poll Unit
  | _, [] => return ()
  | seen, node :: rest =>
    if pollable localAddrs seen node then do
      if ← query (.due node.id (effectivePollInterval interval node.pollIntervalSecs)) then
        pollOne me localAddrs node
        pollAll me localAddrs interval ((node.address, node.port) :: seen) rest
      else pollAll me localAddrs interval ((node.address, node.port) :: seen) rest
    else pollAll me localAddrs interval seen rest

def pollRemoteNodes (me : Me) : Poll Unit := do
  let interval ← query .selfInterval
  let nodes ← send (.first .allNodes)
  let localAddrs ← query .localAddrs
  pollAll me localAddrs interval [] nodes

end Cluster
