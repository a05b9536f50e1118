import WolfStack.Auth.ClusterSecret

/-! Cluster nodes as the registry keeps them, and what is asked of an address or a record.
Metrics, counts, components and roles are left out: no decision on the registry reads them,
and where a service's next instance is placed the order of the nodes' scores is a parameter. -/

namespace Cluster
open Auth (IpAddr canonicalIp parseIp trim)

structure Node where
  id : String
  hostname : String
  address : String
  port : Nat
  migrationAddress : Option String
  lastSeen : Nat
  online : Bool
  isSelf : Bool
  publicIp : Option String
  nodeType : String
  pveToken : Option String
  pveFingerprint : Option String
  pveNodeName : Option String
  pveClusterName : Option String
  clusterName : Option String
  joinVerified : Bool
  hasDocker : Bool
  hasLxc : Bool
  loginDisabled : Bool
  tls : Bool
  updateScript : Option String
  selfId : Option String
  pubkey : Option String
  manager : Bool
  site : Option String
  displayName : Option String
  pollIntervalSecs : Option Nat
deriving DecidableEq, Repr

def defaultPollIntervalSecs : Nat := 10

def pollIntervalChoices : List Nat := [defaultPollIntervalSecs, 30, 60, 120]

def normalizePollInterval (secs : Option Nat) : Option Nat :=
  secs.filter fun s => s ≠ defaultPollIntervalSecs ∧ s ∈ pollIntervalChoices

def onlineWindowSecs (pollIntervalSecs : Nat) : Nat := max (pollIntervalSecs * 2 + 30) 60

/-- The slower of the two ends. -/
def effectivePollInterval (selfInterval peerInterval : Option Nat) : Nat :=
  max ((normalizePollInterval selfInterval).getD defaultPollIntervalSecs)
    ((normalizePollInterval peerInterval).getD defaultPollIntervalSecs)

/-- Private, loopback and link-local addresses. A name counts as local. -/
def isPrivateAddress (addr : String) : Bool :=
  match (parseIp addr).map canonicalIp with
  | some (.v4 bits) =>
    bits.extractLsb' 24 8 = 10 ∨ bits.extractLsb' 20 12 = 0xac1 ∨ bits.extractLsb' 16 16 = 0xc0a8 ∨
      bits.extractLsb' 24 8 = 127 ∨ bits.extractLsb' 16 16 = 0xa9fe
  | some (.v6 bits) => bits = 1 ∨ bits.extractLsb' 121 7 = 0x7e ∨ bits.extractLsb' 118 10 = 0x3fa
  | none => true

example : isPrivateAddress "172.31.0.9" = true ∧ isPrivateAddress "203.0.113.9" = false := by decide +kernel

def stripBrackets (addr : List Char) : List Char :=
  match addr, addr.getLast? with
  | '[' :: rest, some ']' => if rest = [] then addr else rest.dropLast
  | _, _ => addr

def asciiLower (text : List Char) : List Char := text.map Char.toLower

def linkLocalPrefixes : List String := ["fe8", "fe9", "fea", "feb"]

/-- Not a wildcard, a link-local or a mapped address: something a peer can connect to. -/
def isUsableAddr (addr : String) : Bool :=
  let a := trim addr
  if a ∈ ["", "0.0.0.0", "::", "[::]", "0.0.0.0/0"] ∨ "0.0.0.0:".toList <+: a.toList ∨ "[::]:".toList <+: a.toList then false
  else
    let bare := stripBrackets a.toList
    let unfit : Bool :=
      match parseIp (String.ofList bare) with
      | some (.v6 bits) => bits.extractLsb' 118 10 = 0x3fa ∨ (Auth.toIpv4Mapped bits).isSome
      | _ => false
    if unfit then false
    else ¬((∃ start ∈ linkLocalPrefixes, start.toList <+: asciiLower bare) ∧ ':' ∈ bare)

example : isUsableAddr "0.0.0.0" = false ∧ isUsableAddr "10.0.0.2" = true ∧ isUsableAddr "fe80::1%eth0" = false := by
  decide +kernel

/-- Names of clusters are compared without regard to case. -/
def clusterEq : Option String → Option String → Bool
  | some a, some b => asciiLower a.toList = asciiLower b.toList
  | none, none => true
  | _, _ => false

def nodeMatchesId (n : Node) (id : String) : Bool := n.id = id ∨ n.selfId = some id

/-- A record of this node under another address. -/
def isSelfAlias (n : Node) (selfId selfHostname : String) (selfPort : Nat) : Bool :=
  if n.isSelf ∨ n.id = selfId ∨ n.nodeType ≠ "wolfstack" then false
  else n.selfId = some selfId ∨ (n.hostname = selfHostname ∧ n.port = selfPort)

/-- Whether a gossiped entry is about this node, and whether it says so by an id. -/
def gossipIdentityMatch (known : Node) (selfId : String) (localIps : List String) : Bool × Bool :=
  let strong := known.id = selfId ∨ known.selfId = some selfId
  let weak := known.address ≠ "" ∧ known.address ∈ localIps
  (strong ∨ weak, strong)

/-- A peer that has joined and runs containers. -/
def sampleNode (id address : String) : Node where
  id := id
  hostname := id
  address := address
  port := 8553
  migrationAddress := none
  lastSeen := 0
  online := true
  isSelf := false
  publicIp := none
  nodeType := "wolfstack"
  pveToken := none
  pveFingerprint := none
  pveNodeName := none
  pveClusterName := none
  clusterName := some "c1"
  joinVerified := true
  hasDocker := true
  hasLxc := false
  loginDisabled := false
  tls := true
  updateScript := none
  selfId := none
  pubkey := none
  manager := true
  site := none
  displayName := none
  pollIntervalSecs := none

end Cluster
