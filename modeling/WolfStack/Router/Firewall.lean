import WolfStack.Router.Artefacts
import WolfStack.Text.Slices

/-! Firewall rules, what is written of them for `iptables-restore`, and how that is put in force.
Texts are lists of characters, and a text of several lines is the list of them. -/

namespace Router
open Text

inductive Action where
  | allow
  | deny
  | reject
  | log
deriving DecidableEq, Repr

inductive Direction where
  | forward
  | input
  | output
deriving DecidableEq, Repr

inductive Endpoint where
  | any
  | zone (zone : Zone)
  | interface (name : String)
  | ip (cidr : String)
  | vm (name : String)
  | container (name : String)
  | lan (id : String)
deriving DecidableEq, Repr

inductive Protocol where
  | any
  | tcp
  | udp
  | icmp
  | tcpudp
deriving DecidableEq, Repr

inductive Side where
  | dst
  | src
deriving DecidableEq, Repr

structure PortSpec where
  port : String
  side : Side
deriving DecidableEq, Repr

structure FirewallRule where
  id : String
  enabled : Bool
  order : Int
  action : Action
  direction : Direction
  source : Endpoint
  target : Endpoint
  protocol : Protocol
  ports : List PortSpec
  stateTrack : Bool
  logMatch : Bool
  nodeId : Option String
deriving DecidableEq, Repr

/-- The part of `RouterConfig` that the firewall is made from. The interfaces of a node come with
their zones, in any order. -/
structure FirewallConfig where
  assignments : String → List (String × Zone)
  lans : List LanSegment
  rules : List FirewallRule
  autoApply : Bool

structure Vm where
  name : String
  wolfnetIp : Option String

structure FirewallNode where
  selfNodeId : String
  vms : List Vm
  threatIntelLines : List (List Char)

def FirewallConfig.membersForZoneOnNode (config : FirewallConfig) (nodeId : String) (zone : Zone) : List String :=
  ((config.assignments nodeId).filter fun m => m.2 = zone).map Prod.fst

def filterChains : List String := ["WOLFROUTER_FWD", "WOLFROUTER_IN", "WOLFROUTER_OUT"]

def Direction.chain : Direction → String
  | forward => "WOLFROUTER_FWD"
  | input => "WOLFROUTER_IN"
  | output => "WOLFROUTER_OUT"

def Protocol.protos : Protocol → List (Option String)
  | tcp => [some "tcp"]
  | udp => [some "udp"]
  | icmp => [some "icmp"]
  | tcpudp => [some "tcp", some "udp"]
  | any => [none]

namespace Side

def addressFlag : Side → String
  | src => "-s "
  | dst => "-d "

def interfaceFlag : Side → String
  | src => "-i "
  | dst => "-o "

def portFlag : Side → String
  | dst => "--dport "
  | src => "--sport "

end Side

def Action.flag : Action → String
  | allow => "-j ACCEPT"
  | deny => "-j DROP"
  | reject => "-j REJECT"
  | log => "-j RETURN"

/-- `[String]::join(" ")`. -/
def joinParts (parts : List (List Char)) : List Char := [' '].intercalate parts

variable (node : FirewallNode) (config : FirewallConfig) (rule : FirewallRule)

/-- The ways in which an endpoint is matched, with the parts of a line for each. -/
def expandEndpoint (ep : Endpoint) (side : Side) : Except String (List (List (List Char))) :=
  match ep with
  | .any => .ok [[]]
  | .ip cidr => .ok [[side.addressFlag.toList ++ cidr.toList]]
  | .interface name => .ok [[side.interfaceFlag.toList ++ name.toList]]
  | .zone zone => .ok ((config.membersForZoneOnNode node.selfNodeId zone).map fun m => [side.interfaceFlag.toList ++ m.toList])
  | .lan id => match config.lans.find? fun l => l.id = id with
    | some l => .ok [[side.addressFlag.toList ++ l.subnetCidr.toList]]
    | none => .error ("LAN '" ++ id ++ "' not found")
  | .vm name | .container name => match node.vms.find? fun v => v.name = name with
    | some v => match v.wolfnetIp with
      | some ip => .ok [[side.addressFlag.toList ++ ip.toList ++ "/32".toList]]
      | none => .error ("VM '" ++ name ++ "' has no WolfNet IP — assign one before referencing it in a rule")
    | none => .error ("VM/container '" ++ name ++ "' not found")

def portParts (proto : Option String) : List (List Char) :=
  if proto = some "tcp" ∨ proto = some "udp" then
    rule.ports.map fun ps => ps.side.portFlag.toList ++ ps.port.toList.map fun c => if c = '-' then ':' else c
  else []

def matchParts (chain : String) (proto : Option String) (source target : List (List Char)) : List (List Char) :=
  ("-A ".toList ++ chain.toList) :: (proto.toList.map fun p => "-p ".toList ++ p.toList) ++ source ++ target ++ portParts rule proto ++
    if rule.stateTrack then ["-m conntrack --ctstate NEW".toList] else []

/-- A line that copies what matches to the log is written first. It names the first bytes of the
rule's id, which must not end inside a character. -/
def emitRule (chain : String) (proto : Option String) (source target : List (List Char)) : Option (List (List Char)) :=
  let parts := matchParts rule chain proto source target
  let actionLine := joinParts (parts ++ [rule.action.flag.toList])
  if rule.logMatch || rule.action = .log then
    (takeBytes (min (byteLen rule.id.toList) 8) rule.id.toList).map fun start =>
      [joinParts (parts ++ ["-j NFLOG".toList, "--nflog-group 1".toList,
        "--nflog-prefix \"wolfrouter-".toList ++ start ++ " \"".toList]), actionLine]
  else some [actionLine]

def skippedLine (reason : String) : List Char := ("# wolfrouter rule " ++ rule.id ++ " skipped: " ++ reason).toList

/-- The lines of a rule, if they can be written. -/
def compileRule : Option (List (List Char)) :=
  match expandEndpoint node config rule.source .src with
  | .error reason => some [skippedLine rule reason]
  | .ok [] => some [skippedLine rule "'from' endpoint resolved to nothing on this node"]
  | .ok sources => match expandEndpoint node config rule.target .dst with
    | .error reason => some [skippedLine rule reason]
    | .ok [] => some [skippedLine rule "'to' endpoint resolved to nothing on this node"]
    | .ok targets =>
      (rule.protocol.protos.flatMap fun proto => sources.flatMap fun source => targets.map fun target =>
        emitRule rule rule.direction.chain proto source target).mapM id |>.map List.flatten

def rulesHere : List FirewallRule :=
  ((config.rules.filter FirewallRule.enabled).filter fun r => r.nodeId.all (· = node.selfNodeId)).mergeSort fun a b => decide (a.order ≤ b.order)

def standardLines (chain : String) : List (List Char) :=
  [("-A " ++ chain ++ " -m conntrack --ctstate ESTABLISHED,RELATED -j ACCEPT").toList, ("-A " ++ chain ++ " -i lo -j ACCEPT").toList]

/-- What is added for threat intel, while it is enforced: connections from the addresses of a set are not
let in, and nothing is let out to them. -/
def threatIntelLines (enforced : Bool) : List (List Char) :=
  if enforced then
    [":WOLFSTACK_THREAT_INTEL - [0:0]".toList,
      "-A WOLFSTACK_THREAT_INTEL -m conntrack --ctstate NEW -m set --match-set wolfstack-threat-intel src -j DROP".toList,
      "-A WOLFSTACK_THREAT_INTEL -m set --match-set wolfstack-threat-intel dst -j DROP".toList,
      "-A WOLFROUTER_IN -j WOLFSTACK_THREAT_INTEL".toList, "-A WOLFROUTER_FWD -j WOLFSTACK_THREAT_INTEL".toList,
      "-A WOLFROUTER_OUT -j WOLFSTACK_THREAT_INTEL".toList]
  else []

/-- The lines of the rule set, if they can be written. -/
def buildRuleset : Option (List (List Char)) :=
  ((rulesHere node config).mapM (compileRule node config)).map fun compiled =>
    "*filter".toList :: (filterChains.map fun chain => (":" ++ chain ++ " - [0:0]").toList) ++ filterChains.flatMap standardLines ++
      node.threatIntelLines ++ compiled.flatten ++ ["COMMIT".toList]

/-- How `iptables-restore` ends. -/
inductive Restored where
  | done
  | rejected
  | failed (e : String)

abbrev Filter := String → List String

/-- What `iptables-restore` makes of a rule set, with and without `--test`, and what is in force when
it has taken it. -/
structure Iptables where
  restore : List (List Char) → Bool → Restored
  load : List (List Char) → Filter → Filter

def ourChains : List String := filterChains ++ ["WOLFSTACK_THREAT_INTEL"]

def flushOurs (filter : Filter) : Filter := fun chain => if chain ∈ ourChains then [] else filter chain

/-- `firewall::apply` without `test_only`. -/
def applyRuleset (iptables : Iptables) (ruleset : List (List Char)) (filter : Filter) : Except String Unit × Filter :=
  match iptables.restore ruleset true with
  | .failed e => (.error e, filter)
  | .rejected => (.error "iptables-restore --test rejected the ruleset", filter)
  | .done => match iptables.restore ruleset false with
    | .failed e => (.error e, flushOurs filter)
    | .rejected => (.error "iptables-restore failed to apply (ruleset reverted to previous)", flushOurs filter)
    | .done => (.ok (), iptables.load ruleset (flushOurs filter))

end Router
